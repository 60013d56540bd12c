/-!
Texts in the order of their bytes.

Texts are compared character by character, which is the order of their bytes in UTF-8: the bytes of
the smaller of two characters are smaller at the first place where the bytes differ, so it does not
matter what follows them.

* `Text.bytesBefore_iff`, and `Text.eq_of_first` for what comes first.
-/

namespace Footprint.Text

/-- One text comes before another one by their bytes in UTF-8. -/
def BytesBefore (a b : String) : Prop := a.toUTF8.data.toList < b.toUTF8.data.toList

/-- Some bytes come before others, whatever follows either. -/
def Below (l m : List UInt8) : Prop := ∀ r s, l ++ r < m ++ s

theorem below_of_lt {m n : Nat} {l k : List UInt8} (less : m < n) (byte : n < 256) :
    Below (UInt8.ofNat m :: l) (UInt8.ofNat n :: k) :=
  fun _ _ => .rel ((UInt8.ofNat_lt_iff_lt (Nat.lt_trans less byte) byte).mpr less)

theorem below_of_eq {m n : Nat} {l k : List UInt8} (same : m = n) (below : Below l k) :
    Below (UInt8.ofNat m :: l) (UInt8.ofNat n :: k) := by
  intro r s
  rw [same]
  exact .cons (below r s)

/-- Either the first bytes are in order, or they are the same and the others are in order. -/
theorem below_of_le {m n : Nat} {l k : List UInt8} (least : m ≤ n) (byte : n < 256)
    (others : m = n → Below l k) : Below (UInt8.ofNat m :: l) (UInt8.ofNat n :: k) := by
  rcases Nat.lt_or_eq_of_le least with less | same
  · exact below_of_lt less byte
  · exact below_of_eq same (others same)

theorem toNat_lt_of_char (c : Char) : c.val.toNat < 0x110000 := by
  rcases c.valid with low | ⟨-, high⟩
  · exact Nat.lt_trans low (by decide)
  · exact high

/-- The bytes of the smaller of two characters come before those of the other one: a character of
fewer bytes has the smaller first byte, and bytes of the same number are the digits of the
characters. -/
theorem below_utf8EncodeChar {c d : Char} (less : c < d) :
    Below (String.utf8EncodeChar c) (String.utf8EncodeChar d) := by
  have less : c.val.toNat < d.val.toNat := UInt32.lt_iff_toNat_lt.mp less
  have high := toNat_lt_of_char d
  unfold String.utf8EncodeChar
  generalize c.val.toNat = m at less
  generalize d.val.toNat = n at less high
  simp only []
  by_cases one : n ≤ 0x7f
  · rw [if_pos one, if_pos (by omega)]
    exact below_of_lt less (by omega)
  rw [if_neg one]
  by_cases two : n ≤ 0x7ff
  · rw [if_pos two]
    by_cases short : m ≤ 0x7f
    · rw [if_pos short]
      exact below_of_lt (by omega) (by omega)
    · rw [if_neg short, if_pos (by omega)]
      refine below_of_le (by omega) (by omega) fun _ => ?_
      exact below_of_lt (by omega) (by omega)
  rw [if_neg two]
  by_cases three : n ≤ 0xffff
  · rw [if_pos three]
    split
    · exact below_of_lt (by omega) (by omega)
    split
    · exact below_of_lt (by omega) (by omega)
    · rw [if_pos (by omega)]
      refine below_of_le (by omega) (by omega) fun _ => ?_
      refine below_of_le (by omega) (by omega) fun _ => ?_
      exact below_of_lt (by omega) (by omega)
  · rw [if_neg three]
    split
    · exact below_of_lt (by omega) (by omega)
    split
    · exact below_of_lt (by omega) (by omega)
    split
    · exact below_of_lt (by omega) (by omega)
    · refine below_of_le (by omega) (by omega) fun _ => ?_
      refine below_of_le (by omega) (by omega) fun _ => ?_
      refine below_of_le (by omega) (by omega) fun _ => ?_
      exact below_of_lt (by omega) (by omega)

/-- The bytes of some characters. -/
def bytes (cs : List Char) : List UInt8 := cs.flatMap String.utf8EncodeChar

theorem toUTF8_eq_bytes (s : String) : s.toUTF8.data.toList = bytes s.toList := by
  have encoded : s.toUTF8 = s.toList.utf8Encode := (String.utf8Encode_toList).symm
  rw [encoded, List.utf8Encode, List.toList_data_toByteArray]
  rfl

theorem bytes_lt {cs ds : List Char} (less : cs < ds) : bytes cs < bytes ds := by
  induction less with
  | @nil d ds =>
    show [] < String.utf8EncodeChar d ++ bytes ds
    cases first : String.utf8EncodeChar d with
    | nil => exact absurd first String.utf8EncodeChar_ne_nil
    | cons => exact .nil
  | rel less => exact below_utf8EncodeChar less _ _
  | cons _ ih => exact List.append_left_lt ih

/-- The order of texts is that of their bytes. -/
theorem bytesBefore_iff {a b : String} : BytesBefore a b ↔ a < b := by
  unfold BytesBefore
  rw [toUTF8_eq_bytes, toUTF8_eq_bytes]
  constructor
  · intro less
    apply Classical.byContradiction
    intro notLess
    by_cases more : b < a
    · exact List.lt_asymm less (bytes_lt more)
    · have same : a = b := String.le_antisymm (String.not_lt.mp more) (String.not_lt.mp notLess)
      rw [same] at less
      exact List.lt_irrefl _ less
  · exact bytes_lt

/-- At most one text is the first that lacks a property. -/
theorem eq_of_first {holds : String → Prop} {a b : String} (lacks : ¬ holds a)
    (before : ∀ c, BytesBefore c a → holds c) (lacks' : ¬ holds b)
    (before' : ∀ c, BytesBefore c b → holds c) : a = b := by
  have notBefore : ¬ a < b := fun less => lacks (before' a (bytesBefore_iff.mpr less))
  have notAfter : ¬ b < a := fun less => lacks' (before b (bytesBefore_iff.mpr less))
  exact String.le_antisymm (String.not_lt.mp notAfter) (String.not_lt.mp notBefore)

end Footprint.Text
