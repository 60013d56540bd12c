import Footprint.Proofs.Json.Read
import Footprint.Proofs.Session.Parts

/-!
Saved sessions are read back.

A session is portable when its constants are whole numbers of 64 bits, so that no value is written
as a fraction, and its allocation has only whole numbers and leaves a level of containers for the
session itself. Nothing else is asked of it: bindings may repeat, rules may be incomplete and texts
may hold any character.

* `Session.parse_text_and_prettyText`: a portable session is read back from both of its texts, the
  same up to the scale of its decimals, and what was read has these texts again.
-/

namespace Footprint.Session

open Json (Plain)

/-- The constants are whole numbers of 64 bits, and the allocation consists of whole numbers and
texts with at most 126 levels of containers. -/
structure Portable (s : Session) : Prop where
  constants : ∀ r ∈ s.rules, ∀ q, r.factor = some (.constant (some q)) → q.value.IsInt64
  allocation : Plain 126 s.allocation.tree

theorem Portable.rules {s : Session} (portable : s.Portable) : ∀ r ∈ s.rules, r.IsWhole := by
  rintro r mem _ chosen q rfl
  exact portable.constants r mem q chosen

theorem plain_toJson {s : Session} (portable : s.Portable) : Plain Json.maxLevels s.toJson := by
  have allocation := Json.plain_iff_written.mp portable.allocation
  exact Json.plain_iff_written.mpr (written_toJson (fun r mem broken =>
    broken (portable.rules r mem)) allocation)

theorem ofJson?_toJson {s : Session} (portable : s.Portable) :
    ∃ read, ofJson? s.toJson = some read ∧ s.Same read := by
  obtain ⟨rules, found, same⟩ := Json.exists_mapM_forall₂ fun r mem =>
    Rule.exists_carried Json.carries_id (portable.rules r mem)
  have carried := ofJson?_carried Json.carries_id s
  rw [found, Option.bind_some, id, id, Json.Value.ofJson?_tree] at carried
  exact ⟨_, carried, rfl, same, rfl⟩

theorem parse_of_read? {text : String} {j : Json} {s : Session} (read : Json.read? text = some j)
    (found : ofJson? j = some s) : parse text = .ok s := by
  simp only [parse, read, Option.bind_some, found]

/-- A portable session is read back from both of its texts. What is read is the same session up to
the scale of decimals, and has both texts again. -/
theorem parse_text_and_prettyText (s : Session) (portable : s.Portable) :
    ∃ read, parse s.text = .ok read ∧ parse s.prettyText = .ok read ∧ s.Same read ∧
      read.text = s.text ∧ read.prettyText = s.prettyText := by
  have plain := plain_toJson portable
  obtain ⟨read, found, same⟩ := ofJson?_toJson portable
  have written := same.toJson_eq portable.rules
  refine ⟨read, ?_, ?_, same, ?_, ?_⟩
  · exact parse_of_read? (Json.read?_compact plain) found
  · exact parse_of_read? (Json.read?_pretty plain) found
  · rw [text, text, written]
  · rw [prettyText, prettyText, written]

/-- A session with a repeated binding, an incomplete rule, a constant of two places and an
allocation of its own. -/
def sample : Session where
  bindings := [⟨.event "ship" "weight", some ⟨"kg", "kilogram", .base Dimension.mass⟩⟩,
    ⟨.object "truck \"7\"" true "distance", none⟩, ⟨.event "ship" "weight", none⟩]
  rules := [.event { activity := some "ship",
                     factor := some (.constant (some ⟨.ofParts true 500 2 (by decide), none⟩)),
                     multipliers := [.event "ship" "weight"] },
    .relation { objectType := some "truck" }]
  allocation := ⟨.object [("a", .array [.int 18446744073709551615, .null]), ("é\n", .string "\\")],
    rfl, by decide⟩

theorem sample_parse_text_and_prettyText :
    sample.Portable ∧ ∃ read, parse sample.text = .ok read ∧ parse sample.prettyText = .ok read ∧
      sample.Same read ∧ read.text = sample.text ∧ read.prettyText = sample.prettyText := by
  have portable : sample.Portable := by
    refine ⟨fun r mem q chosen => ?_, ?_⟩
    · simp only [sample, List.mem_cons, List.not_mem_nil, or_false] at mem
      rcases mem with rfl | rfl
      · cases chosen
        exact ⟨-5, rfl, by decide, by decide⟩
      · cases chosen
    · refine .object ?_
      intro e mem
      simp only [List.mem_cons, List.not_mem_nil, or_false] at mem
      rcases mem with rfl | rfl
      · refine .array ?_
        intro item mem
        simp only [List.mem_cons, List.not_mem_nil, or_false] at mem
        rcases mem with rfl | rfl
        · exact .int (by decide)
        · exact .null
      · exact .string
  exact ⟨portable, parse_text_and_prettyText sample portable⟩

end Footprint.Session
