import Footprint.Rule.Check
import Footprint.Rule.Edit
import Mathlib.Data.List.Induction

/-!
Histories of edits of a rule.

Whether an edit resets other choices depends on the rule that it meets: another activity than the
one at hand resets everything else, another object type all but the activity, and choosing the same
one again resets nothing. What a rule holds in the end can nevertheless be read off its history:
each choice is that of the last edit of its kind `Since` the last reset.

* `Follows.eq_lastChoice`: this holds of any field that each edit resets, chooses or keeps;
* `settled_of_edits`: so it holds of all fields of a rule that starts empty. Nothing from before
  another activity is left in it, and its factor was chosen for its activity and object type.
-/

namespace Footprint

/-! ### What an edit chooses -/

namespace RuleEdit

/-- The activity that an edit chooses. -/
def activity? : RuleEdit → Option (Option String)
  | .activity name => some (some name)
  | _ => none

/-- The object type that an edit chooses. -/
def objectType? : RuleEdit → Option (Option String)
  | .objectType name => some (some name)
  | _ => none

/-- The qualifier that an edit chooses, which may be none. -/
def qualifier? : RuleEdit → Option (Option String)
  | .qualifier name => some name
  | _ => none

/-- The factor that an edit chooses, which may be none. -/
def factor? : RuleEdit → Option (Option EmissionFactor)
  | .factor chosen => some chosen
  | _ => none

/-- The attributes that an edit chooses. -/
def multipliers? : RuleEdit → Option (List Attribute)
  | .multipliers attributes => some attributes
  | _ => none

end RuleEdit

/-! ### What an edit changes -/

namespace RelationRule

/-- The edit chooses another activity than the one at hand. -/
def ChangesActivity (r : RelationRule) (e : RuleEdit) : Prop :=
  ∃ name, e = .activity name ∧ r.activity ≠ some name

/-- The edit chooses another object type than the one at hand. -/
def ChangesObjectType (r : RelationRule) (e : RuleEdit) : Prop :=
  ∃ name, e = .objectType name ∧ r.objectType ≠ some name

/-- The edit chooses another activity or object type. -/
def ChangesTarget (r : RelationRule) (e : RuleEdit) : Prop :=
  r.ChangesActivity e ∨ r.ChangesObjectType e

section Edit

variable {r : RelationRule} {e : RuleEdit} {name : String}

theorem edit_of_changesActivity (changes : r.ChangesActivity e) :
    ∃ name, e = .activity name ∧ r.edit e = { activity := some name } := by
  obtain ⟨name, rfl, other⟩ := changes
  exact ⟨name, rfl, if_neg other⟩

theorem edit_of_changesObjectType (changes : r.ChangesObjectType e) :
    ∃ name, e = .objectType name ∧
      r.edit e = { activity := r.activity, objectType := some name } := by
  obtain ⟨name, rfl, other⟩ := changes
  exact ⟨name, rfl, if_neg other⟩

/-- The activity at hand is chosen again. -/
theorem edit_sameActivity (quiet : ¬ r.ChangesActivity (.activity name)) :
    r.edit (.activity name) = r ∧ r.activity = some name := by
  have same : r.activity = some name := by
    by_contra other
    exact quiet ⟨name, rfl, other⟩
  exact ⟨if_pos same, same⟩

/-- The object type at hand is chosen again. -/
theorem edit_sameObjectType (quiet : ¬ r.ChangesObjectType (.objectType name)) :
    r.edit (.objectType name) = r ∧ r.objectType = some name := by
  have same : r.objectType = some name := by
    by_contra other
    exact quiet ⟨name, rfl, other⟩
  exact ⟨if_pos same, same⟩

end Edit

/-- A field that an edit resets if it changes the rule, and chooses or keeps otherwise. -/
structure Follows {α : Type} (changes : RelationRule → RuleEdit → Prop) (field : RelationRule → α)
    (choice : RuleEdit → Option α) (blank : α) : Prop where
  empty : field {} = blank
  reset : ∀ r e, changes r e → field (r.edit e) = blank
  chosen : ∀ r e, ¬ changes r e → field (r.edit e) = (choice e).getD (field r)

theorem follows_activity :
    Follows (fun _ _ => False) activity RuleEdit.activity? none where
  empty := rfl
  reset _ _ := False.elim
  chosen r e _ := by
    cases e with
    | activity name =>
      show (r.chooseActivity name).activity = some name
      unfold chooseActivity
      split
      case isTrue same => exact same
      case isFalse other => rfl
    | objectType name =>
      show (r.chooseObjectType name).activity = r.activity
      unfold chooseObjectType
      split <;> rfl
    | qualifier | factor | multipliers => rfl

theorem follows_objectType :
    Follows ChangesActivity objectType RuleEdit.objectType? none where
  empty := rfl
  reset r e changes := by
    obtain ⟨name, rfl, restarted⟩ := edit_of_changesActivity changes
    rw [restarted]
  chosen r e quiet := by
    cases e with
    | activity name =>
      rw [(edit_sameActivity quiet).1]
      rfl
    | objectType name =>
      show (r.chooseObjectType name).objectType = some name
      unfold chooseObjectType
      split
      case isTrue same => exact same
      case isFalse other => rfl
    | qualifier | factor | multipliers => rfl

/-- What another activity and another object type both reset. -/
theorem follows_of_target {α : Type} {field : RelationRule → α} {choice : RuleEdit → Option α}
    {blank : α} (reset : ∀ activity objectType,
      field { activity := activity, objectType := objectType } = blank)
    (notActivity : ∀ name, choice (.activity name) = none)
    (notObjectType : ∀ name, choice (.objectType name) = none)
    (qualifier : ∀ r name, field (chooseQualifier r name) =
      (choice (.qualifier name)).getD (field r))
    (factor : ∀ r chosen, field (chooseFactor r chosen) = (choice (.factor chosen)).getD (field r))
    (multipliers : ∀ r attributes, field (chooseMultipliers r attributes) =
      (choice (.multipliers attributes)).getD (field r)) :
    Follows ChangesTarget field choice blank where
  empty := reset none none
  reset r e changes := by
    rcases changes with changes | changes
    · obtain ⟨name, rfl, restarted⟩ := edit_of_changesActivity changes
      rw [restarted, reset]
    · obtain ⟨name, rfl, restarted⟩ := edit_of_changesObjectType changes
      rw [restarted, reset]
  chosen r e quiet := by
    obtain ⟨quietActivity, quietObjectType⟩ := not_or.mp quiet
    cases e with
    | activity name => rw [(edit_sameActivity quietActivity).1, notActivity, Option.getD_none]
    | objectType name =>
      rw [(edit_sameObjectType quietObjectType).1, notObjectType, Option.getD_none]
    | qualifier name => exact qualifier r name
    | factor chosen => exact factor r chosen
    | multipliers attributes => exact multipliers r attributes

theorem follows_qualifier : Follows ChangesTarget qualifier RuleEdit.qualifier? none :=
  follows_of_target (fun _ _ => rfl) (fun _ => rfl) (fun _ => rfl) (fun _ _ => rfl)
    (fun _ _ => rfl) (fun _ _ => rfl)

theorem follows_factor : Follows ChangesTarget factor RuleEdit.factor? none :=
  follows_of_target (fun _ _ => rfl) (fun _ => rfl) (fun _ => rfl) (fun _ _ => rfl)
    (fun _ _ => rfl) (fun _ _ => rfl)

theorem follows_multipliers : Follows ChangesTarget multipliers RuleEdit.multipliers? [] :=
  follows_of_target (fun _ _ => rfl) (fun _ => rfl) (fun _ => rfl) (fun _ _ => rfl)
    (fun _ _ => rfl) (fun _ _ => rfl)

/-- An edit that changes neither the activity nor the object type. -/
theorem edit_of_not_changesTarget {r : RelationRule} {e : RuleEdit} (quiet : ¬ r.ChangesTarget e) :
    (r.edit e).activity = r.activity ∧ (r.edit e).objectType = r.objectType := by
  obtain ⟨quietActivity, quietObjectType⟩ := not_or.mp quiet
  cases e with
  | activity name =>
    rw [(edit_sameActivity quietActivity).1]
    exact ⟨rfl, rfl⟩
  | objectType name =>
    rw [(edit_sameObjectType quietObjectType).1]
    exact ⟨rfl, rfl⟩
  | qualifier | factor | multipliers => exact ⟨rfl, rfl⟩

end RelationRule

/-! ### Rules of both kinds -/

namespace Rule

/-- What a rule holds, laid out as a relation rule. -/
def choices : Rule → RelationRule
  | .event r => { activity := r.activity, factor := r.factor, multipliers := r.multipliers }
  | .relation r => r

/-- The chosen object type, which rules for events lack. -/
def objectType (r : Rule) : Option String := r.choices.objectType

/-- The chosen qualifier, which rules for events lack. -/
def qualifier (r : Rule) : Option String := r.choices.qualifier

/-- A rule in which nothing is chosen yet. -/
inductive Fresh : Rule → Prop where
  | event : Fresh (.event {})
  | relation : Fresh (.relation {})

/-- The edits that a rule has. -/
inductive Has : Rule → RuleEdit → Prop where
  | activity (r : Rule) (name : String) : Has r (.activity name)
  | factor (r : Rule) (chosen : Option EmissionFactor) : Has r (.factor chosen)
  | multipliers (r : Rule) (attributes : List Attribute) : Has r (.multipliers attributes)
  | objectType (r : RelationRule) (name : String) : Has (.relation r) (.objectType name)
  | qualifier (r : RelationRule) (name : Option String) : Has (.relation r) (.qualifier name)

/-- Both rules are for events, or both for relations. -/
inductive SameKind : Rule → Rule → Prop where
  | event (r s : EventRule) : SameKind (.event r) (.event s)
  | relation (r s : RelationRule) : SameKind (.relation r) (.relation s)

variable {r s start : Rule} {e : RuleEdit} {edits : List RuleEdit}

theorem activity_eq (r : Rule) : r.activity = r.choices.activity := by
  cases r <;> rfl

theorem factor_eq (r : Rule) : r.factor = r.choices.factor := by
  cases r <;> rfl

theorem multipliers_eq (r : Rule) : r.multipliers = r.choices.multipliers := by
  cases r <;> rfl

theorem Fresh.choices_eq (fresh : start.Fresh) : start.choices = {} := by
  cases fresh <;> rfl

/-- Rules of both kinds are edited alike. -/
theorem choices_edit? (edited : r.edit? e = some s) : s.choices = r.choices.edit e := by
  cases r with
  | relation r =>
    cases edited
    rfl
  | event r =>
    cases e with
    | activity name =>
      cases edited
      show (Rule.event (r.chooseActivity name)).choices =
        (Rule.event r).choices.chooseActivity name
      unfold EventRule.chooseActivity RelationRule.chooseActivity
      by_cases same : r.activity = some name
      · rw [if_pos same, if_pos (show (Rule.event r).choices.activity = _ from same)]
      · rw [if_neg same, if_neg (show (Rule.event r).choices.activity ≠ _ from same)]
        rfl
    | factor | multipliers =>
      cases edited
      rfl
    | objectType | qualifier => cases edited

theorem SameKind.refl (r : Rule) : SameKind r r := by
  cases r with
  | event r => exact .event r r
  | relation r => exact .relation r r

theorem SameKind.trans {t : Rule} (kind : SameKind r s) (kind' : SameKind s t) : SameKind r t := by
  cases kind with
  | event r s =>
    cases kind' with
    | event _ t => exact .event r t
  | relation r s =>
    cases kind' with
    | relation _ t => exact .relation r t

theorem sameKind_edit? (edited : r.edit? e = some s) : SameKind s r := by
  cases r with
  | relation r =>
    cases edited
    exact .relation _ r
  | event r =>
    obtain ⟨changed, -, rfl⟩ := Option.map_eq_some_iff.mp edited
    exact .event changed r

/-- An edit that a rule has succeeds on every rule of its kind. -/
theorem Has.exists_edit? (has : start.Has e) (kind : SameKind r start) :
    ∃ s, r.edit? e = some s := by
  cases has with
  | factor _ chosen => exact ⟨_, edit?_factor r chosen⟩
  | multipliers _ attributes => exact ⟨_, edit?_multipliers r attributes⟩
  | activity _ name => cases kind <;> exact ⟨_, rfl⟩
  | objectType | qualifier =>
    cases kind
    exact ⟨_, rfl⟩

theorem has_iff : r.Has e ↔ (r.edit? e).isSome = true := by
  constructor
  · intro has
    obtain ⟨s, edited⟩ := has.exists_edit? (.refl r)
    rw [edited, Option.isSome_some]
  · intro edits
    cases e with
    | activity name => exact .activity r name
    | factor chosen => exact .factor r chosen
    | multipliers attributes => exact .multipliers r attributes
    | objectType name =>
      cases r with
      | event => cases edits
      | relation r => exact .objectType r name
    | qualifier name =>
      cases r with
      | event => cases edits
      | relation r => exact .qualifier r name

instance (r : Rule) (e : RuleEdit) : Decidable (r.Has e) := decidable_of_iff _ has_iff.symm

/-- Rules of one kind have the same edits. -/
theorem SameKind.has_iff (kind : SameKind r s) : r.Has e ↔ s.Has e := by
  cases kind <;> constructor <;> intro has <;> cases has <;> constructor

/-- Another activity starts any two rules of one kind afresh alike. -/
theorem edit?_of_changesActivity {name : String} (kind : SameKind r s)
    (changes : r.choices.ChangesActivity (.activity name))
    (changes' : s.choices.ChangesActivity (.activity name)) :
    r.edit? (.activity name) = s.edit? (.activity name) := by
  obtain ⟨_, ⟨⟩, other⟩ := changes
  obtain ⟨_, ⟨⟩, other'⟩ := changes'
  cases kind with
  | event r s =>
    have afresh : r.chooseActivity name = s.chooseActivity name :=
      (if_neg other).trans (if_neg other').symm
    exact congrArg (fun fresh => some (Rule.event fresh)) afresh
  | relation r s =>
    have afresh : r.chooseActivity name = s.chooseActivity name :=
      (if_neg other).trans (if_neg other').symm
    exact congrArg (fun fresh => some (Rule.relation fresh)) afresh

/-! ### Histories -/

/-- The rule after some edits, one after the other. -/
def editAll? (r : Rule) (edits : List RuleEdit) : Option Rule := edits.foldlM edit? r

theorem editAll?_append (r : Rule) (before after : List RuleEdit) :
    r.editAll? (before ++ after) = (r.editAll? before).bind (·.editAll? after) :=
  List.foldlM_append

theorem editAll?_cons (r : Rule) (e : RuleEdit) (rest : List RuleEdit) :
    r.editAll? (e :: rest) = (r.edit? e).bind (·.editAll? rest) :=
  List.foldlM_cons

/-- A history that ends with an edit. -/
theorem editAll?_concat_eq_some_iff :
    start.editAll? (edits ++ [e]) = some s ↔
      ∃ r, start.editAll? edits = some r ∧ r.edit? e = some s := by
  rw [editAll?_append, Option.bind_eq_some_iff]
  refine exists_congr fun r => and_congr_right fun _ => ?_
  rw [editAll?_cons]
  exact Eq.congr_left (Option.bind_fun_some (r.edit? e))

theorem sameKind_editAll? (reached : start.editAll? edits = some r) : SameKind r start := by
  induction edits using List.reverseRecOn generalizing r with
  | nil =>
    cases reached
    exact .refl start
  | append_singleton edits e ih =>
    obtain ⟨met, reachedMet, edited⟩ := editAll?_concat_eq_some_iff.mp reached
    exact (sameKind_edit? edited).trans (ih reachedMet)

theorem exists_editAll? (has : ∀ e ∈ edits, start.Has e) : ∃ r, start.editAll? edits = some r := by
  induction edits using List.reverseRecOn with
  | nil => exact ⟨start, rfl⟩
  | append_singleton edits e ih =>
    obtain ⟨met, reached⟩ := ih fun d mem => has d (List.mem_append_left _ mem)
    obtain ⟨s, edited⟩ := (has e (by simp)).exists_edit? (sameKind_editAll? reached)
    exact ⟨s, editAll?_concat_eq_some_iff.mpr ⟨met, reached, edited⟩⟩

/-- The edit between `before` and `after` changes the rule that it meets. -/
def ChangedAt (changes : RelationRule → RuleEdit → Prop) (start : Rule)
    (edits before : List RuleEdit) (e : RuleEdit) (after : List RuleEdit) : Prop :=
  edits = before ++ e :: after ∧ ∃ met, start.editAll? before = some met ∧ changes met.choices e

/-- The edits behind the last one that changes the rule it meets; all of them if there is none. -/
inductive Since (changes : RelationRule → RuleEdit → Prop) (start : Rule)
    (edits : List RuleEdit) : List RuleEdit → Prop where
  | start (none : ∀ before e after, ¬ ChangedAt changes start edits before e after) :
      Since changes start edits edits
  | last {before : List RuleEdit} {e : RuleEdit} {since : List RuleEdit}
      (changed : ChangedAt changes start edits before e since)
      (least : ∀ before e after, ChangedAt changes start edits before e after →
        since.length ≤ after.length) :
      Since changes start edits since

/-- What the last edit of a kind chooses, if there is one. -/
def lastChoice {α : Type} (choice : RuleEdit → Option α) (blank : α) (edits : List RuleEdit) : α :=
  (edits.reverse.findSome? choice).getD blank

section Since

variable {changes : RelationRule → RuleEdit → Prop} {before after since since' : List RuleEdit}
  {d : RuleEdit}

theorem ChangedAt.concat (changed : ChangedAt changes start edits before d after) (e : RuleEdit) :
    ChangedAt changes start (edits ++ [e]) before d (after ++ [e]) := by
  obtain ⟨rfl, met⟩ := changed
  exact ⟨by rw [List.append_assoc, List.cons_append], met⟩

/-- A change in a longer history is the last edit, or a change before. -/
theorem changedAt_concat_iff :
    ChangedAt changes start (edits ++ [e]) before d after ↔
      (before = edits ∧ d = e ∧ after = [] ∧
        ∃ met, start.editAll? edits = some met ∧ changes met.choices e) ∨
      ∃ rest, after = rest ++ [e] ∧ ChangedAt changes start edits before d rest := by
  constructor
  · rintro ⟨split, met⟩
    cases after using List.reverseRecOn with
    | nil =>
      obtain ⟨rfl, same⟩ := List.append_inj' split rfl
      cases same
      exact .inl ⟨rfl, rfl, rfl, met⟩
    | append_singleton rest last =>
      rw [← List.cons_append, ← List.append_assoc] at split
      obtain ⟨rfl, same⟩ := List.append_inj' split rfl
      cases same
      exact .inr ⟨rest, rfl, rfl, met⟩
  · rintro (⟨rfl, rfl, rfl, met⟩ | ⟨rest, rfl, changed⟩)
    · exact ⟨rfl, met⟩
    · exact changed.concat e

/-- An edit that changes the rule leaves nothing behind it. -/
theorem Since.of_changes (reached : start.editAll? edits = some r) (changed : changes r.choices e) :
    Since changes start (edits ++ [e]) [] :=
  .last ⟨rfl, r, reached, changed⟩ fun _ _ _ _ => Nat.zero_le _

/-- Any other edit is one more behind the last change. -/
theorem Since.concat (since_edits : Since changes start edits since)
    (reached : start.editAll? edits = some r) (quiet : ¬ changes r.choices e) :
    Since changes start (edits ++ [e]) (since ++ [e]) := by
  have earlier : ∀ {before d after}, ChangedAt changes start (edits ++ [e]) before d after →
      ∃ rest, after = rest ++ [e] ∧ ChangedAt changes start edits before d rest := by
    intro before d after changed
    rcases changedAt_concat_iff.mp changed with ⟨-, -, -, met, reachedMet, changesMet⟩ | earlier
    · cases reached.symm.trans reachedMet
      exact absurd changesMet quiet
    · exact earlier
  cases since_edits with
  | start none =>
    refine .start fun before d after changed => ?_
    obtain ⟨rest, -, changed⟩ := earlier changed
    exact none _ _ _ changed
  | last changed least =>
    refine .last (changed.concat e) fun before d after other => ?_
    obtain ⟨rest, rfl, changedBefore⟩ := earlier other
    rw [List.length_append, List.length_append]
    exact Nat.add_le_add_right (least _ _ _ changedBefore) _

theorem Since.unique (one : Since changes start edits since)
    (two : Since changes start edits since') : since = since' := by
  cases one with
  | start none =>
    cases two with
    | start => rfl
    | last changed => exact absurd changed (none _ _ _)
  | last changed least =>
    cases two with
    | start none => exact absurd changed (none _ _ _)
    | last changed' least' =>
      have lengths := Nat.le_antisymm (least _ _ _ changed') (least' _ _ _ changed)
      have tails := List.append_inj_right' (changed.1.symm.trans changed'.1)
        (by rw [List.length_cons, List.length_cons, lengths])
      exact (List.cons.inj tails).2

end Since

theorem lastChoice_concat {α : Type} (choice : RuleEdit → Option α) (blank : α)
    (edits : List RuleEdit) (e : RuleEdit) :
    lastChoice choice blank (edits ++ [e]) =
      (choice e).getD (lastChoice choice blank edits) := by
  unfold lastChoice
  rw [List.reverse_append, List.reverse_singleton, List.singleton_append, List.findSome?_cons]
  cases choice e <;> rfl

end Rule

open Rule

/-- A field that edits reset, choose or keep is what was chosen last since the last reset. -/
theorem RelationRule.Follows.eq_lastChoice {α : Type}
    {changes : RelationRule → RuleEdit → Prop} {field : RelationRule → α}
    {choice : RuleEdit → Option α} {blank : α} (follows : Follows changes field choice blank)
    {start r : Rule} (fresh : start.Fresh) {edits : List RuleEdit}
    (reached : start.editAll? edits = some r) :
    ∃ since, Since changes start edits since ∧
      field r.choices = lastChoice choice blank since := by
  induction edits using List.reverseRecOn generalizing r with
  | nil =>
    cases reached
    refine ⟨[], .start fun before e after changed => ?_, ?_⟩
    · exact absurd changed.1.symm (List.append_ne_nil_of_right_ne_nil _ (List.cons_ne_nil _ _))
    · rw [fresh.choices_eq, follows.empty]
      rfl
  | append_singleton edits e ih =>
    obtain ⟨met, reachedMet, edited⟩ := editAll?_concat_eq_some_iff.mp reached
    obtain ⟨since, since_edits, held⟩ := ih reachedMet
    rw [choices_edit? edited]
    by_cases changed : changes met.choices e
    · exact ⟨[], .of_changes reachedMet changed, follows.reset _ _ changed⟩
    · refine ⟨since ++ [e], since_edits.concat reachedMet changed, ?_⟩
      rw [follows.chosen _ _ changed, held, lastChoice_concat]

namespace Rule

/-- The factor was chosen by an edit that met the activity and the object type at hand, and no
edit behind it chooses a factor. -/
structure FactorChosen (start : Rule) (edits : List RuleEdit) (r : Rule) (f : EmissionFactor)
    (before after : List RuleEdit) (met : Rule) : Prop where
  split : edits = before ++ .factor (some f) :: after
  reached : start.editAll? before = some met
  sameActivity : met.activity = r.activity
  sameObjectType : met.objectType = r.objectType
  last : ∀ e ∈ after, e.factor? = none

/-- What a rule holds after a history of edits. -/
structure Settled (start : Rule) (edits : List RuleEdit) (r : Rule) : Prop where
  /-- The activity is the last one that was chosen. -/
  activity : r.activity = lastChoice RuleEdit.activity? none edits
  /-- The object type is the last one that was chosen since the activity changed. -/
  objectType : ∃ since, Since RelationRule.ChangesActivity start edits since ∧
    r.objectType = lastChoice RuleEdit.objectType? none since
  /-- All else is what was chosen last since the activity or the object type changed. -/
  rest : ∃ since, Since RelationRule.ChangesTarget start edits since ∧
    r.qualifier = lastChoice RuleEdit.qualifier? none since ∧
    r.factor = lastChoice RuleEdit.factor? none since ∧
    r.multipliers = lastChoice RuleEdit.multipliers? [] since
  /-- Nothing from before another activity is left. -/
  forgotten : ∀ before name after,
    ChangedAt RelationRule.ChangesActivity start edits before (.activity name) after →
    start.editAll? (.activity name :: after) = some r
  /-- A rule that lacks nothing has a factor that was chosen for its activity and object type. -/
  factorChosen : r.isEmpty = false →
    ∃ f before after met, r.factor = some f ∧ FactorChosen start edits r f before after met

variable {r start : Rule} {edits : List RuleEdit}

/-- One more edit that chooses no factor and keeps the activity and the object type. -/
theorem FactorChosen.concat {s met : Rule} {f : EmissionFactor} {before after : List RuleEdit}
    {e : RuleEdit} (chosen : FactorChosen start edits r f before after met)
    (other : e.factor? = none) (sameActivity : r.activity = s.activity)
    (sameObjectType : r.objectType = s.objectType) :
    FactorChosen start (edits ++ [e]) s f before (after ++ [e]) met where
  split := by rw [chosen.split, List.append_assoc, List.cons_append]
  reached := chosen.reached
  sameActivity := chosen.sameActivity.trans sameActivity
  sameObjectType := chosen.sameObjectType.trans sameObjectType
  last d mem := by
    rcases List.mem_append.mp mem with earlier | last
    · exact chosen.last d earlier
    · rwa [List.mem_singleton.mp last]

theorem activity_eq_lastChoice (fresh : start.Fresh) (reached : start.editAll? edits = some r) :
    r.activity = lastChoice RuleEdit.activity? none edits := by
  obtain ⟨since, since_edits, held⟩ :=
    RelationRule.follows_activity.eq_lastChoice fresh reached
  cases since_edits with
  | start => rw [activity_eq, held]
  | last changed => exact changed.2.elim fun _ changed => changed.2.elim

/-- From another activity on, a history is that of a fresh rule. -/
theorem editAll?_of_changedAt (fresh : start.Fresh) (reached : start.editAll? edits = some r)
    {before after : List RuleEdit} {name : String}
    (changed : ChangedAt RelationRule.ChangesActivity start edits before (.activity name) after) :
    start.editAll? (.activity name :: after) = some r := by
  obtain ⟨rfl, met, reachedMet, changes⟩ := changed
  have first : start.choices.ChangesActivity (.activity name) := by
    rw [fresh.choices_eq]
    exact ⟨name, rfl, nofun⟩
  rw [editAll?_append, reachedMet, Option.bind_some, editAll?_cons,
    edit?_of_changesActivity (sameKind_editAll? reachedMet) changes first] at reached
  rw [editAll?_cons, reached]

theorem factorChosen_of_factor (fresh : start.Fresh) (reached : start.editAll? edits = some r)
    {f : EmissionFactor} (chosen : r.factor = some f) :
    ∃ before after met, FactorChosen start edits r f before after met := by
  induction edits using List.reverseRecOn generalizing r with
  | nil =>
    cases reached
    cases fresh <;> cases chosen
  | append_singleton edits e ih =>
    obtain ⟨met, reachedMet, edited⟩ := editAll?_concat_eq_some_iff.mp reached
    have afterEdit := choices_edit? edited
    rw [factor_eq, afterEdit] at chosen
    by_cases changed : met.choices.ChangesTarget e
    · rw [RelationRule.follows_factor.reset _ _ changed] at chosen
      cases chosen
    · obtain ⟨activity, objectType⟩ := RelationRule.edit_of_not_changesTarget changed
      rw [RelationRule.follows_factor.chosen _ _ changed] at chosen
      have sameActivity : met.activity = r.activity := by
        rw [activity_eq, activity_eq, afterEdit, activity]
      have sameObjectType : met.objectType = r.objectType := by
        rw [Rule.objectType, Rule.objectType, afterEdit, objectType]
      cases e with
      | factor choice =>
        cases chosen
        exact ⟨edits, [], met, rfl, reachedMet, sameActivity, sameObjectType, nofun⟩
      | activity | objectType | qualifier | multipliers =>
        obtain ⟨before, after, whenChosen, earlier⟩ := ih reachedMet ((factor_eq met).trans chosen)
        exact ⟨before, after ++ [_], whenChosen,
          earlier.concat rfl sameActivity sameObjectType⟩

/-- The fields of a rule that lacks nothing include a factor. -/
theorem exists_factor_of_isEmpty_eq_false (full : r.isEmpty = false) : ∃ f, r.factor = some f := by
  cases held : r.factor with
  | some f => exact ⟨f, rfl⟩
  | none =>
    unfold isEmpty at full
    rw [held, Option.all_none, Bool.or_true] at full
    cases full

/-- A rule that starts fresh takes all edits that its kind has, and holds what they chose last. -/
theorem settled_of_edits (fresh : start.Fresh) (has : ∀ e ∈ edits, start.Has e) :
    ∃ r, start.editAll? edits = some r ∧ Settled start edits r := by
  obtain ⟨r, reached⟩ := exists_editAll? has
  obtain ⟨sinceActivity, sinceActivity_edits, objectType⟩ :=
    RelationRule.follows_objectType.eq_lastChoice fresh reached
  obtain ⟨since, since_edits, qualifier⟩ :=
    RelationRule.follows_qualifier.eq_lastChoice fresh reached
  obtain ⟨_, forFactor, factor⟩ := RelationRule.follows_factor.eq_lastChoice fresh reached
  obtain ⟨_, forMultipliers, multipliers⟩ :=
    RelationRule.follows_multipliers.eq_lastChoice fresh reached
  cases since_edits.unique forFactor
  cases since_edits.unique forMultipliers
  refine ⟨r, reached, ?_⟩
  constructor
  case activity => exact activity_eq_lastChoice fresh reached
  case objectType => exact ⟨sinceActivity, sinceActivity_edits, objectType⟩
  case rest =>
    exact ⟨since, since_edits, qualifier, (factor_eq r).trans factor,
      (multipliers_eq r).trans multipliers⟩
  case forgotten => exact fun _ _ _ changed => editAll?_of_changedAt fresh reached changed
  case factorChosen =>
    intro full
    obtain ⟨f, chosen⟩ := exists_factor_of_isEmpty_eq_false full
    obtain ⟨before, after, met, earlier⟩ := factorChosen_of_factor fresh reached chosen
    exact ⟨f, before, after, met, chosen, earlier⟩

/-- Choices for shipping are dropped when loading is chosen, and those for boxes when pallets are.
Choosing the activity or the object type at hand again drops nothing. -/
def reselection : List RuleEdit :=
  [.activity "ship", .objectType "box", .qualifier (some "shipped"),
    .factor (some (.external (some "road") none)), .activity "load", .objectType "box",
    .multipliers [.event "load" "weight"], .objectType "pallet", .activity "load",
    .factor (some (.external (some "fork lift") none)), .objectType "pallet"]

/-- The factor at hand was chosen for loading pallets. -/
theorem reselection_settled :
    Fresh (.relation {}) ∧ (∀ e ∈ reselection, Has (.relation {}) e) ∧
      ∃ r, editAll? (.relation {}) reselection = some r ∧
        Settled (.relation {}) reselection r ∧ r.isEmpty = false ∧
        r = .relation
          { activity := some "load"
            objectType := some "pallet"
            factor := some (.external (some "fork lift") none) } := by
  have has : ∀ e ∈ reselection, Has (.relation {}) e := by
    intro e mem
    cases e with
    | activity name => exact .activity _ name
    | objectType name => exact .objectType _ name
    | qualifier name => exact .qualifier _ name
    | factor chosen => exact .factor _ chosen
    | multipliers attributes => exact .multipliers _ attributes
  obtain ⟨r, reached, settled⟩ := settled_of_edits .relation has
  have last : editAll? (.relation {}) reselection = some (.relation
      { activity := some "load"
        objectType := some "pallet"
        factor := some (.external (some "fork lift") none) }) := by
    decide
  obtain rfl := Option.some.inj (reached.symm.trans last)
  exact ⟨.relation, has, _, reached, settled, by decide, rfl⟩

end Rule

end Footprint
