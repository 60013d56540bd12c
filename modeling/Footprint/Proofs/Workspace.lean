import Footprint.Proofs.Attribute.History
import Footprint.Proofs.Rule.History
import Footprint.Proofs.Session.Reload
import Footprint.Proofs.Session.Saved
import Footprint.Workspace

/-!
What a workspace keeps.

A host reconciles and assigns, adds and edits rules, saves and loads in any order, and an operation
that fails leaves the workspace as it was. The three parts of a workspace hardly meet: only loading
changes bindings and rules together, and only saving changes the saved text.

* `Workspace.step?_eq_none_iff`: which operations fail.
* `Workspace.Sound.run`: no attribute is ever bound twice, and what was saved are distinct bindings
  and complete rules.
* `Workspace.keeps_of_run`: until the next load the bindings are those of the assignments alone, and
  each rule is what the edits of its own place make of it; until the next saving the text stays.
* `Workspace.loads_saved`: so loading brings back what was saved last, whatever was done since.
-/

namespace Footprint

/-- An operation on a workspace. -/
inductive WorkspaceStep where
  | reconcile (log : List Descriptor)
  | assign (a : Attribute) (unit : Option MeasureUnit)
  | addRule (r : Rule)
  | editRule (place : Nat) (e : RuleEdit)
  | save (allocation : Json.Value)
  /-- Load a text, or what was saved last. -/
  | load (text : Option String) (log : List Descriptor)

namespace WorkspaceStep

/-- Whether bindings and rules are replaced by those of a text. -/
def isLoad : WorkspaceStep → Bool
  | .load .. => true
  | _ => false

/-- Whether another text is saved. -/
def isSave : WorkspaceStep → Bool
  | .save _ => true
  | _ => false

/-- What is done to the bindings. -/
def bindingEdit? : WorkspaceStep → Option Bindings.Edit
  | .reconcile log => some (.reconcile log)
  | .assign a unit => some (.assign a unit)
  | _ => none

/-- What is done to the rule at a place. -/
def ruleEdit? (place : Nat) : WorkspaceStep → Option RuleEdit
  | .editRule there e => if there = place then some e else none
  | _ => none

@[simp] theorem ruleEdit?_self (place : Nat) (e : RuleEdit) :
    (editRule place e).ruleEdit? place = some e :=
  if_pos rfl

theorem ruleEdit?_of_ne {there place : Nat} (other : there ≠ place) (e : RuleEdit) :
    (editRule there e).ruleEdit? place = none :=
  if_neg other

end WorkspaceStep

/-! ### Edits that a rule lacks -/

namespace Rule

variable {r met last : Rule} {e : RuleEdit} {before after : List RuleEdit}

/-- What some edits make of a rule if those that it lacks are left out. -/
def Takes (r : Rule) (edits : List RuleEdit) (edited : Rule) : Prop :=
  r.editAll? (edits.filter fun e => r.Has e) = some edited

theorem Takes.nil (r : Rule) : r.Takes [] r := rfl

theorem Takes.of_edit? (edits : r.edit? e = some met) : r.Takes [e] met := by
  have has : r.Has e := has_iff.mpr (by rw [edits, Option.isSome_some])
  rw [Takes, List.filter_cons_of_pos (by simpa using has), List.filter_nil, editAll?_cons, edits]
  rfl

theorem Takes.of_lacks (lacks : ¬ r.Has e) : r.Takes [e] r := by
  rw [Takes, List.filter_cons_of_neg (by simpa using lacks)]
  rfl

/-- A rule stays of its kind, so it has the same edits all along. -/
theorem Takes.append (first : r.Takes before met) (rest : met.Takes after last) :
    r.Takes (before ++ after) last := by
  have same : (fun e => decide (met.Has e)) = fun e => decide (r.Has e) :=
    funext fun e => decide_eq_decide.mpr (sameKind_editAll? first).has_iff
  rw [Takes, same] at rest
  rw [Takes, List.filter_append, editAll?_append, first, Option.bind_some, rest]

end Rule

namespace Workspace

/-! ### Operations -/

/-- The workspace after an operation, if it succeeds. -/
def step? (w : Workspace) : WorkspaceStep → Option Workspace
  | .reconcile log => some { w with bindings := w.bindings.reconcile log }
  | .assign a unit => (w.assign a unit).toOption
  | .addRule r => some (w.addRule r)
  | .editRule place e => w.editRule? place e
  | .save allocation => some (w.save allocation)
  | .load text log => (w.load (text.getD w.saved) log).toOption.map (·.1)

/-- The workspace after an operation; one that fails leaves it as it was. -/
def step (w : Workspace) (s : WorkspaceStep) : Workspace := (w.step? s).getD w

/-- The workspace after some operations, one after the other. -/
def run (w : Workspace) (steps : List WorkspaceStep) : Workspace := steps.foldl step w

variable {w next : Workspace} {s : WorkspaceStep} {steps : List WorkspaceStep} {place : Nat}
  {r : Rule}

/-- What an operation does when it succeeds: `w.Moves s next` when `s` takes `w` to `next`. -/
inductive Moves (w : Workspace) : WorkspaceStep → Workspace → Prop where
  | reconcile (log : List Descriptor) :
      Moves w (.reconcile log) { w with bindings := w.bindings.reconcile log }
  | assign {a : Attribute} {unit : Option MeasureUnit} {changed : Bindings}
      (done : w.bindings.assign a unit = .ok changed) :
      Moves w (.assign a unit) { w with bindings := changed }
  | addRule (r : Rule) : Moves w (.addRule r) { w with rules := w.rules ++ [r] }
  | editRule {place : Nat} {e : RuleEdit} {r edited : Rule} (found : w.rules[place]? = some r)
      (edits : r.edit? e = some edited) :
      Moves w (.editRule place e) { w with rules := w.rules.set place edited }
  | save (allocation : Json.Value) : Moves w (.save allocation)
      { w with saved := (Session.snapshot w.bindings w.rules allocation).text }
  | load {text : Option String} {read : Session} (log : List Descriptor)
      (parsed : Session.parse (text.getD w.saved) = .ok read) :
      Moves w (.load text log)
        { w with bindings := read.bindings.reconcile log, rules := read.rules }

theorem editRule?_eq {e : RuleEdit} (found : w.rules[place]? = some r) :
    w.editRule? place e =
      (r.edit? e).map fun edited => { w with rules := w.rules.set place edited } := by
  unfold editRule?
  rw [found, Option.map_eq_bind]
  rfl

theorem editRule?_eq_none {e : RuleEdit} (missing : w.rules[place]? = none) :
    w.editRule? place e = none := by
  unfold editRule?
  rw [missing]
  rfl

theorem load_of_parse {text : String} {read : Session} {log : List Descriptor}
    (parsed : Session.parse text = .ok read) :
    (w.load text log).toOption.map (·.1) =
      some { w with bindings := read.bindings.reconcile log, rules := read.rules } := by
  unfold load
  rw [Session.load_of_parse parsed]
  rfl

theorem load_of_not_parse {text : String} {e : Error} {log : List Descriptor}
    (failed : Session.parse text = .error e) : (w.load text log).toOption.map (·.1) = none := by
  unfold load Session.load
  rw [failed]
  rfl

theorem step?_of_moves (moves : w.Moves s next) : w.step? s = some next := by
  cases moves with
  | reconcile | addRule | save => rfl
  | @assign a unit changed done =>
    show (w.assign a unit).toOption = _
    unfold assign
    rw [done]
    rfl
  | editRule found edits =>
    rw [step?, editRule?_eq found, edits]
    rfl
  | load log parsed => exact load_of_parse parsed

/-- Which operations fail. -/
inductive Fails (w : Workspace) : WorkspaceStep → Prop where
  | assign {a : Attribute} (unit : Option MeasureUnit) (unbound : a ∉ w.bindings.subjects) :
      Fails w (.assign a unit)
  | noRule {place : Nat} (e : RuleEdit) (missing : w.rules.length ≤ place) :
      Fails w (.editRule place e)
  | lacks {place : Nat} {r : Rule} {e : RuleEdit} (found : w.rules[place]? = some r)
      (lacks : ¬ r.Has e) : Fails w (.editRule place e)
  | unreadable {text : Option String} (log : List Descriptor)
      (unreadable : ¬ Session.Opens (text.getD w.saved)) : Fails w (.load text log)

/-- An operation does one thing, or fails for one of the listed reasons. -/
theorem moves_or_fails (w : Workspace) (s : WorkspaceStep) :
    (∃ next, w.Moves s next) ∨ w.Fails s := by
  cases s with
  | reconcile log => exact .inl ⟨_, .reconcile log⟩
  | addRule r => exact .inl ⟨_, .addRule r⟩
  | save allocation => exact .inl ⟨_, .save allocation⟩
  | assign a unit =>
    by_cases bound : a ∈ w.bindings.subjects
    · obtain ⟨changed, done⟩ := (Bindings.assign_succeeds_iff unit).mpr bound
      exact .inl ⟨_, .assign done⟩
    · exact .inr (.assign unit bound)
  | editRule place e =>
    cases found : w.rules[place]? with
    | none => exact .inr (.noRule e (List.getElem?_eq_none_iff.mp found))
    | some r =>
      by_cases has : r.Has e
      · obtain ⟨edited, edits⟩ := has.exists_edit? (.refl r)
        exact .inl ⟨_, .editRule found edits⟩
      · exact .inr (.lacks found has)
  | load text log =>
    by_cases opens : Session.Opens (text.getD w.saved)
    · obtain ⟨read, parsed⟩ := opens
      exact .inl ⟨_, .load log parsed⟩
    · exact .inr (.unreadable log opens)

theorem step?_of_fails (fails : w.Fails s) : w.step? s = none := by
  cases fails with
  | @assign a unit unbound =>
    cases result : w.bindings.assign a unit with
    | ok changed => exact absurd ((Bindings.assign_succeeds_iff unit).mp ⟨_, result⟩) unbound
    | error e =>
      show (w.assign a unit).toOption = none
      unfold assign
      rw [result]
      rfl
  | noRule e missing => exact editRule?_eq_none (List.getElem?_eq_none missing)
  | @lacks place r e found lacks =>
    rw [step?, editRule?_eq found, Option.map_eq_none_iff, ← Option.not_isSome_iff_eq_none]
    exact fun edits => lacks (Rule.has_iff.mpr edits)
  | @unreadable text log unreadable =>
    cases parsed : Session.parse (text.getD w.saved) with
    | ok read => exact absurd ⟨read, parsed⟩ unreadable
    | error e => exact load_of_not_parse parsed

theorem step?_eq_some_iff : w.step? s = some next ↔ w.Moves s next := by
  constructor
  · intro done
    rcases moves_or_fails w s with ⟨other, moves⟩ | fails
    · cases done.symm.trans (step?_of_moves moves)
      exact moves
    · cases done.symm.trans (step?_of_fails fails)
  · exact step?_of_moves

theorem step?_eq_none_iff : w.step? s = none ↔ w.Fails s := by
  constructor
  · intro failed
    rcases moves_or_fails w s with ⟨next, moves⟩ | fails
    · cases failed.symm.trans (step?_of_moves moves)
    · exact fails
  · exact step?_of_fails

/-- An operation is carried out, or it fails and changes nothing. -/
theorem moves_or_stays (w : Workspace) (s : WorkspaceStep) :
    w.Moves s (w.step s) ∨ w.Fails s ∧ w.step s = w := by
  unfold step
  rcases moves_or_fails w s with ⟨next, moves⟩ | fails
  · rw [step?_of_moves moves]
    exact .inl moves
  · rw [step?_of_fails fails]
    exact .inr ⟨fails, rfl⟩

/-- What every operation of a run keeps holds at its end. -/
theorem run_induction {P : Workspace → Prop} (start : P w)
    (kept : ∀ m, ∀ s ∈ steps, ∀ next, P m → m.Moves s next → P next) : P (w.run steps) := by
  induction steps generalizing w with
  | nil => exact start
  | cons s rest ih =>
    refine ih ?_ fun m s mem => kept m s (List.mem_cons_of_mem _ mem)
    rcases moves_or_stays w s with moves | ⟨-, stays⟩
    · exact kept w s List.mem_cons_self _ start moves
    · rwa [stays]

/-! ### What is never lost -/

/-- No attribute is bound twice, and if anything was saved it was a session with distinct bindings
and complete rules. -/
structure Sound (w : Workspace) : Prop where
  distinct : w.bindings.Distinct
  saved : w.saved = "" ∨ ∃ session : Session, w.saved = session.text ∧
    session.bindings.Distinct ∧ ∀ r ∈ session.rules, r.isEmpty = false

theorem sound_empty : Sound {} := ⟨List.nodup_nil, .inl rfl⟩

theorem isEmpty_of_mem_complete {rules : List Rule} (mem : r ∈ Rule.complete rules) :
    r.isEmpty = false := by
  simpa using (List.mem_filter.mp mem).2

theorem Sound.moves (sound : w.Sound) (moves : w.Moves s next) : next.Sound := by
  cases moves with
  | reconcile log => exact ⟨Bindings.distinct_reconcile w.bindings log, sound.saved⟩
  | assign done =>
    refine ⟨?_, sound.saved⟩
    show (Bindings.subjects _).Nodup
    rw [Bindings.subjects_of_assign done]
    exact sound.distinct
  | addRule | editRule => exact ⟨sound.distinct, sound.saved⟩
  | save allocation =>
    exact ⟨sound.distinct, .inr ⟨_, rfl, sound.distinct, fun _ => isEmpty_of_mem_complete⟩⟩
  | @load _ read log => exact ⟨Bindings.distinct_reconcile read.bindings log, sound.saved⟩

theorem Sound.run (sound : w.Sound) (steps : List WorkspaceStep) : (w.run steps).Sound :=
  run_induction sound fun _ _ _ _ sound moves => sound.moves moves

/-! ### What each part depends on -/

theorem bindings_step (noLoad : s.isLoad = false) :
    (w.step s).bindings = w.bindings.editAll s.bindingEdit?.toList := by
  rcases moves_or_stays w s with moves | ⟨fails, stays⟩
  · generalize w.step s = next at moves
    cases moves with
    | reconcile | addRule | editRule | save => rfl
    | assign done => exact (Bindings.edit_assign_of_ok done).symm
    | load => cases noLoad
  · rw [stays]
    cases fails with
    | assign unit unbound => exact (Bindings.edit_assign_of_not_bound unbound).symm
    | noRule | lacks => rfl
    | unreadable => cases noLoad

theorem bindings_run (noLoad : ∀ s ∈ steps, s.isLoad = false) :
    (w.run steps).bindings = w.bindings.editAll (steps.filterMap (·.bindingEdit?)) := by
  rw [List.filterMap_eq_flatMap_toList]
  induction steps generalizing w with
  | nil => rfl
  | cons s rest ih =>
    show ((w.step s).run rest).bindings = _
    rw [ih fun s mem => noLoad s (List.mem_cons_of_mem _ mem),
      bindings_step (noLoad s List.mem_cons_self), ← Bindings.editAll_append, List.flatMap_cons]

theorem rule_of_moves (moves : w.Moves s next) (noLoad : s.isLoad = false)
    (found : w.rules[place]? = some r) :
    ∃ edited, next.rules[place]? = some edited ∧ r.Takes (s.ruleEdit? place).toList edited := by
  cases moves with
  | reconcile | assign | save => exact ⟨r, found, .nil r⟩
  | addRule other =>
    obtain ⟨inside, -⟩ := List.getElem?_eq_some_iff.mp found
    exact ⟨r, by rw [List.getElem?_append_left inside, found], .nil r⟩
  | @editRule there e _ edited foundThere edits =>
    by_cases here : there = place
    · subst here
      cases found.symm.trans foundThere
      obtain ⟨inside, -⟩ := List.getElem?_eq_some_iff.mp found
      refine ⟨edited, List.getElem?_set_self inside, ?_⟩
      rw [WorkspaceStep.ruleEdit?_self]
      exact .of_edit? edits
    · refine ⟨r, by rw [List.getElem?_set_ne here, found], ?_⟩
      rw [WorkspaceStep.ruleEdit?_of_ne here]
      exact .nil r
  | load => cases noLoad

theorem takes_of_fails (fails : w.Fails s) (found : w.rules[place]? = some r) :
    r.Takes (s.ruleEdit? place).toList r := by
  cases fails with
  | assign | unreadable => exact .nil r
  | @noRule there e missing =>
    have elsewhere : there ≠ place := by
      rintro rfl
      rw [List.getElem?_eq_none missing] at found
      cases found
    rw [WorkspaceStep.ruleEdit?_of_ne elsewhere]
    exact .nil r
  | @lacks there _ e foundThere lacks =>
    by_cases here : there = place
    · subst here
      cases found.symm.trans foundThere
      rw [WorkspaceStep.ruleEdit?_self]
      exact .of_lacks lacks
    · rw [WorkspaceStep.ruleEdit?_of_ne here]
      exact .nil r

/-- The rule at a place after an operation: only an edit of this place counts. -/
theorem rule_step (noLoad : s.isLoad = false) (found : w.rules[place]? = some r) :
    ∃ edited, (w.step s).rules[place]? = some edited ∧
      r.Takes (s.ruleEdit? place).toList edited := by
  rcases moves_or_stays w s with moves | ⟨fails, stays⟩
  · exact rule_of_moves moves noLoad found
  · rw [stays]
    exact ⟨r, found, takes_of_fails fails found⟩

theorem rule_run (noLoad : ∀ s ∈ steps, s.isLoad = false) (found : w.rules[place]? = some r) :
    ∃ edited, (w.run steps).rules[place]? = some edited ∧
      r.Takes (steps.filterMap (·.ruleEdit? place)) edited := by
  rw [List.filterMap_eq_flatMap_toList]
  induction steps generalizing w r with
  | nil => exact ⟨r, found, .nil r⟩
  | cons s rest ih =>
    obtain ⟨first, foundFirst, takes⟩ := rule_step (noLoad s List.mem_cons_self) found
    obtain ⟨edited, foundLast, more⟩ :=
      ih (fun s mem => noLoad s (List.mem_cons_of_mem _ mem)) foundFirst
    exact ⟨edited, foundLast, takes.append more⟩

theorem saved_run (noSave : ∀ s ∈ steps, s.isSave = false) : (w.run steps).saved = w.saved := by
  refine run_induction (P := fun m => m.saved = w.saved) rfl fun m s mem next kept moves => ?_
  cases moves with
  | reconcile | assign | addRule | editRule | load => exact kept
  | save => cases noSave _ mem

/-! ### Whole runs -/

/-- What a run keeps of a workspace. -/
structure Keeps (w : Workspace) (steps : List WorkspaceStep) (reached : Workspace) : Prop where
  sound : w.Sound → reached.Sound
  /-- Without a load the bindings are those of the assignments and logs. -/
  bindings : (∀ s ∈ steps, s.isLoad = false) →
    reached.bindings = w.bindings.editAll (steps.filterMap (·.bindingEdit?))
  /-- Without a load a rule stays at its place, and takes the edits of this place alone. -/
  rules : (∀ s ∈ steps, s.isLoad = false) → ∀ {place} {r : Rule}, w.rules[place]? = some r →
    ∃ edited, reached.rules[place]? = some edited ∧
      r.Takes (steps.filterMap (·.ruleEdit? place)) edited
  /-- Without a saving the saved text stays. -/
  saved : (∀ s ∈ steps, s.isSave = false) → reached.saved = w.saved

theorem keeps_of_run (w : Workspace) (steps : List WorkspaceStep) :
    w.Keeps steps (w.run steps) where
  sound sound := sound.run steps
  bindings := bindings_run
  rules noLoad _ _ := rule_run noLoad
  saved := saved_run

/-- Whatever is done to an empty workspace. -/
example (steps : List WorkspaceStep) : (run {} steps).Sound :=
  (keeps_of_run {} steps).sound sound_empty

/-- Whatever is done after saving, short of saving again, loading brings back the bindings and the
complete rules that were saved. -/
theorem loads_saved {allocation : Json.Value}
    (portable : (Session.snapshot w.bindings w.rules allocation).Portable)
    (noSave : ∀ s ∈ steps, s.isSave = false) (log : List Descriptor) :
    ∃ rules, List.Forall₂ Rule.Same (Rule.complete w.rules) rules ∧
      ((w.save allocation).run steps).step? (.load none log) =
        some ⟨w.bindings.reconcile log, rules, (w.save allocation).saved⟩ := by
  obtain ⟨read, found, same⟩ := Session.ofJson?_toJson portable
  have parsed : Session.parse (w.save allocation).saved = .ok read :=
    Session.parse_of_read? (Json.read?_compact (Session.plain_toJson portable)) found
  have bindings : read.bindings = w.bindings := same.bindings.symm
  refine ⟨read.rules, same.rules, ?_⟩
  have kept : ((w.save allocation).run steps).saved = (w.save allocation).saved := saved_run noSave
  generalize (w.save allocation).run steps = reached at kept
  rw [← kept] at parsed ⊢
  have loads : reached.Moves (.load none log)
      { reached with bindings := read.bindings.reconcile log, rules := read.rules } :=
    .load log parsed
  rw [step?_of_moves loads, bindings]

end Workspace

end Footprint
