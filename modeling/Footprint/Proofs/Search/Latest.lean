import Footprint.Proofs.Search.SingleFlight

/-!
The gate never loses the latest search.

A call changes where it stands only by steps of its own, so a result can be traced back through the
run: to the step that found the call overtaken, or through the answer to the request.

* `Gate.keepsLatest`: in every state that a run of fewer than 2^64 triggers reaches, superseded
  calls were overtaken and have sent nothing, the newest call is not superseded, results of the
  catalog answer requests that were sent by the newest call of their time, and every call has ended
  once no timer, turn or search is left.
-/

namespace Footprint.Gate

variable {ρ ε α : Type}

/-! ### Results -/

section Results

variable {g : Gate (Except ε α)} {call : Nat}

theorem result?_eq_superseded_iff :
    g.result? call = some (.ok .superseded) ↔ g.phase? call = some .superseded := by
  constructor
  · intro returned
    obtain ⟨phase, stands, result⟩ := Option.bind_eq_some_iff.mp returned
    cases phase with
    | superseded => exact stands
    | answered answer => cases answer <;> cases result
    | debouncing | waiting | searching | dropped => cases result
  · intro stands
    rw [result?, stands]
    rfl

theorem result?_eq_answer_iff {answer : Except ε α} :
    g.result? call = some (answer.map .completed) ↔ g.phase? call = some (.answered answer) := by
  constructor
  · intro returned
    obtain ⟨phase, stands, result⟩ := Option.bind_eq_some_iff.mp returned
    cases phase with
    | superseded => cases answer <;> cases result
    | answered given =>
      have same : given = answer := by
        cases given <;> cases answer <;> cases result <;> rfl
      rw [stands, same]
    | debouncing | waiting | searching | dropped => cases result
  · intro stands
    rw [result?, stands]
    rfl

end Results

/-! ### The latest search -/

/-- No timer, no turn and no answer of the catalog is still to come. Of the calls that wait for the
turn, only the first in the queue is asked. -/
def Quiet (g : Gate ρ) : Prop :=
  (∀ call, g.step? (.timer call) = none) ∧
    (∀ call, g.queue.head? = some call → g.step? (.grant call) = none) ∧ g.active = 0

/-- After the steps `before` a call is the newest one, and its turn sends its request. -/
def SendsAfter (before : List (GateStep ρ)) (call : Nat) : Prop :=
  ∃ m sent, Gate.initial.run? before = some m ∧ m.step? (.grant call) = some sent ∧
    sent.requests = m.requests ++ [call] ∧ ∀ newer, ¬ m.Older call newer

/-- What a run owes to its calls. -/
structure KeepsLatest (steps : List (GateStep (Except ε α))) (g : Gate (Except ε α)) : Prop where
  /-- A call was superseded at a step before which a newer one had been triggered, and has sent no
  request. -/
  superseded : ∀ call, g.result? call = some (.ok .superseded) → call ∉ g.requests ∧
    ∃ before s after m next, steps = before ++ s :: after ∧
      Gate.initial.run? before = some m ∧ m.step? s = some next ∧
      m.result? call = none ∧ next.result? call = some (.ok .superseded) ∧
      ∃ newer, m.Older call newer
  /-- The newest call of the run has at no time been superseded. -/
  newest : ∀ call, (∀ other, ¬ g.Older call other) →
    ∀ before after m, steps = before ++ after → Gate.initial.run? before = some m →
      m.result? call ≠ some (.ok .superseded)
  /-- A result of the catalog was its answer to the request of the call, and when the request was
  sent no newer call had been triggered. -/
  answered : ∀ call answer, g.result? call = some (answer.map .completed) →
    ∃ before between after,
      steps = before ++ .grant call :: (between ++ .answer call answer :: after) ∧
      SendsAfter before call
  /-- When nothing is to come, every call has returned, unless it was dropped. -/
  ended : g.Quiet → ∀ call < g.calls.length, g.phase? call = some .dropped ∨
    ∃ result, g.result? call = some result

variable {steps : List (GateStep ρ)} {call : Nat}

/-- Where a call stands at the end of a run is where one of the steps brought it. -/
theorem exists_entering {g : Gate ρ} {phase : Phase ρ} (run : Gate.initial.run? steps = some g)
    (few : triggers steps < 2 ^ 64) (stands : g.phase? call = some phase) :
    ∃ before s after m next, steps = before ++ s :: after ∧
      Gate.initial.run? before = some m ∧ triggers before < 2 ^ 64 ∧ m.step? s = some next ∧
      m.phase? call ≠ some phase ∧ next.phase? call = some phase := by
  obtain ⟨before, s, after, m, next, split, early, step, -, notYet, reached⟩ :=
    exists_first_step (P := fun m => m.phase? call = some phase) run
      (by simp [Gate.initial, phase?]) stands
  have fewer := triggers_append_le before (s :: after)
  rw [← split] at fewer
  exact ⟨before, s, after, m, next, split, early, by omega, step, notYet, reached⟩

/-- The step that superseded a call. -/
theorem exists_overtaken {g : Gate ρ} (run : Gate.initial.run? steps = some g)
    (few : triggers steps < 2 ^ 64) (stands : g.phase? call = some .superseded) :
    ∃ before s after m next phase, steps = before ++ s :: after ∧
      Gate.initial.run? before = some m ∧ m.step? s = some next ∧
      m.phase? call = some phase ∧ phase.isPending = true ∧
      next.phase? call = some .superseded ∧ ∃ newer, m.Older call newer := by
  obtain ⟨before, s, after, m, next, split, early, earlyFew, step, notYet, reached⟩ :=
    exists_entering run few stands
  obtain ⟨stale, phase, atM, pending⟩ := (Moves.of_step? step).overtaken notYet reached
  have newer := (Numbered.of_run? early).exists_newer (length_calls_lt early earlyFew)
    (lt_length_of_phase? atM) stale
  exact ⟨before, s, after, m, next, phase, split, early, step, atM, pending, reached, newer⟩

/-- The step that sent the request of a call that searches. -/
theorem exists_grant {g : Gate ρ} (run : Gate.initial.run? steps = some g)
    (few : triggers steps < 2 ^ 64) (stands : g.phase? call = some .searching) :
    ∃ before after, steps = before ++ .grant call :: after ∧ SendsAfter before call := by
  obtain ⟨before, s, after, m, sent, split, early, earlyFew, step, notYet, reached⟩ :=
    exists_entering run few stands
  obtain ⟨rfl, waits, fresh⟩ := (Moves.of_step? step).searches notYet reached
  have newest := (Numbered.of_run? early).not_older (length_calls_lt early earlyFew)
    (lt_length_of_phase? waits) fresh
  refine ⟨before, after, split, m, sent, early, step, ?_, newest⟩
  rw [(Moves.of_step? step).eq_send fresh, requests_send, requests_leave]

/-- The steps that sent the request of a call and answered it. -/
theorem exists_grant_answer {g : Gate ρ} {answer : ρ} (run : Gate.initial.run? steps = some g)
    (few : triggers steps < 2 ^ 64) (stands : g.phase? call = some (.answered answer)) :
    ∃ before between after,
      steps = before ++ .grant call :: (between ++ .answer call answer :: after) ∧
      SendsAfter before call := by
  obtain ⟨early, s, after, m, next, split, runM, earlyFew, step, notYet, reached⟩ :=
    exists_entering run few stands
  obtain ⟨rfl, searches⟩ := (Moves.of_step? step).ends notYet reached
  obtain ⟨before, between, earlySplit, sends⟩ := exists_grant runM earlyFew searches
  refine ⟨before, between, after, ?_, sends⟩
  rw [split, earlySplit, List.append_assoc, List.cons_append]

theorem phase?_ne_searching_of_idle {g : Gate ρ} (idle : g.active = 0) :
    g.phase? call ≠ some .searching := by
  intro searches
  rw [phase?, ← List.getElem?_map] at searches
  have := List.countP_eq_zero.mp idle .searching (List.mem_of_getElem? searches)
  exact this rfl

/-- When nothing is to come, no call is pending. -/
theorem Quiet.ended {g : Gate ρ} {phase : Phase ρ} (quiet : g.Quiet) (exclusive : g.Exclusive)
    (stands : g.phase? call = some phase) : phase.isPending = false := by
  obtain ⟨noTimer, noTurn, idle⟩ := quiet
  cases phase with
  | debouncing =>
    have none := noTimer call
    simp [step?, stands] at none
  | waiting =>
    have free : g.holder = none := by
      apply Option.eq_none_iff_forall_ne_some.mpr
      intro holder held
      exact phase?_ne_searching_of_idle idle ((exclusive.holder holder).mp held)
    -- The first in the queue waits as well, and the turn is free.
    obtain ⟨first, rest, queue⟩ := List.exists_cons_of_ne_nil
      (List.ne_nil_of_mem ((exclusive.queue call).mpr stands))
    have waits := (exclusive.queue first).mp (by simp [queue])
    have none := noTurn first (by simp [queue])
    simp [step?, waits, free] at none
  | searching => exact absurd stands (phase?_ne_searching_of_idle idle)
  | superseded | answered | dropped => rfl

/-- The gate never loses the latest search, whatever the order of triggers, timers, turns, answers
and drops. -/
theorem keepsLatest (steps : List (GateStep (Except ε α))) (g : Gate (Except ε α))
    (run : Gate.initial.run? steps = some g) (few : triggers steps < 2 ^ 64) :
    g.KeepsLatest steps := by
  have sent := Sent.of_run? run few
  refine { superseded := fun call returned => ?_, newest := fun call newest => ?_,
           answered := fun call answer returned => ?_, ended := fun quiet call known => ?_ }
  · have stands := result?_eq_superseded_iff.mp returned
    obtain ⟨before, s, after, m, next, phase, split, early, step, atM, pending, reached, newer⟩ :=
      exists_overtaken run few stands
    refine ⟨sent.not_mem stands rfl, before, s, after, m, next, split, early,
      step, ?_, result?_eq_superseded_iff.mpr reached, newer⟩
    rw [result?, atM]
    exact Phase.result?_of_isPending pending
  · intro before after m split early returned
    have stands := result?_eq_superseded_iff.mp returned
    have earlyFew := triggers_append_le before after
    rw [← split] at earlyFew
    obtain ⟨first, s, between, m', next, -, firstSplit, runM', step, -, -, -, newer, older⟩ :=
      exists_overtaken early (by omega) stands
    have run' : m'.run? (s :: between ++ after) = some g := by
      rw [split, firstSplit, List.append_assoc, run?_append, runM'] at run
      exact run
    exact newest newer (older.of_run? run')
  · exact exists_grant_answer run few (result?_eq_answer_iff.mp returned)
  · obtain ⟨phase, stands⟩ : ∃ phase, g.phase? call = some phase :=
      ⟨g.calls[call].phase, by simp [phase?, known]⟩
    have ended := quiet.ended (Exclusive.of_run? run) stands
    cases phase with
    | dropped => exact .inl stands
    | superseded => exact .inr ⟨_, result?_eq_superseded_iff.mpr stands⟩
    | answered answer => exact .inr ⟨_, result?_eq_answer_iff.mpr stands⟩
    | debouncing | waiting | searching => cases ended

/-- Two calls in a burst: the first one is superseded, the second one is answered. -/
def burst : List (GateStep (Except String Nat)) :=
  [.trigger, .trigger, .timer 0, .timer 1, .grant 1, .answer 1 (.ok 7)]

theorem burst_keepsLatest : triggers burst < 2 ^ 64 ∧ ∃ g, Gate.initial.run? burst = some g ∧
    g.result? 0 = some (.ok .superseded) ∧ g.result? 1 = some (.ok (.completed 7)) ∧
    g.KeepsLatest burst := by
  have few : triggers burst < 2 ^ 64 := by decide
  have run : Gate.initial.run? burst =
      some ⟨2, [⟨1, .superseded⟩, ⟨2, .answered (.ok 7)⟩], none, [], [1]⟩ := rfl
  exact ⟨few, _, run, rfl, rfl, keepsLatest burst _ run few⟩

end Footprint.Gate
