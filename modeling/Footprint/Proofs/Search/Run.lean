import Footprint.Search.Gate
import Mathlib.Algebra.Group.Nat.Defs

/-!
Runs of the search gate.

`Gate.Moves` lists what a step can do, with what it asks of the gate, and `Gate.Changes` how a call
can change by it. Two ways of reasoning about a run go with them: what every step keeps holds at the
end, and what did not hold at the start was brought about by one step.

* `Gate.step?_eq_some_iff`, `Gate.Moves.changes`: the possible steps and changes are those listed.
* `Gate.run_induction`, `Gate.exists_first_step`: the two ways.
* `Gate.length_calls_of_run?`: there are as many calls as triggers.
* `Gate.Numbered.of_run?`: the calls hold the tickets 1, 2, … of the counter, modulo 2^64.
-/

namespace Footprint

/-- How many calls a run starts. -/
def triggers {ρ : Type} (steps : List (GateStep ρ)) : Nat := steps.countP (·.isTrigger)

namespace Gate

variable {ρ : Type} {g next later : Gate ρ} {s : GateStep ρ} {steps : List (GateStep ρ)}
  {call other : Nat}

/-- What a step does: `g.Moves s next` when `s` takes `g` to `next`. -/
inductive Moves : Gate ρ → GateStep ρ → Gate ρ → Prop where
  | trigger {g : Gate ρ} : Moves g .trigger g.trigger
  | expire {g : Gate ρ} {call : Nat} (debounces : g.phase? call = some .debouncing)
      (stale : g.isOvertaken call = true) : Moves g (.timer call) (g.setPhase call .superseded)
  | wait {g : Gate ρ} {call : Nat} (debounces : g.phase? call = some .debouncing)
      (fresh : g.isOvertaken call = false) : Moves g (.timer call) (g.wait call)
  | yield {g : Gate ρ} {call : Nat} (waits : g.phase? call = some .waiting)
      (free : g.holder = none) (stale : g.isOvertaken call = true) :
      Moves g (.grant call) ((g.leave call).setPhase call .superseded)
  | send {g : Gate ρ} {call : Nat} (waits : g.phase? call = some .waiting)
      (free : g.holder = none) (fresh : g.isOvertaken call = false) :
      Moves g (.grant call) ((g.leave call).send call)
  | answer {g : Gate ρ} {call : Nat} (answer : ρ) (searches : g.phase? call = some .searching) :
      Moves g (.answer call answer) (g.receive call answer)
  | drop {g : Gate ρ} {call : Nat} {phase : Phase ρ} (stands : g.phase? call = some phase)
      (pending : phase.isPending = true) : Moves g (.drop call) (g.cancel call)

theorem Moves.fire (debounces : g.phase? call = some .debouncing) :
    g.Moves (.timer call) (g.fire call) := by
  cases stale : g.isOvertaken call with
  | true =>
    rw [Gate.fire, if_pos stale]
    exact .expire debounces stale
  | false =>
    rw [Gate.fire, if_neg (by simp [stale])]
    exact .wait debounces stale

theorem Moves.enter (waits : g.phase? call = some .waiting) (free : g.holder = none) :
    g.Moves (.grant call) (g.enter call) := by
  cases stale : g.isOvertaken call with
  | true =>
    rw [Gate.enter, if_pos stale]
    exact .yield waits free stale
  | false =>
    rw [Gate.enter, if_neg (by simp [stale])]
    exact .send waits free stale

theorem Moves.of_step? (step : g.step? s = some next) : g.Moves s next := by
  cases s with
  | trigger =>
    cases step
    exact .trigger
  | timer call =>
    simp only [step?] at step
    split at step
    case h_1 debounces =>
      cases step
      exact .fire debounces
    case h_2 => cases step
  | grant call =>
    simp only [step?] at step
    split at step
    case h_1 waits free =>
      cases step
      exact .enter waits free
    case h_2 => cases step
  | answer call answer =>
    simp only [step?] at step
    split at step
    case h_1 searches =>
      cases step
      exact .answer answer searches
    case h_2 => cases step
  | drop call =>
    simp only [step?] at step
    split at step
    case h_1 stands =>
      split at step
      case isTrue pending =>
        cases step
        exact .drop stands pending
      case isFalse => cases step
    case h_2 => cases step

theorem step?_eq_some_iff : g.step? s = some next ↔ g.Moves s next := by
  constructor
  · exact Moves.of_step?
  · intro moves
    cases moves with
    | trigger => rfl
    | expire debounces stale => simp [step?, fire, debounces, stale]
    | wait debounces fresh => simp [step?, fire, debounces, fresh]
    | yield waits free stale => simp [step?, enter, waits, free, stale]
    | send waits free fresh => simp [step?, enter, waits, free, fresh]
    | answer answer searches => simp [step?, searches]
    | drop stands pending => simp [step?, stands, pending]

/-- How a step changes where one call stands. -/
inductive Changes (g : Gate ρ) (call : Nat) :
    GateStep ρ → Option (Phase ρ) → Option (Phase ρ) → Prop where
  | starts : Changes g call .trigger none (some .debouncing)
  | expires (stale : g.isOvertaken call = true) :
      Changes g call (.timer call) (some .debouncing) (some .superseded)
  | waits (fresh : g.isOvertaken call = false) :
      Changes g call (.timer call) (some .debouncing) (some .waiting)
  | yields (stale : g.isOvertaken call = true) :
      Changes g call (.grant call) (some .waiting) (some .superseded)
  | searches (fresh : g.isOvertaken call = false) :
      Changes g call (.grant call) (some .waiting) (some .searching)
  | ends (answer : ρ) :
      Changes g call (.answer call answer) (some .searching) (some (.answered answer))
  | drops {phase : Phase ρ} (pending : phase.isPending = true) :
      Changes g call (.drop call) (some phase) (some .dropped)

theorem Moves.changes_setPhase {phase : Phase ρ} {before : Phase ρ}
    (stands : g.phase? call = some before) (changes : Changes g call s (some before) (some phase)) :
    (g.setPhase call phase).phase? other = g.phase? other ∨
      Changes g other s (g.phase? other) ((g.setPhase call phase).phase? other) := by
  by_cases same : call = other
  · subst same
    rw [phase?_setPhase_self g call phase stands, stands]
    exact .inr changes
  · exact .inl (phase?_setPhase_of_ne g phase same)

/-- A step changes where a call stands as listed, or leaves it. -/
theorem Moves.changes (moves : g.Moves s next) (call : Nat) :
    next.phase? call = g.phase? call ∨ Changes g call s (g.phase? call) (next.phase? call) := by
  cases moves with
  | trigger =>
    rw [phase?_trigger]
    split
    case isTrue last =>
      rw [last, show g.phase? g.calls.length = none by simp [phase?]]
      exact .inr .starts
    case isFalse => exact .inl rfl
  | expire debounces stale => exact changes_setPhase debounces (.expires stale)
  | wait debounces fresh => exact changes_setPhase debounces (.waits fresh)
  | yield waits free stale => exact changes_setPhase waits (.yields stale)
  | send waits free fresh => exact changes_setPhase waits (.searches fresh)
  | answer answer searches => exact changes_setPhase searches (.ends answer)
  | drop stands pending => exact changes_setPhase stands (.drops pending)

theorem Moves.exists_changes_setPhase {phase : Phase ρ} {before : Phase ρ}
    (stands : g.phase? call = some before) (changes : Changes g call s (some before) (some phase)) :
    ∃ other after, (g.setPhase call phase).phase? other = some after ∧
      Changes g other s (g.phase? other) ((g.setPhase call phase).phase? other) := by
  have now := phase?_setPhase_self g call phase stands
  refine ⟨call, phase, now, ?_⟩
  rw [now, stands]
  exact changes

/-- Every step changes where a call stands. -/
theorem Moves.exists_changes (moves : g.Moves s next) : ∃ call phase,
    next.phase? call = some phase ∧ Changes g call s (g.phase? call) (next.phase? call) := by
  cases moves with
  | trigger =>
    have none : g.phase? g.calls.length = none := by simp [phase?]
    refine ⟨g.calls.length, .debouncing, ?_⟩
    rw [phase?_trigger, if_pos rfl, none]
    exact ⟨rfl, .starts⟩
  | expire debounces stale => exact exists_changes_setPhase debounces (.expires stale)
  | wait debounces fresh => exact exists_changes_setPhase debounces (.waits fresh)
  | yield waits free stale => exact exists_changes_setPhase waits (.yields stale)
  | send waits free fresh => exact exists_changes_setPhase waits (.searches fresh)
  | answer answer searches => exact exists_changes_setPhase searches (.ends answer)
  | drop stands pending => exact exists_changes_setPhase stands (.drops pending)

theorem Moves.overtaken (moves : g.Moves s next) (before : g.phase? call ≠ some .superseded)
    (after : next.phase? call = some .superseded) : g.isOvertaken call = true ∧
      ∃ phase, g.phase? call = some phase ∧ phase.isPending = true := by
  rcases moves.changes call with same | changes
  · exact absurd (same.symm.trans after) before
  · rw [after] at changes
    generalize g.phase? call = phase at changes
    cases changes with
    | expires stale => exact ⟨stale, .debouncing, rfl, rfl⟩
    | yields stale => exact ⟨stale, .waiting, rfl, rfl⟩

theorem Moves.searches (moves : g.Moves s next) (before : g.phase? call ≠ some .searching)
    (after : next.phase? call = some .searching) :
    s = .grant call ∧ g.phase? call = some .waiting ∧ g.isOvertaken call = false := by
  rcases moves.changes call with same | changes
  · exact absurd (same.symm.trans after) before
  · rw [after] at changes
    generalize g.phase? call = phase at changes
    cases changes with
    | searches fresh => exact ⟨rfl, rfl, fresh⟩

theorem Moves.ends {answer : ρ} (moves : g.Moves s next)
    (before : g.phase? call ≠ some (.answered answer))
    (after : next.phase? call = some (.answered answer)) :
    s = .answer call answer ∧ g.phase? call = some .searching := by
  rcases moves.changes call with same | changes
  · exact absurd (same.symm.trans after) before
  · rw [after] at changes
    generalize g.phase? call = phase at changes
    cases changes with
    | ends => exact ⟨rfl, rfl⟩

theorem Moves.phase?_of_ended {phase : Phase ρ} (moves : g.Moves s next)
    (stands : g.phase? call = some phase) (ended : phase.isPending = false) :
    next.phase? call = some phase := by
  rcases moves.changes call with same | changes
  · rw [same, stands]
  · rw [stands] at changes
    generalize next.phase? call = after at changes
    -- Only a pending call changes.
    cases changes with
    | expires | waits | yields | searches | ends => cases ended
    | drops pending =>
      rw [ended] at pending
      cases pending

theorem Moves.eq_send (moves : g.Moves (.grant call) next) (fresh : g.isOvertaken call = false) :
    next = (g.leave call).send call := by
  cases moves with
  | yield _ _ stale =>
    rw [fresh] at stale
    cases stale
  | send => rfl

/-- A step sends at most one request, that of a call that waits and is not overtaken. -/
theorem Moves.requests (moves : g.Moves s next) : next.requests = g.requests ∨
    ∃ call, g.phase? call = some .waiting ∧ g.isOvertaken call = false ∧
      next.phase? call = some .searching ∧ next.requests = g.requests ++ [call] := by
  cases moves with
  | send waits free fresh =>
    exact .inr ⟨_, waits, fresh, phase?_setPhase_self _ _ _ waits, rfl⟩
  | trigger | expire | wait | yield | answer | drop => exact .inl rfl

/-! ### Runs -/

theorem run?_cons : g.run? (s :: steps) = (g.step? s).bind (·.run? steps) := rfl

theorem run?_append (before after : List (GateStep ρ)) :
    g.run? (before ++ after) = (g.run? before).bind (·.run? after) := by
  induction before generalizing g with
  | nil => rfl
  | cons s rest ih =>
    rw [List.cons_append, run?_cons, run?_cons]
    cases g.step? s with
    | none => rfl
    | some next => exact ih

/-- What every step keeps holds at the end of a run. -/
theorem run_induction {P : Gate ρ → Prop} (run : g.run? steps = some later) (start : P g)
    (kept : ∀ m s next, P m → m.Moves s next → P next) : P later := by
  induction steps generalizing g with
  | nil =>
    cases run
    exact start
  | cons s rest ih =>
    rw [run?_cons] at run
    obtain ⟨m, step, run⟩ := Option.bind_eq_some_iff.mp run
    exact ih run (kept g s m start (.of_step? step))

/-- What does not hold at the start of a run but at its end was brought about by one of its
steps. -/
theorem exists_first_step {P : Gate ρ → Prop} (run : g.run? steps = some later) (start : ¬ P g)
    (finish : P later) : ∃ before s after m next, steps = before ++ s :: after ∧
      g.run? before = some m ∧ m.step? s = some next ∧ next.run? after = some later ∧
      ¬ P m ∧ P next := by
  induction steps generalizing g with
  | nil =>
    cases run
    exact absurd finish start
  | cons s rest ih =>
    rw [run?_cons] at run
    obtain ⟨m, step, run⟩ := Option.bind_eq_some_iff.mp run
    by_cases reached : P m
    · exact ⟨[], s, rest, g, m, rfl, rfl, step, run, start, reached⟩
    · obtain ⟨before, s', after, m', next, split, early, rest⟩ := ih run reached
      refine ⟨s :: before, s', after, m', next, ?_, ?_, rest⟩
      · rw [split, List.cons_append]
      · rw [run?_cons, step]
        exact early

/-! ### Calls and tickets -/

theorem Moves.length_calls (moves : g.Moves s next) :
    next.calls.length = g.calls.length + triggers [s] := by
  cases moves <;> simp [triggers, GateStep.isTrigger, Gate.trigger, Gate.wait, Gate.send, receive,
    cancel, release, leave]

theorem length_calls_of_run? (run : g.run? steps = some later) :
    later.calls.length = g.calls.length + triggers steps := by
  induction steps generalizing g with
  | nil =>
    cases run
    rfl
  | cons s rest ih =>
    rw [run?_cons] at run
    obtain ⟨m, step, run⟩ := Option.bind_eq_some_iff.mp run
    rw [ih run, (Moves.of_step? step).length_calls, Nat.add_assoc]
    simp [triggers, List.countP_cons, Nat.add_comm]

theorem length_calls_eq (run : Gate.initial.run? steps = some g) :
    g.calls.length = triggers steps := by
  rw [length_calls_of_run? run]
  exact Nat.zero_add _

theorem length_calls_lt (run : Gate.initial.run? steps = some g) (few : triggers steps < 2 ^ 64) :
    g.calls.length < UInt64.size := by
  rw [length_calls_eq run]
  exact few

theorem triggers_append_le (before after : List (GateStep ρ)) :
    triggers before ≤ triggers (before ++ after) :=
  (List.prefix_append before after).countP_le

theorem phase?_eq_none_iff : g.phase? call = none ↔ g.calls.length ≤ call := by
  simp [phase?]

theorem lt_length_of_phase? {phase : Phase ρ} (stands : g.phase? call = some phase) :
    call < g.calls.length := by
  apply Nat.lt_of_not_le
  intro long
  rw [phase?_eq_none_iff.mpr long] at stands
  cases stands

/-- Where a pending call comes from. -/
theorem Moves.cases_of_pending {phase : Phase ρ} (moves : g.Moves s next)
    (stands : next.phase? call = some phase) (pending : phase.isPending = true) :
    g.phase? call = some phase ∨
      (s = .trigger ∧ call = g.calls.length ∧ phase = .debouncing) ∨
      (phase = .waiting ∧ g.phase? call = some .debouncing) ∨
      (phase = .searching ∧ g.phase? call = some .waiting) := by
  rcases moves.changes call with same | changes
  · exact .inl (same ▸ stands)
  · rw [stands] at changes
    generalize before : g.phase? call = place at changes
    cases changes with
    | starts =>
      have unknown := phase?_eq_none_iff.mp before
      have known := lt_length_of_phase? stands
      have length : next.calls.length = g.calls.length + 1 := moves.length_calls
      exact .inr (.inl ⟨rfl, by omega, rfl⟩)
    | waits => exact .inr (.inr (.inl ⟨rfl, rfl⟩))
    | searches => exact .inr (.inr (.inr ⟨rfl, rfl⟩))
    | expires | yields | ends | drops => cases pending

/-- The counter has counted the calls, and each call took what it had counted then. -/
structure Numbered (g : Gate ρ) : Prop where
  generation : g.generation = UInt64.ofNat g.calls.length
  ticket : ∀ call < g.calls.length, g.ticket? call = some (UInt64.ofNat (call + 1))

theorem Moves.tickets (moves : g.Moves s next) : next = g.trigger ∨
    (next.generation = g.generation ∧ next.calls.length = g.calls.length ∧
      ∀ call, next.ticket? call = g.ticket? call) := by
  cases moves with
  | trigger => exact .inl rfl
  | expire => exact .inr ⟨rfl, by simp, by simp⟩
  | wait => exact .inr ⟨rfl, by simp [Gate.wait], by simp⟩
  | yield => exact .inr ⟨rfl, by simp [leave], by simp⟩
  | send => exact .inr ⟨rfl, by simp [Gate.send, leave], by simp⟩
  | answer => exact .inr ⟨rfl, by simp [receive, release], by simp⟩
  | drop => exact .inr ⟨rfl, by simp [cancel, leave, release], by simp⟩

theorem Numbered.initial : (Gate.initial : Gate ρ).Numbered := ⟨rfl, by simp [Gate.initial]⟩

theorem Numbered.trigger (numbered : g.Numbered) : g.trigger.Numbered := by
  have counted : g.trigger.generation = UInt64.ofNat (g.calls.length + 1) := by
    simp [Gate.trigger, numbered.generation]
  have length : g.trigger.calls.length = g.calls.length + 1 := by simp [Gate.trigger]
  refine ⟨by rw [length, counted], fun call known => ?_⟩
  rw [ticket?_trigger]
  split
  case isTrue last =>
    rw [last, ← counted]
    rfl
  case isFalse early => exact numbered.ticket call (by omega)

theorem Numbered.step (numbered : g.Numbered) (moves : g.Moves s next) : next.Numbered := by
  rcases moves.tickets with rfl | ⟨generation, length, ticket⟩
  · exact numbered.trigger
  · refine ⟨?_, fun call known => ?_⟩
    · rw [generation, length, numbered.generation]
    · rw [ticket, numbered.ticket call (by omega)]

theorem Numbered.of_run? (run : Gate.initial.run? steps = some g) : g.Numbered :=
  run_induction run .initial fun _ _ _ => .step

/-- One call holds a smaller ticket than another one. -/
def Older (g : Gate ρ) (call newer : Nat) : Prop :=
  ∃ small great, g.ticket? call = some small ∧ g.ticket? newer = some great ∧ small < great

theorem lt_length_of_ticket? {ticket : UInt64} (found : g.ticket? call = some ticket) :
    call < g.calls.length := by
  apply Nat.lt_of_not_le
  intro unknown
  simp [ticket?, unknown] at found

theorem Moves.ticket?_of_some {ticket : UInt64} (moves : g.Moves s next)
    (found : g.ticket? call = some ticket) : next.ticket? call = some ticket := by
  have known := lt_length_of_ticket? found
  rcases moves.tickets with rfl | ⟨-, -, same⟩
  · rw [ticket?_trigger, if_neg (by omega), found]
  · rw [same, found]

theorem Older.of_run? (older : g.Older call other) (run : g.run? steps = some later) :
    later.Older call other := by
  refine run_induction (P := fun m => m.Older call other) run older ?_
  intro m s next older moves
  obtain ⟨small, great, smallTicket, greatTicket, less⟩ := older
  exact ⟨small, great, moves.ticket?_of_some smallTicket, moves.ticket?_of_some greatTicket,
    less⟩

/-- As long as the counter has not come round, tickets are in the order of the triggers. -/
theorem Numbered.older_iff (numbered : g.Numbered) (few : g.calls.length < UInt64.size) :
    g.Older call other ↔ call < other ∧ other < g.calls.length := by
  have order (known : call < g.calls.length) (otherKnown : other < g.calls.length) :
      UInt64.ofNat (call + 1) < UInt64.ofNat (other + 1) ↔ call + 1 < other + 1 :=
    UInt64.ofNat_lt_iff_lt (by omega) (by omega)
  constructor
  · rintro ⟨small, great, smallTicket, greatTicket, less⟩
    have known := lt_length_of_ticket? smallTicket
    have otherKnown := lt_length_of_ticket? greatTicket
    rw [numbered.ticket call known] at smallTicket
    rw [numbered.ticket other otherKnown] at greatTicket
    cases smallTicket
    cases greatTicket
    have := (order known otherKnown).mp less
    exact ⟨by omega, otherKnown⟩
  · rintro ⟨less, otherKnown⟩
    have known : call < g.calls.length := by omega
    exact ⟨_, _, numbered.ticket call known, numbered.ticket other otherKnown,
      (order known otherKnown).mpr (by omega)⟩

/-- A call is not overtaken when the counter shows its ticket, be it again. -/
theorem Numbered.isOvertaken_eq_false_iff_mod (numbered : g.Numbered)
    (known : call < g.calls.length) : g.isOvertaken call = false ↔
      (call + 1) % UInt64.size = g.calls.length % UInt64.size := by
  simp only [isOvertaken, numbered.ticket call known, numbered.generation, ne_eq,
    Option.some.injEq, decide_not, Bool.not_eq_false', decide_eq_true_eq, ← UInt64.toNat_inj,
    UInt64.toNat_ofNat']

/-- As long as the counter has not come round, every call but the last one is overtaken. -/
theorem Numbered.isOvertaken_eq_false_iff (numbered : g.Numbered)
    (few : g.calls.length < UInt64.size) (known : call < g.calls.length) :
    g.isOvertaken call = false ↔ call + 1 = g.calls.length := by
  have size : UInt64.size = 2 ^ 64 := rfl
  rw [numbered.isOvertaken_eq_false_iff_mod known, Nat.mod_eq_of_lt (by omega),
    Nat.mod_eq_of_lt (by omega)]

theorem Numbered.exists_newer (numbered : g.Numbered) (few : g.calls.length < UInt64.size)
    (known : call < g.calls.length) (stale : g.isOvertaken call = true) :
    ∃ newer, g.Older call newer := by
  have notLast : call + 1 ≠ g.calls.length := by
    intro last
    rw [(numbered.isOvertaken_eq_false_iff few known).mpr last] at stale
    cases stale
  exact ⟨call + 1, (numbered.older_iff few).mpr ⟨by omega, by omega⟩⟩

theorem Numbered.not_older (numbered : g.Numbered) (few : g.calls.length < UInt64.size)
    (known : call < g.calls.length) (fresh : g.isOvertaken call = false) (newer : Nat) :
    ¬ g.Older call newer := by
  intro older
  have last := (numbered.isOvertaken_eq_false_iff few known).mp fresh
  have ⟨less, newerKnown⟩ := (numbered.older_iff few).mp older
  omega

end Gate

end Footprint
