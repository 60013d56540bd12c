import Footprint.Proofs.Search.Spacing
import Footprint.Search.Schedule
import Mathlib.Algebra.Order.BigOperators.Group.Finset

/-!
Schedules are runs under a clock.

`Schedule.Awaits` lists the events that a schedule can play next. Time does not go back because none
of them lies before the last one that was played: a step only brings events of its own time or
later. So what a schedule has played is a run of the gate under a clock (`Schedule.Played`). It ends
because every event takes a call on: from its trigger on a call takes at most four steps.

* `Schedule.exists_clocked`: a schedule of calls in the order of their starts plays a run under a
  clock that triggers every call when it should start and sends the requests that are recorded.
* `Schedule.run_spaced`: a request is sent the debounce after the start of its call at the earliest
  and before any later call starts; of calls that follow each other faster, only the last can send.
-/

namespace Footprint

open Gate (TriggeredAt SentAt Clocked stepsBefore)

/-! ### One more step -/

namespace Gate

variable {ρ : Type} {g next : Gate ρ} {events : List (TimedStep ρ)} {e : TimedStep ρ}
  {call place time : Nat}

theorem stepsBefore_concat (inside : place ≤ events.length) :
    stepsBefore (events ++ [e]) place = stepsBefore events place := by
  rw [stepsBefore, List.take_append_of_le_length inside]
  rfl

theorem getElem?_concat_eq_some_iff {a : TimedStep ρ} : (events ++ [e])[place]? = some a ↔
    events[place]? = some a ∨ place = events.length ∧ e = a := by
  rcases Nat.lt_trichotomy place events.length with less | rfl | more
  · rw [List.getElem?_append_left less]
    constructor
    · exact .inl
    · rintro (found | ⟨rfl, -⟩)
      · exact found
      · exact absurd less (Nat.lt_irrefl _)
  · simp
  · constructor
    · intro found
      have inside := (List.getElem?_eq_some_iff.mp found).1
      rw [List.length_append, List.length_singleton] at inside
      omega
    · rintro (found | ⟨rfl, -⟩)
      · have inside := (List.getElem?_eq_some_iff.mp found).1
        omega
      · exact absurd more (Nat.lt_irrefl _)

theorem stepsBefore_length : stepsBefore events events.length = events.map (·.step) := by
  rw [stepsBefore, List.take_length]

theorem triggeredAt_concat : TriggeredAt (events ++ [e]) call place time →
    TriggeredAt events call place time ∨
      e = ⟨time, .trigger⟩ ∧ triggers (events.map (·.step)) = call := by
  rintro ⟨step, number⟩
  rcases getElem?_concat_eq_some_iff.mp step with found | ⟨rfl, same⟩
  · have inside := (List.getElem?_eq_some_iff.mp found).1
    rw [stepsBefore_concat (by omega)] at number
    exact .inl ⟨found, number⟩
  · rw [stepsBefore_concat (Nat.le_refl _), stepsBefore_length] at number
    exact .inr ⟨same, number⟩

theorem sentAt_concat (run : Gate.initial.run? (events.map (·.step)) = some g)
    (step : g.step? e.step = some next) : SentAt (events ++ [e]) call place time ↔
      SentAt events call place time ∨
        place = events.length ∧ e.time = time ∧ next.requests = g.requests ++ [call] := by
  constructor
  · rintro ⟨s, m, later, found, early, moves, sends⟩
    rcases getElem?_concat_eq_some_iff.mp found with found | ⟨rfl, rfl⟩
    · have inside := (List.getElem?_eq_some_iff.mp found).1
      rw [stepsBefore_concat (by omega)] at early
      exact .inl ⟨s, m, later, found, early, moves, sends⟩
    · rw [stepsBefore_concat (Nat.le_refl _), stepsBefore_length, run] at early
      cases early
      cases step.symm.trans moves
      exact .inr ⟨rfl, rfl, sends⟩
  · rintro (⟨s, m, later, found, early, moves, sends⟩ | ⟨rfl, rfl, sends⟩)
    · have inside := (List.getElem?_eq_some_iff.mp found).1
      refine ⟨s, m, later, getElem?_concat_eq_some_iff.mpr (.inl found), ?_, moves, sends⟩
      rw [stepsBefore_concat (by omega), early]
    · refine ⟨e.step, g, next, getElem?_concat_eq_some_iff.mpr (.inr ⟨rfl, rfl⟩), ?_, step, sends⟩
      rw [stepsBefore_concat (Nat.le_refl _), stepsBefore_length, run]

end Gate

namespace Schedule

variable {ρ : Type} {debounce : Nat} {plans : List (PlannedCall ρ)} {g next : Gate ρ}
  {s : GateStep ρ} {sentAt : List Nat} {events : List (TimedStep ρ)} {call time now : Nat}

/-! ### Events -/

/-- When the request of a call was sent, by what was recorded. -/
def sentTimeOf (g : Gate ρ) (sentAt : List Nat) (call : Nat) : Nat :=
  ((g.requests.zip sentAt).lookup call).getD 0

/-- An event that can come next. -/
inductive Awaits (debounce : Nat) (plans : List (PlannedCall ρ)) (g : Gate ρ)
    (sentAt : List Nat) : Event ρ → Prop where
  | timer {call : Nat} {plan : PlannedCall ρ} : plans[call]? = some plan →
      g.phase? call = some .debouncing →
      Awaits debounce plans g sentAt ⟨plan.start + debounce, 1, .timer call⟩
  | answer {call : Nat} {plan : PlannedCall ρ} : plans[call]? = some plan →
      g.phase? call = some .searching → Awaits debounce plans g sentAt
        ⟨sentTimeOf g sentAt call + plan.latency, 0, .answer call plan.answer⟩
  | drop {call time : Nat} {plan : PlannedCall ρ} {phase : Phase ρ} : plans[call]? = some plan →
      g.phase? call = some phase → phase.isPending = true → plan.dropAt = some time →
      Awaits debounce plans g sentAt ⟨max time plan.start, 2, .drop call⟩
  | trigger {plan : PlannedCall ρ} : plans[g.calls.length]? = some plan →
      Awaits debounce plans g sentAt ⟨plan.start, 3, .trigger⟩

theorem mem_callEvents_iff {s : Schedule ρ} {plan : PlannedCall ρ} {phase : Phase ρ}
    {e : Event ρ} : e ∈ callEvents debounce s call plan phase ↔
      (phase = .debouncing ∧ e = ⟨plan.start + debounce, 1, .timer call⟩) ∨
      (phase = .searching ∧ e = ⟨s.sentTime call + plan.latency, 0, .answer call plan.answer⟩) ∨
      ∃ time, plan.dropAt = some time ∧ phase.isPending = true ∧
        e = ⟨max time plan.start, 2, .drop call⟩ := by
  unfold callEvents
  cases phase <;> cases plan.dropAt <;> simp [Phase.isPending]

/-- The events of a schedule are those listed. -/
theorem mem_events_iff {s : Schedule ρ} {e : Event ρ} :
    e ∈ Schedule.events debounce plans s ↔ Awaits debounce plans s.gate s.sentAt e := by
  have length : s.gate.phases.length = s.gate.calls.length := List.length_map _
  simp only [Schedule.events, List.mem_append, List.mem_flatMap, Prod.exists,
    List.mem_zipIdx_iff_getElem?, List.getElem?_zip_eq_some, mem_callEvents_iff, length]
  constructor
  · rintro (⟨plan, phase, call, ⟨planned, stands⟩, event⟩ | next)
    · rw [Gate.phases, List.getElem?_map] at stands
      rcases event with ⟨rfl, rfl⟩ | ⟨rfl, rfl⟩ | ⟨time, drops, pending, rfl⟩
      · exact .timer planned stands
      · exact .answer planned stands
      · exact .drop planned stands pending drops
    · cases planned : plans[s.gate.calls.length]? with
      | none =>
        rw [planned] at next
        cases next
      | some plan =>
        rw [planned] at next
        cases List.mem_singleton.mp next
        exact .trigger planned
  · intro awaits
    cases awaits with
    | @timer call plan planned stands =>
      rw [Gate.phase?, ← List.getElem?_map] at stands
      exact .inl ⟨plan, _, call, ⟨planned, stands⟩, .inl ⟨rfl, rfl⟩⟩
    | @answer call plan planned stands =>
      rw [Gate.phase?, ← List.getElem?_map] at stands
      exact .inl ⟨plan, _, call, ⟨planned, stands⟩, .inr (.inl ⟨rfl, rfl⟩)⟩
    | @drop call time plan phase planned stands pending drops =>
      rw [Gate.phase?, ← List.getElem?_map] at stands
      exact .inl ⟨plan, _, call, ⟨planned, stands⟩, .inr (.inr ⟨time, drops, pending, rfl⟩)⟩
    | @trigger plan planned =>
      rw [planned]
      exact .inr List.mem_cons_self

theorem Event.before_iff {a b : Event ρ} :
    a.before b = true ↔ a.time < b.time ∨ a.time = b.time ∧ a.rank < b.rank := by
  simp only [Event.before, Bool.or_eq_true, Bool.and_eq_true, decide_eq_true_eq, beq_iff_eq]

theorem earliest?_eq_none_iff {es : List (Event ρ)} : earliest? es = none ↔ es = [] := by
  cases es with
  | nil => simp [earliest?]
  | cons e rest =>
    rw [earliest?]
    split
    · split <;> simp
    · simp

/-- The event that comes first is one of them, and none of them lies before it. -/
theorem earliest?_spec {es : List (Event ρ)} {first : Event ρ} (found : earliest? es = some first) :
    first ∈ es ∧ ∀ e ∈ es, first.time ≤ e.time := by
  induction es generalizing first with
  | nil => cases found
  | cons e rest ih =>
    rw [earliest?] at found
    split at found
    case h_1 other later =>
      obtain ⟨mem, least⟩ := ih later
      split at found
      case isTrue before =>
        cases found
        have le : first.time ≤ e.time := by
          rw [Event.before_iff] at before
          omega
        exact ⟨List.mem_cons_of_mem _ mem, List.forall_mem_cons.mpr ⟨le, least⟩⟩
      case isFalse notBefore =>
        cases found
        have le : e.time ≤ other.time := by
          rw [Event.before_iff] at notBefore
          omega
        refine ⟨List.mem_cons_self, List.forall_mem_cons.mpr ⟨Nat.le_refl _, fun a mem => ?_⟩⟩
        exact le.trans (least a mem)
    case h_2 nothing =>
      cases found
      cases earliest?_eq_none_iff.mp nothing
      simp

/-- An event can take place. -/
theorem Awaits.exists_step {e : Event ρ} (awaits : Awaits debounce plans g sentAt e) :
    ∃ next, g.step? e.step = some next := by
  cases awaits with
  | timer _ debounces => exact ⟨_, Gate.step?_eq_some_iff.mpr (.fire debounces)⟩
  | answer _ searches => exact ⟨_, Gate.step?_eq_some_iff.mpr (.answer _ searches)⟩
  | drop _ stands pending => exact ⟨_, Gate.step?_eq_some_iff.mpr (.drop stands pending)⟩
  | trigger => exact ⟨_, rfl⟩

/-! ### The record of requests -/

/-- The times of requests, with those that are new. -/
def stamp (sentAt : List Nat) (count time : Nat) : List Nat :=
  sentAt ++ List.replicate (count - sentAt.length) time

theorem stamp_length : stamp sentAt sentAt.length time = sentAt := by
  rw [stamp, Nat.sub_self, List.replicate_zero, List.append_nil]

theorem stamp_succ : stamp sentAt (sentAt.length + 1) time = sentAt ++ [time] := by
  rw [stamp, Nat.add_sub_cancel_left, List.replicate_one]

theorem length_stamp {count : Nat} (le : sentAt.length ≤ count) :
    (stamp sentAt count time).length = count := by
  rw [stamp, List.length_append, List.length_replicate]
  omega

theorem length_le_length_stamp (count : Nat) :
    sentAt.length ≤ (stamp sentAt count time).length := by
  rw [stamp, List.length_append]
  exact Nat.le_add_right _ _

theorem stamp_stamp {count more : Nat} (le : sentAt.length ≤ count) (le' : count ≤ more) :
    stamp (stamp sentAt count time) more time = stamp sentAt more time := by
  rw [stamp, length_stamp le, stamp, stamp, List.append_assoc, List.replicate_append_replicate]
  congr 2
  omega

/-- A step records the request that it sends, if any. -/
theorem zip_stamp (time : Nat) (even : sentAt.length = g.requests.length) (moves : g.Moves s next) :
    (next.requests = g.requests ∧ stamp sentAt next.requests.length time = sentAt) ∨
    ∃ call, next.requests = g.requests ++ [call] ∧
      next.requests.zip (stamp sentAt next.requests.length time) =
        g.requests.zip sentAt ++ [(call, time)] := by
  rcases moves.requests with same | ⟨call, -, -, -, sends⟩
  · rw [same, ← even, stamp_length]
    exact .inl ⟨rfl, rfl⟩
  · refine .inr ⟨call, sends, ?_⟩
    rw [sends, List.length_append, List.length_singleton, ← even, stamp_succ,
      List.zip_append even.symm]
    rfl

theorem mem_zip_stamp {sentTime : Nat} (even : sentAt.length = g.requests.length)
    (moves : g.Moves s next) :
    (call, sentTime) ∈ next.requests.zip (stamp sentAt next.requests.length time) ↔
      (call, sentTime) ∈ g.requests.zip sentAt ∨
        time = sentTime ∧ next.requests = g.requests ++ [call] := by
  rcases zip_stamp time even moves with ⟨same, times⟩ | ⟨sender, sends, more⟩
  · rw [times, same]
    simp
  · rw [more, sends, List.mem_append, List.mem_singleton, Prod.mk.injEq]
    refine or_congr_right ?_
    rw [List.append_cancel_left_eq, List.cons.injEq, and_iff_left rfl, and_comm, eq_comm,
      eq_comm (a := call)]

/-- A time is recorded of each request. -/
theorem exists_sentTime (even : sentAt.length = g.requests.length) (mem : call ∈ g.requests) :
    ∃ time, (call, time) ∈ g.requests.zip sentAt := by
  rw [← List.map_fst_zip (Nat.le_of_eq even.symm), List.mem_map] at mem
  obtain ⟨⟨call, time⟩, mem, rfl⟩ := mem
  exact ⟨time, mem⟩

/-- What was recorded of a request stays. -/
theorem sentTimeOf_stamp (even : sentAt.length = g.requests.length) (moves : g.Moves s next)
    (mem : call ∈ g.requests) :
    sentTimeOf next (stamp sentAt next.requests.length time) call = sentTimeOf g sentAt call := by
  have recorded : ((g.requests.zip sentAt).lookup call).isSome = true := by
    obtain ⟨time, sends⟩ := exists_sentTime even mem
    exact List.lookup_isSome_iff.mpr ⟨_, sends, beq_self_eq_true _⟩
  rcases zip_stamp time even moves with ⟨same, times⟩ | ⟨sender, -, more⟩
  · rw [sentTimeOf, times, same]
    rfl
  · rw [sentTimeOf, more, List.lookup_append, Option.or_of_isSome recorded]
    rfl

/-- A call that starts to search sent its request just then. -/
theorem sentTimeOf_new (even : sentAt.length = g.requests.length) (sent : g.Sent)
    (moves : g.Moves s next) (waits : g.phase? call = some .waiting)
    (searches : next.phase? call = some .searching) :
    sentTimeOf next (stamp sentAt next.requests.length time) call = time := by
  obtain ⟨rfl, -, fresh⟩ := moves.searches (by simp [waits]) searches
  have sends : next.requests = g.requests ++ [call] := by
    rw [moves.eq_send fresh, Gate.requests_send, Gate.requests_leave]
  have unsent : (g.requests.zip sentAt).lookup call = none := by
    rw [List.lookup_eq_none_iff]
    rintro ⟨other, sentTime⟩ mem
    have different : call ≠ other := by
      rintro rfl
      exact sent.not_mem waits rfl (List.of_mem_zip mem).1
    simpa using different
  rcases zip_stamp time even moves with ⟨same, -⟩ | ⟨sender, sends', more⟩
  · rw [sends] at same
    exact absurd same (by simp)
  · have isCall : sender = call := by
      rw [sends] at sends'
      simpa using sends'.symm
    rw [sentTimeOf, more, List.lookup_append, unsent, isCall]
    simp

/-! ### Time does not go back -/

/-- Nothing that can come next lies before a time. -/
def Ahead (debounce : Nat) (plans : List (PlannedCall ρ)) (g : Gate ρ) (sentAt : List Nat)
    (now : Nat) : Prop :=
  ∀ e, Awaits debounce plans g sentAt e → now ≤ e.time

/-- What the plan asks of a step at a time. -/
inductive Due (debounce : Nat) (plans : List (PlannedCall ρ)) (g : Gate ρ) (time : Nat) :
    GateStep ρ → Prop where
  | trigger {plan : PlannedCall ρ} : plans[g.calls.length]? = some plan → plan.start = time →
      Due debounce plans g time .trigger
  | timer {call : Nat} {plan : PlannedCall ρ} : plans[call]? = some plan →
      plan.start + debounce ≤ time → Due debounce plans g time (.timer call)
  | grant (call : Nat) : Due debounce plans g time (.grant call)
  | answer (call : Nat) (answer : ρ) : Due debounce plans g time (.answer call answer)
  | drop (call : Nat) : Due debounce plans g time (.drop call)

theorem Awaits.due {e : Event ρ} (awaits : Awaits debounce plans g sentAt e) :
    Due debounce plans g e.time e.step := by
  cases awaits with
  | timer planned => exact .timer planned (Nat.le_refl _)
  | answer => exact .answer ..
  | drop => exact .drop _
  | trigger planned => exact .trigger planned rfl

/-- What a step brings lies at its own time or later. -/
theorem Ahead.step (sorted : plans.Pairwise (·.start ≤ ·.start))
    (ahead : Ahead debounce plans g sentAt time)
    (even : sentAt.length = g.requests.length) (sent : g.Sent) (moves : g.Moves s next)
    (due : Due debounce plans g time s) :
    Ahead debounce plans next (stamp sentAt next.requests.length time) time := by
  intro e awaits
  cases awaits with
  | @timer call plan planned stands =>
    rcases moves.cases_of_pending stands rfl with same | ⟨rfl, rfl, -⟩ | ⟨⟨⟩, -⟩ | ⟨⟨⟩, -⟩
    · exact ahead _ (.timer planned same)
    · cases due with
      | trigger planned' start =>
        cases planned.symm.trans planned'
        exact start ▸ Nat.le_add_right _ _
  | @answer call plan planned stands =>
    rcases moves.cases_of_pending stands rfl with same | ⟨-, -, ⟨⟩⟩ | ⟨⟨⟩, -⟩ | ⟨-, waits⟩
    · rw [sentTimeOf_stamp even moves (sent.searching call same)]
      exact ahead _ (.answer planned same)
    · rw [sentTimeOf_new even sent moves waits stands]
      exact Nat.le_add_right _ _
  | @drop call dropTime plan phase planned stands pending drops =>
    rcases moves.cases_of_pending stands pending with
      same | ⟨rfl, rfl, -⟩ | ⟨-, before⟩ | ⟨-, before⟩
    · exact ahead _ (.drop planned same pending drops)
    · cases due with
      | trigger planned' start =>
        cases planned.symm.trans planned'
        exact start ▸ Nat.le_max_right _ _
    · exact ahead _ (.drop planned before rfl drops)
    · exact ahead _ (.drop planned before rfl drops)
  | @trigger plan planned =>
    have length := moves.length_calls
    cases due with
    | @trigger first planned' start =>
      rw [show triggers [(GateStep.trigger : GateStep ρ)] = 1 from rfl] at length
      rw [length] at planned
      obtain ⟨inside, rfl⟩ := List.getElem?_eq_some_iff.mp planned
      obtain ⟨inside', rfl⟩ := List.getElem?_eq_some_iff.mp planned'
      rw [← start]
      exact List.pairwise_iff_getElem.mp sorted _ _ inside' inside (Nat.lt_succ_self _)
    | timer | grant | answer | drop =>
      have same : next.calls.length = g.calls.length := length
      rw [same] at planned
      exact ahead _ (.trigger planned)

/-! ### What a schedule plays -/

/-- The steps of a schedule up to a time: they are in the order of time and as planned, the requests
among them are those recorded, and the rest is still to come. -/
structure Played (debounce : Nat) (plans : List (PlannedCall ρ)) (events : List (TimedStep ρ))
    (g : Gate ρ) (sentAt : List Nat) (now : Nat) : Prop where
  run : Gate.initial.run? (events.map (·.step)) = some g
  ascending : events.Pairwise (·.time ≤ ·.time)
  past : ∀ e ∈ events, e.time ≤ now
  planned : ∀ {call place time}, TriggeredAt events call place time →
    ∃ plan, plans[call]? = some plan ∧ plan.start = time
  timers : ∀ {call time}, ⟨time, .timer call⟩ ∈ events →
    ∃ plan, plans[call]? = some plan ∧ plan.start + debounce ≤ time
  even : sentAt.length = g.requests.length
  requests : ∀ {call time}, (call, time) ∈ g.requests.zip sentAt ↔
    ∃ place, SentAt events call place time
  few : g.calls.length ≤ plans.length
  ahead : Ahead debounce plans g sentAt now

theorem Played.initial : Played debounce plans [] (Gate.initial : Gate ρ) [] 0 where
  run := rfl
  ascending := .nil
  past _ mem := by cases mem
  planned triggered := by cases triggered.step
  timers mem := by cases mem
  even := rfl
  requests := by simp [Gate.initial, SentAt]
  few := Nat.zero_le _
  ahead _ _ := Nat.zero_le _

/-- Time goes on as far as nothing is left behind. -/
theorem Played.wait (played : Played debounce plans events g sentAt now) (le : now ≤ time)
    (ahead : Ahead debounce plans g sentAt time) :
    Played debounce plans events g sentAt time :=
  { played with past := fun e mem => (played.past e mem).trans le, ahead }

theorem Played.sent (played : Played debounce plans events g sentAt now)
    (fewPlans : plans.length < 2 ^ 64) : g.Sent := by
  refine Gate.Sent.of_run? played.run ?_
  rw [← Gate.length_calls_eq played.run]
  exact played.few.trans_lt fewPlans

theorem Due.length_calls_le (due : Due debounce plans g time s) (moves : g.Moves s next)
    (few : g.calls.length ≤ plans.length) : next.calls.length ≤ plans.length := by
  have length := moves.length_calls
  cases due with
  | trigger planned =>
    have inside := (List.getElem?_eq_some_iff.mp planned).1
    rw [length]
    exact inside
  | timer | grant | answer | drop =>
    rw [length]
    exact few

/-! ### How much is left to play -/

/-- How many steps a call can take at most. -/
def stepsOf : Option (Phase ρ) → Nat
  | none => 4
  | some .debouncing => 3
  | some .waiting => 2
  | some .searching => 1
  | some _ => 0

/-- How many steps the calls of a plan can take at most. -/
def stepsLeft (plans : List (PlannedCall ρ)) (g : Gate ρ) : Nat :=
  ∑ call ∈ Finset.range plans.length, stepsOf (g.phase? call)

theorem stepsOf_lt {before after : Option (Phase ρ)}
    (changes : Gate.Changes g call s before after) : stepsOf after < stepsOf before := by
  cases changes with
  | @drops phase pending =>
    cases phase with
    | debouncing | waiting | searching => simp [stepsOf]
    | superseded | answered | dropped => cases pending
  | starts | expires | waits | yields | searches | ends => simp [stepsOf]

theorem stepsOf_le (moves : g.Moves s next) (call : Nat) :
    stepsOf (next.phase? call) ≤ stepsOf (g.phase? call) := by
  rcases moves.changes call with same | changes
  · rw [same]
  · exact Nat.le_of_lt (stepsOf_lt changes)

theorem stepsLeft_lt (moves : g.Moves s next) (few : next.calls.length ≤ plans.length) :
    stepsLeft plans next < stepsLeft plans g := by
  obtain ⟨call, phase, stands, changes⟩ := moves.exists_changes
  refine Finset.sum_lt_sum (fun call _ => stepsOf_le moves call) ⟨call, ?_, stepsOf_lt changes⟩
  exact Finset.mem_range.mpr ((Gate.lt_length_of_phase? stands).trans_le few)

theorem stepsLeft_settle_le (plans : List (PlannedCall ρ)) (g : Gate ρ) (count : Nat) :
    stepsLeft plans (settle g count) ≤ stepsLeft plans g := by
  induction count generalizing g with
  | zero => exact Nat.le_refl _
  | succ count ih =>
    rw [settle]
    split
    case h_1 call rest queue =>
      split
      case h_1 next step =>
        have le : stepsLeft plans next ≤ stepsLeft plans g :=
          Finset.sum_le_sum fun call _ => stepsOf_le (.of_step? step) call
        exact (ih next).trans le
      case h_2 => exact Nat.le_refl _
    case h_2 => exact Nat.le_refl _

theorem stepsLeft_initial : stepsLeft plans Gate.initial = 4 * plans.length := by
  simp [stepsLeft, Gate.initial, Gate.phase?, stepsOf, Nat.mul_comm]

/-! ### Playing a plan -/

section Sorted

variable (sorted : plans.Pairwise (·.start ≤ ·.start)) (fewPlans : plans.length < 2 ^ 64)
include sorted fewPlans

theorem Played.step (played : Played debounce plans events g sentAt time)
    (step : g.step? s = some next) (due : Due debounce plans g time s) :
    Played debounce plans (events ++ [⟨time, s⟩]) next
      (stamp sentAt next.requests.length time) time where
  run := by
    rw [List.map_append, Gate.run?_append, played.run, Option.bind_some, List.map_singleton,
      Gate.run?_cons, step]
    rfl
  ascending := by
    refine List.pairwise_append.mpr ⟨played.ascending, List.pairwise_singleton _ _, ?_⟩
    intro a mem b last
    cases List.mem_singleton.mp last
    exact played.past a mem
  past e mem := by
    rcases List.mem_append.mp mem with mem | last
    · exact played.past e mem
    · cases List.mem_singleton.mp last
      exact Nat.le_refl _
  planned triggered := by
    rcases Gate.triggeredAt_concat triggered with triggered | ⟨same, number⟩
    · exact played.planned triggered
    · cases same
      rw [← Gate.length_calls_eq played.run] at number
      cases due with
      | trigger planned start => exact ⟨_, number ▸ planned, start⟩
  timers mem := by
    rcases List.mem_append.mp mem with mem | last
    · exact played.timers mem
    · cases List.mem_singleton.mp last
      cases due with
      | timer planned late => exact ⟨_, planned, late⟩
  even := by
    have grows := Gate.Moves.requests_prefix (.of_step? step)
    exact length_stamp (played.even.trans_le grows.length_le)
  requests {call sentTime} := by
    rw [mem_zip_stamp played.even (.of_step? step), played.requests]
    constructor
    · rintro (⟨place, sends⟩ | ⟨rfl, sends⟩)
      · exact ⟨place, (Gate.sentAt_concat played.run step).mpr (.inl sends)⟩
      · exact ⟨_, (Gate.sentAt_concat played.run step).mpr (.inr ⟨rfl, rfl, sends⟩)⟩
    · rintro ⟨place, sends⟩
      rcases (Gate.sentAt_concat played.run step).mp sends with sends | ⟨-, now, sends⟩
      · exact .inl ⟨place, sends⟩
      · exact .inr ⟨now, sends⟩
  few := due.length_calls_le (.of_step? step) played.few
  ahead := played.ahead.step sorted played.even (played.sent fewPlans) (.of_step? step) due

/-- A step and the turns that it makes possible. -/
theorem Played.step_settle (count : Nat) (played : Played debounce plans events g sentAt time)
    (step : g.step? s = some next) (due : Due debounce plans g time s) :
    ∃ more, Played debounce plans (events ++ more) (settle next count)
      (stamp sentAt (settle next count).requests.length time) time := by
  have now := played.step sorted fewPlans step due
  induction count generalizing g s next events sentAt with
  | zero => exact ⟨_, now⟩
  | succ count ih =>
    rw [settle]
    split
    case h_1 call rest queue =>
      split
      case h_1 granted turn =>
        have turnDue : Due debounce plans next time (.grant call) := .grant call
        obtain ⟨more, later⟩ := ih now turn turnDue (now.step sorted fewPlans turn turnDue)
        have le : sentAt.length ≤ next.requests.length :=
          now.even ▸ length_le_length_stamp next.requests.length
        have le' : next.requests.length ≤ (settle granted count).requests.length :=
          now.even ▸ later.even ▸ length_le_length_stamp _
        rw [stamp_stamp le le', List.append_assoc] at later
        exact ⟨_, later⟩
      case h_2 => exact ⟨_, now⟩
    case h_2 => exact ⟨_, now⟩

/-- A schedule that has enough events left to play plays the rest of the plan. -/
theorem Played.play (count : Nat) {s : Schedule ρ}
    (played : Played debounce plans events s.gate s.sentAt now)
    (enough : stepsLeft plans s.gate ≤ count) :
    ∃ more later, Played debounce plans (events ++ more) (play debounce plans s count).gate
        (play debounce plans s count).sentAt later ∧
      ∀ e, ¬ Awaits debounce plans (play debounce plans s count).gate
        (play debounce plans s count).sentAt e := by
  induction count generalizing s events now with
  | zero =>
    rw [Schedule.play]
    refine ⟨[], now, by rwa [List.append_nil], fun e awaits => ?_⟩
    obtain ⟨next, step⟩ := awaits.exists_step
    have moves := Gate.Moves.of_step? step
    have less := stepsLeft_lt moves (awaits.due.length_calls_le moves played.few)
    omega
  | succ count ih =>
    rw [Schedule.play]
    cases found : earliest? (Schedule.events debounce plans s) with
    | none =>
      refine ⟨[], now, by rwa [List.append_nil], fun e awaits => ?_⟩
      have mem := mem_events_iff.mpr awaits
      rw [earliest?_eq_none_iff.mp found] at mem
      cases mem
    | some e =>
      obtain ⟨mem, least⟩ := earliest?_spec found
      have awaits := mem_events_iff.mp mem
      obtain ⟨next, step⟩ := awaits.exists_step
      have ahead : Ahead debounce plans s.gate s.sentAt e.time :=
        fun a awaits => least a (mem_events_iff.mpr awaits)
      have waited := played.wait (played.ahead e awaits) ahead
      obtain ⟨more, settled⟩ :=
        waited.step_settle sorted fewPlans next.queue.length step awaits.due
      have moves := Gate.Moves.of_step? step
      have less := stepsLeft_lt moves (awaits.due.length_calls_le moves played.few)
      have less' := stepsLeft_settle_le plans next next.queue.length
      simp only [step]
      obtain ⟨rest, later, finished⟩ :=
        ih (s := s.record e.time (settle next next.queue.length)) settled (by
          show stepsLeft plans (settle next next.queue.length) ≤ count
          omega)
      rw [List.append_assoc] at finished
      exact ⟨_, later, finished⟩

/-- What a schedule has played at its end. -/
theorem exists_played (debounce : Nat) : ∃ events now,
    Played debounce plans events (run debounce plans).gate (run debounce plans).sentAt now ∧
    ∀ e, ¬ Awaits debounce plans (run debounce plans).gate (run debounce plans).sentAt e := by
  have start : Played debounce plans [] (initial : Schedule ρ).gate
      (initial : Schedule ρ).sentAt 0 := .initial
  obtain ⟨events, now, played⟩ :=
    start.play sorted fewPlans (4 * plans.length) (Nat.le_of_eq stepsLeft_initial)
  exact ⟨_, now, played⟩

end Sorted

/-! ### The run and its requests -/

theorem Played.clocked (played : Played debounce plans events g sentAt now) :
    Clocked debounce events g where
  run := played.run
  ascending := played.ascending
  delayed triggered fires := by
    obtain ⟨plan, planned, rfl⟩ := played.planned triggered
    obtain ⟨plan', planned', late⟩ := played.timers (List.mem_of_getElem? fires)
    cases planned.symm.trans planned'
    exact late

/-- When nothing is to come, all calls have been started. -/
theorem Played.length_calls (played : Played debounce plans events g sentAt now)
    (finished : ∀ e, ¬ Awaits debounce plans g sentAt e) : g.calls.length = plans.length := by
  apply Nat.le_antisymm played.few
  apply Nat.le_of_not_lt
  intro more
  exact finished _ (.trigger (List.getElem?_eq_getElem more))

/-- Then each of them was started when it should. -/
theorem Played.exists_triggeredAt (played : Played debounce plans events g sentAt now)
    (finished : ∀ e, ¬ Awaits debounce plans g sentAt e) {plan : PlannedCall ρ}
    (planned : plans[call]? = some plan) : ∃ place, TriggeredAt events call place plan.start := by
  have known : call < triggers (stepsBefore events events.length) := by
    rw [Gate.stepsBefore_length, ← Gate.length_calls_eq played.run, played.length_calls finished]
    exact (List.getElem?_eq_some_iff.mp planned).1
  obtain ⟨place, start, -, triggered⟩ := Gate.exists_triggeredAt known
  obtain ⟨plan', planned', rfl⟩ := played.planned triggered
  cases planned.symm.trans planned'
  exact ⟨place, triggered⟩

/-- A schedule plays a run under a clock: calls are triggered when they should start, and requests
are sent when they are recorded. -/
theorem exists_clocked (debounce : Nat) (sorted : plans.Pairwise (·.start ≤ ·.start))
    (fewPlans : plans.length < 2 ^ 64) : ∃ events,
    Clocked debounce events (run debounce plans).gate ∧
    (∀ {call plan}, plans[call]? = some plan →
      ∃ place, TriggeredAt events call place plan.start) ∧
    ∀ {call time},
      (call, time) ∈ (run debounce plans).gate.requests.zip (run debounce plans).sentAt ↔
        ∃ place, SentAt events call place time := by
  obtain ⟨events, now, played, finished⟩ := exists_played sorted fewPlans debounce
  exact ⟨events, played.clocked, played.exists_triggeredAt finished, played.requests⟩

/-! ### Spacing -/

section Requests

variable (played : Played debounce plans events g sentAt now)
include played

variable (sends : (call, time) ∈ g.requests.zip sentAt)
include sends

theorem Played.late : ∃ plan, plans[call]? = some plan ∧ plan.start + debounce ≤ time := by
  obtain ⟨place, sends⟩ := played.requests.mp sends
  obtain ⟨start, startTime, -, triggered⟩ := sends.triggered
  obtain ⟨plan, planned, rfl⟩ := played.planned triggered
  exact ⟨plan, planned, played.clocked.late triggered sends⟩

theorem Played.alone (fewPlans : plans.length < 2 ^ 64)
    (finished : ∀ e, ¬ Awaits debounce plans g sentAt e) {other : Nat} {plan : PlannedCall ρ}
    (planned : plans[other]? = some plan) (newer : call < other) : time ≤ plan.start := by
  have few : triggers (events.map (·.step)) < 2 ^ 64 := by
    rw [← Gate.length_calls_eq played.run]
    exact played.few.trans_lt fewPlans
  obtain ⟨place, sends⟩ := played.requests.mp sends
  obtain ⟨start, startTime, -, triggered⟩ := sends.triggered
  obtain ⟨start', triggered'⟩ := played.exists_triggeredAt finished planned
  have less := triggered.lt_of_lt triggered' newer
  have after := triggered.sent_lt sends (Gate.fewBetween_of_few few) triggered' less
  obtain ⟨m, grant, -⟩ := sends.exists_grant
  exact played.clocked.time_le grant triggered'.step after

end Requests

/-- How the requests of a schedule are spaced. -/
structure Spaced (debounce : Nat) (plans : List (PlannedCall ρ)) (s : Schedule ρ) : Prop where
  /-- A request is sent the debounce after the start of its call at the earliest. -/
  late : ∀ {call time}, (call, time) ∈ s.gate.requests.zip s.sentAt →
    ∃ plan, plans[call]? = some plan ∧ plan.start + debounce ≤ time
  /-- All calls behind it start after the request. -/
  alone : ∀ {call time}, (call, time) ∈ s.gate.requests.zip s.sentAt →
    ∀ {other plan}, plans[other]? = some plan → call < other → time ≤ plan.start
  /-- Of two requests, the call of the second one starts the debounce after that of the first. -/
  apart : s.gate.requests.Pairwise fun call other => ∃ plan plan', plans[call]? = some plan ∧
    plans[other]? = some plan' ∧ plan.start + debounce ≤ plan'.start
  /-- A call sends nothing if the next one starts before the debounce has passed. -/
  burst : ∀ {call plan plan'}, plans[call]? = some plan → plans[call + 1]? = some plan' →
    plan'.start < plan.start + debounce → call ∉ s.gate.requests

/-- The requests of a schedule are spaced by the debounce. -/
theorem run_spaced (debounce : Nat) (sorted : plans.Pairwise (·.start ≤ ·.start))
    (fewPlans : plans.length < 2 ^ 64) : Spaced debounce plans (run debounce plans) := by
  obtain ⟨events, now, played, finished⟩ := exists_played sorted fewPlans debounce
  refine ⟨played.late, fun sends _ _ => played.alone sends fewPlans finished, ?_, ?_⟩
  · refine (played.sent fewPlans).ordered.imp_of_mem fun {call other} mem memOther less => ?_
    obtain ⟨time, sends⟩ := exists_sentTime played.even mem
    obtain ⟨time', sendsOther⟩ := exists_sentTime played.even memOther
    obtain ⟨plan, planned, late⟩ := played.late sends
    obtain ⟨plan', planned', -⟩ := played.late sendsOther
    have alone := played.alone sends fewPlans finished planned' less
    exact ⟨plan, plan', planned, planned', late.trans alone⟩
  · intro call plan plan' planned planned' soon mem
    obtain ⟨time, sends⟩ := exists_sentTime played.even mem
    obtain ⟨first, found, late⟩ := played.late sends
    cases planned.symm.trans found
    have alone := played.alone sends fewPlans finished planned' (Nat.lt_succ_self call)
    omega

/-- The first call is overtaken, and the third one starts after the request of the second one. -/
example : (run 10 [⟨0, 3, 7, none⟩, ⟨5, 3, 7, none⟩, ⟨16, 3, 7, none⟩]).sentAt = [15, 26] := by
  rfl

end Schedule

end Footprint
