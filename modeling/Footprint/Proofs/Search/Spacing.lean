import Footprint.Proofs.Search.SingleFlight
import Mathlib.Data.List.Chain

/-!
How far apart the requests of a gate are.

A run under a clock is a list of steps with their times (`Gate.Clocked`): time does not go back, and
no timer fires before the debounce has passed. Triggers and requests are known by their places in
the run. A request is sent by a call that waits and whose ticket the counter shows. To wait the call
needs its timer, so its request comes late; and it comes alone, because the counter moves on with
every trigger. The rest follows from that.

* `Gate.mem_requests_iff`: the requests of a gate are those that were sent at places of its run.
* `Gate.spaced_of_clocked`: in every run under a clock a request is sent no earlier than the
  debounce after its trigger. As long as the counter, which has 64 bits, has not come round in
  between, there is no other trigger in between; the next call that sends is triggered that far
  behind, and after the request; and of a burst only the last call can send.
* `Gate.not_spaced_comingRound`: a call that 2^64 others follow finds its ticket again, and sends.
-/

namespace Footprint

/-- A step of a gate and its time. -/
structure TimedStep (ρ : Type) where
  time : Nat
  step : GateStep ρ

namespace Gate

variable {ρ : Type} {g : Gate ρ} {debounce : Nat} {events : List (TimedStep ρ)}
  {call other place place' later time time' : Nat}

/-! ### Runs under a clock -/

/-- The steps of a run before a place. -/
def stepsBefore (events : List (TimedStep ρ)) (place : Nat) : List (GateStep ρ) :=
  (events.take place).map (·.step)

/-- The step at a place starts a call. Calls are known by how many were started before. -/
structure TriggeredAt (events : List (TimedStep ρ)) (call place time : Nat) : Prop where
  step : events[place]? = some ⟨time, .trigger⟩
  number : triggers (stepsBefore events place) = call

/-- The step at a place sends the request of a call. -/
def SentAt (events : List (TimedStep ρ)) (call place time : Nat) : Prop :=
  ∃ s m next, events[place]? = some ⟨time, s⟩ ∧
    Gate.initial.run? (stepsBefore events place) = some m ∧ m.step? s = some next ∧
    next.requests = m.requests ++ [call]

/-- A run of the gate under a clock. -/
structure Clocked (debounce : Nat) (events : List (TimedStep ρ)) (g : Gate ρ) : Prop where
  run : Gate.initial.run? (events.map (·.step)) = some g
  ascending : events.Pairwise (·.time ≤ ·.time)
  /-- A timer does not fire before its delay has passed. -/
  delayed : ∀ {call place start fired time : Nat}, TriggeredAt events call place start →
    events[fired]? = some ⟨time, .timer call⟩ → start + debounce ≤ time

/-- The steps of a run between two places. -/
def stepsBetween (events : List (TimedStep ρ)) (place later : Nat) : List (GateStep ρ) :=
  ((events.take later).drop (place + 1)).map (·.step)

/-- The counter does not come round between two places. -/
def FewBetween (events : List (TimedStep ρ)) (place later : Nat) : Prop :=
  triggers (stepsBetween events place later) < 2 ^ 64

theorem fewBetween_of_few (few : triggers (events.map (·.step)) < 2 ^ 64) :
    FewBetween events place later := by
  have part : (stepsBetween events place later).Sublist (events.map (·.step)) :=
    ((List.drop_sublist _ _).trans (List.take_sublist _ _)).map _
  exact part.countP_le.trans_lt few

/-! ### Places of triggers -/

theorem stepsBefore_succ {e : TimedStep ρ} (found : events[place]? = some e) :
    stepsBefore events (place + 1) = stepsBefore events place ++ [e.step] := by
  rw [stepsBefore, List.take_add_one, found, List.map_append]
  rfl

theorem stepsBefore_of_le (le : place ≤ place') :
    stepsBefore events place <+: stepsBefore events place' :=
  (List.take_prefix_take_left le).map _

theorem triggers_stepsBefore_mono (events : List (TimedStep ρ)) (le : place ≤ place') :
    triggers (stepsBefore events place) ≤ triggers (stepsBefore events place') :=
  (stepsBefore_of_le le).countP_le

theorem triggers_succ {e : TimedStep ρ} (found : events[place]? = some e) :
    triggers (stepsBefore events (place + 1)) =
      triggers (stepsBefore events place) + if e.step.isTrigger then 1 else 0 := by
  rw [stepsBefore_succ found, triggers, List.countP_append, List.countP_singleton]
  rfl

theorem TriggeredAt.triggers_succ (triggered : TriggeredAt events call place time) :
    triggers (stepsBefore events (place + 1)) = call + 1 := by
  rw [Gate.triggers_succ triggered.step, triggered.number]
  rfl

/-- Calls are triggered in their order. -/
theorem TriggeredAt.lt (triggered : TriggeredAt events call place time)
    (later : TriggeredAt events other place' time') (before : place < place') : call < other := by
  have counted := triggers_stepsBefore_mono events (Nat.succ_le_of_lt before)
  rw [triggered.triggers_succ, later.number] at counted
  exact counted

/-- And their order is that of their triggers. -/
theorem TriggeredAt.lt_of_lt (triggered : TriggeredAt events call place time)
    (later : TriggeredAt events other place' time') (newer : call < other) : place < place' := by
  rcases Nat.lt_trichotomy place place' with less | rfl | more
  · exact less
  · exact absurd (triggered.number.symm.trans later.number) (Nat.ne_of_lt newer)
  · exact absurd (later.lt triggered more) (Nat.lt_asymm newer)

theorem TriggeredAt.unique (triggered : TriggeredAt events call place time)
    (again : TriggeredAt events call place' time') : place = place' ∧ time = time' := by
  have same : place = place' := by
    rcases Nat.lt_trichotomy place place' with less | same | more
    · exact absurd (triggered.lt again less) (Nat.lt_irrefl call)
    · exact same
    · exact absurd (again.lt triggered more) (Nat.lt_irrefl call)
  subst same
  have step := triggered.step.symm.trans again.step
  cases step
  exact ⟨rfl, rfl⟩

/-- A call that has been started was started somewhere. -/
theorem exists_triggeredAt (started : call < triggers (stepsBefore events place)) :
    ∃ start time, start < place ∧ TriggeredAt events call start time := by
  induction place with
  | zero => exact absurd started (Nat.not_lt_zero call)
  | succ place ih =>
    by_cases earlier : call < triggers (stepsBefore events place)
    · obtain ⟨start, time, less, triggered⟩ := ih earlier
      exact ⟨start, time, Nat.lt_succ_of_lt less, triggered⟩
    · cases found : events[place]? with
      | none =>
        rw [stepsBefore, List.take_add_one, found, Option.toList_none, List.append_nil] at started
        exact absurd started earlier
      | some e =>
        obtain ⟨time, s⟩ := e
        rw [triggers_succ found] at started
        cases s with
        | trigger =>
          have last : triggers (stepsBefore events place) = call := by
            simp only [GateStep.isTrigger, if_true] at started
            omega
          exact ⟨place, time, Nat.lt_succ_self place, found, last⟩
        | timer | grant | answer | drop => exact absurd started earlier

/-! ### Places of requests -/

/-- A request is sent when a call that waits and is not overtaken gets its turn. -/
theorem SentAt.exists_grant (sent : SentAt events call place time) :
    ∃ m, events[place]? = some ⟨time, .grant call⟩ ∧
      Gate.initial.run? (stepsBefore events place) = some m ∧
      m.phase? call = some .waiting ∧ m.isOvertaken call = false := by
  obtain ⟨s, m, next, found, run, step, requests⟩ := sent
  have moves := Moves.of_step? step
  rcases moves.requests with same | ⟨sender, waits, fresh, searches, sends⟩
  · rw [requests] at same
    exact absurd same (by simp)
  · have isCall : sender = call := by
      rw [requests] at sends
      simpa using sends.symm
    subst isCall
    obtain ⟨rfl, -, -⟩ := moves.searches (by simp [waits]) searches
    exact ⟨m, found, run, waits, fresh⟩

/-- A call waits after its timer has fired. -/
theorem exists_timer {m : Gate ρ} (run : Gate.initial.run? (stepsBefore events place) = some m)
    (waits : m.phase? call = some .waiting) :
    ∃ fired time, fired < place ∧ events[fired]? = some ⟨time, .timer call⟩ := by
  obtain ⟨before, s, after, m', next, split, -, step, -, notYet, reached⟩ :=
    exists_first_step (P := fun m => m.phase? call = some .waiting) run
      (by simp [Gate.initial, phase?]) waits
  have isTimer : s = .timer call := by
    rcases (Moves.of_step? step).changes call with same | changes
    · exact absurd (same.symm.trans reached) notYet
    · rw [reached] at changes
      generalize m'.phase? call = phase at changes
      cases changes with
      | waits => rfl
  subst isTimer
  have found : (stepsBefore events place)[before.length]? = some (.timer call) := by
    rw [split, List.getElem?_append_right (Nat.le_refl _), Nat.sub_self]
    rfl
  rw [stepsBefore, List.getElem?_map, List.getElem?_take] at found
  split at found
  case isTrue inside =>
    obtain ⟨⟨time, s⟩, at?, rfl⟩ := Option.map_eq_some_iff.mp found
    exact ⟨before.length, time, inside, at?⟩
  case isFalse => cases found

/-- A run goes on behind each of its places. -/
theorem exists_step_at {m : Gate ρ} {e : TimedStep ρ}
    (run : Gate.initial.run? (events.map (·.step)) = some g) (found : events[place]? = some e)
    (early : Gate.initial.run? (stepsBefore events place) = some m) :
    ∃ next rest, m.step? e.step = some next ∧ next.run? rest = some g := by
  obtain ⟨inside, rfl⟩ := List.getElem?_eq_some_iff.mp found
  have split : events.map (·.step) = stepsBefore events place ++
      events[place].step :: (events.drop (place + 1)).map (·.step) := by
    rw [stepsBefore, ← List.map_cons, ← List.drop_eq_getElem_cons inside, ← List.map_append,
      List.take_append_drop]
  rw [split, run?_append, early, Option.bind_some, run?_cons] at run
  obtain ⟨next, step, rest⟩ := Option.bind_eq_some_iff.mp run
  exact ⟨next, _, step, rest⟩

/-- The requests of a gate are those that were sent at places of its run. -/
theorem mem_requests_iff (run : Gate.initial.run? (events.map (·.step)) = some g) :
    call ∈ g.requests ↔ ∃ place time, SentAt events call place time := by
  constructor
  · intro mem
    obtain ⟨before, s, after, m, next, split, early, step, -, notYet, sent⟩ :=
      exists_first_step (P := fun m => call ∈ m.requests) run (by simp [Gate.initial]) mem
    obtain ⟨front, back, rfl, rfl, rest⟩ := List.map_eq_append_iff.mp split
    obtain ⟨e, tail, rfl, rfl, -⟩ := List.map_eq_cons_iff.mp rest
    have here : (front ++ e :: tail)[front.length]? = some e := by simp
    have steps : stepsBefore (front ++ e :: tail) front.length = front.map (·.step) := by
      rw [stepsBefore, List.take_left]
    refine ⟨front.length, e.time, e.step, m, next, here, by rw [steps, early], step, ?_⟩
    rcases (Moves.of_step? step).requests with same | ⟨sender, -, -, -, sends⟩
    · exact absurd (same ▸ sent) notYet
    · rw [sends, List.mem_append, List.mem_singleton] at sent
      rw [sends, sent.resolve_left notYet]
  · rintro ⟨place, time, s, m, next, found, early, step, sends⟩
    obtain ⟨next', rest, step', run⟩ := exists_step_at run found early
    cases step.symm.trans step'
    have grows := requests_prefix run
    apply grows.subset
    rw [sends]
    exact List.mem_append_right _ List.mem_cons_self

/-! ### Spacing -/

/-- Calls one after the other, each triggered less than the debounce after the one before it. -/
def Burst (debounce : Nat) (events : List (TimedStep ρ)) (calls : List Nat) : Prop :=
  calls.IsChain fun call next => ∃ place time place' time', TriggeredAt events call place time ∧
    TriggeredAt events next place' time' ∧ place < place' ∧ time' < time + debounce

/-- How the requests of a run are spaced. -/
structure Spaced (debounce : Nat) (events : List (TimedStep ρ)) : Prop where
  /-- A call that sends a request was triggered before. -/
  triggered : ∀ {call sent time}, SentAt events call sent time →
    ∃ place start, place < sent ∧ TriggeredAt events call place start
  /-- Its request is sent after the debounce has passed. -/
  late : ∀ {call place start sent time}, TriggeredAt events call place start →
    SentAt events call sent time → place < sent ∧ start + debounce ≤ time
  /-- The counter shows its ticket then: no call was triggered in between, or 2^64 were, or a
  multiple of them. -/
  rounds : ∀ {call place start sent time}, TriggeredAt events call place start →
    SentAt events call sent time → 2 ^ 64 ∣ triggers (stepsBetween events place sent)
  /-- If the counter has not come round, no call was triggered in between. -/
  alone : ∀ {call place start sent time}, TriggeredAt events call place start →
    SentAt events call sent time → FewBetween events place sent →
    ∀ other between t, place < between → between < sent → ¬ TriggeredAt events other between t
  /-- Then whoever is triggered later and sends as well is triggered the debounce after that call,
  and after its request. -/
  apart : ∀ {first place start sent time second place' start' sent' time'},
    TriggeredAt events first place start → SentAt events first sent time →
    FewBetween events place sent →
    TriggeredAt events second place' start' → SentAt events second sent' time' →
    place < place' → start + debounce ≤ start' ∧ sent < place'
  /-- And of a burst only the last call sends. -/
  burst : ∀ {calls}, Burst debounce events calls → ∀ call ∈ calls, ∀ {place start sent time},
    TriggeredAt events call place start → SentAt events call sent time →
    FewBetween events place sent → calls.getLast? = some call

theorem Clocked.time_le (clocked : Clocked debounce events g) {a b : TimedStep ρ}
    (atPlace : events[place]? = some a) (atLater : events[place']? = some b)
    (less : place < place') : a.time ≤ b.time := by
  obtain ⟨inside, rfl⟩ := List.getElem?_eq_some_iff.mp atPlace
  obtain ⟨laterInside, rfl⟩ := List.getElem?_eq_some_iff.mp atLater
  exact List.pairwise_iff_getElem.mp clocked.ascending place place' inside laterInside less

variable {sent start start' : Nat}

theorem SentAt.triggered (sends : SentAt events call sent time) :
    ∃ place start, place < sent ∧ TriggeredAt events call place start := by
  obtain ⟨m, -, run, waits, -⟩ := sends.exists_grant
  have known := lt_length_of_phase? waits
  rw [length_calls_eq run] at known
  exact exists_triggeredAt known

/-- A request is sent no earlier than the debounce after the trigger of its call. -/
theorem Clocked.late (clocked : Clocked debounce events g)
    (triggered : TriggeredAt events call place start) (sends : SentAt events call sent time) :
    start + debounce ≤ time := by
  obtain ⟨m, found, run, waits, -⟩ := sends.exists_grant
  obtain ⟨fired, firedTime, less, timer⟩ := exists_timer run waits
  exact (clocked.delayed triggered timer).trans (clocked.time_le timer found less)

section Sends

variable (triggered : TriggeredAt events call place start)
include triggered

theorem TriggeredAt.triggers_before (less : place < later) :
    triggers (stepsBefore events later) =
      call + 1 + triggers (stepsBetween events place later) := by
  have split : stepsBefore events later =
      stepsBefore events (place + 1) ++ stepsBetween events place later := by
    rw [stepsBefore, stepsBefore, stepsBetween, ← List.map_append]
    conv_lhs => rw [← List.take_append_drop (place + 1) (events.take later)]
    rw [List.take_take, Nat.min_eq_left less]
  rw [split, triggers, List.countP_append]
  exact congrArg (· + _) triggered.triggers_succ

variable (sends : SentAt events call sent time)
include sends

theorem TriggeredAt.lt_sent : place < sent := by
  obtain ⟨place', start', before, again⟩ := sends.triggered
  rwa [(triggered.unique again).1]

/-- A request is sent when the counter shows the ticket of its call, be it again. -/
theorem TriggeredAt.rounds : 2 ^ 64 ∣ triggers (stepsBetween events place sent) := by
  obtain ⟨m, -, run, waits, fresh⟩ := sends.exists_grant
  have shown := ((Numbered.of_run? run).isOvertaken_eq_false_iff_mod
    (lt_length_of_phase? waits)).mp fresh
  rw [length_calls_eq run, triggered.triggers_before (triggered.lt_sent sends)] at shown
  have size : UInt64.size = 2 ^ 64 := rfl
  rw [size] at shown
  omega

variable (few : FewBetween events place sent)
include few

/-- Unless the counter has come round, whoever is triggered after a call that sends is triggered
after its request. -/
theorem TriggeredAt.sent_lt (newer : TriggeredAt events other place' start')
    (less : place < place') : sent < place' := by
  have still := Nat.eq_zero_of_dvd_of_lt (triggered.rounds sends) few
  have counted := triggered.triggers_before (triggered.lt_sent sends)
  obtain ⟨m, found, -⟩ := sends.exists_grant
  rcases Nat.lt_trichotomy place' sent with before | rfl | after
  · have more := triggers_stepsBefore_mono events (Nat.succ_le_of_lt before)
    rw [newer.triggers_succ, counted, still] at more
    have order := triggered.lt newer less
    omega
  · have step := found.symm.trans newer.step
    cases step
  · exact after

/-- So it is triggered no earlier than the debounce after that call. -/
theorem Clocked.apart (clocked : Clocked debounce events g)
    (newer : TriggeredAt events other place' start') (less : place < place') :
    start + debounce ≤ start' ∧ sent < place' := by
  have after := triggered.sent_lt sends few newer less
  obtain ⟨m, found, -⟩ := sends.exists_grant
  exact ⟨(clocked.late triggered sends).trans (clocked.time_le found newer.step after), after⟩

/-- Of a burst only the last call sends: any other one is overtaken before its timer fires. -/
theorem Clocked.burst (clocked : Clocked debounce events g) {calls : List Nat}
    (burst : Burst debounce events calls) (mem : call ∈ calls) : calls.getLast? = some call := by
  induction calls with
  | nil => cases mem
  | cons first rest ih =>
    cases rest with
    | nil => rw [List.getLast?_singleton, List.mem_singleton.mp mem]
    | cons next rest =>
      obtain ⟨⟨place', start', place'', start'', again, newer, less, soon⟩, chain⟩ :=
        List.isChain_cons_cons.mp burst
      rcases List.mem_cons.mp mem with rfl | mem
      · obtain ⟨rfl, rfl⟩ := triggered.unique again
        have far := (clocked.apart triggered sends few newer less).1
        omega
      · rw [List.getLast?_cons_cons]
        exact ih chain mem

end Sends

/-- The requests of every run under a clock are spaced by the debounce, in whatever order timers
fire, turns are given, the catalog answers and calls are dropped. -/
theorem spaced_of_clocked (clocked : Clocked debounce events g) : Spaced debounce events where
  triggered sends := sends.triggered
  late triggered sends := ⟨triggered.lt_sent sends, clocked.late triggered sends⟩
  rounds triggered sends := triggered.rounds sends
  alone triggered sends few _ _ _ less before newer :=
    Nat.lt_asymm before (triggered.sent_lt sends few newer less)
  apart triggered sends few newer _ less := clocked.apart triggered sends few newer less
  burst burst _ mem _ _ _ _ triggered sends few := clocked.burst triggered sends few burst mem

/-- The second call overtakes the first one, and the third one is triggered while it searches. -/
def twoRequests : List (TimedStep Nat) :=
  [⟨0, .trigger⟩, ⟨5, .trigger⟩, ⟨10, .timer 0⟩, ⟨15, .timer 1⟩, ⟨15, .grant 1⟩, ⟨16, .trigger⟩,
    ⟨18, .answer 1 7⟩, ⟨26, .timer 2⟩, ⟨26, .grant 2⟩]

theorem twoRequests_spaced :
    (∃ g, Clocked 10 twoRequests g) ∧ SentAt twoRequests 1 4 15 ∧ SentAt twoRequests 2 8 26 ∧
      FewBetween twoRequests 1 4 ∧ FewBetween twoRequests 5 8 ∧ Spaced 10 twoRequests := by
  have clocked : Clocked 10 twoRequests
      ⟨3, [⟨1, .superseded⟩, ⟨2, .answered 7⟩, ⟨3, .searching⟩], some 2, [], [1, 2]⟩ := by
    refine ⟨rfl, by decide, fun {call place start fired time} triggered found => ?_⟩
    have mem := List.mem_of_getElem? found
    simp only [twoRequests, List.mem_cons, TimedStep.mk.injEq, reduceCtorEq, GateStep.timer.injEq,
      and_false, false_or, or_false, List.not_mem_nil] at mem
    rcases mem with ⟨rfl, rfl⟩ | ⟨rfl, rfl⟩ | ⟨rfl, rfl⟩
    · obtain ⟨-, rfl⟩ := triggered.unique (⟨rfl, rfl⟩ : TriggeredAt twoRequests 0 0 0)
      decide
    · obtain ⟨-, rfl⟩ := triggered.unique (⟨rfl, rfl⟩ : TriggeredAt twoRequests 1 1 5)
      decide
    · obtain ⟨-, rfl⟩ := triggered.unique (⟨rfl, rfl⟩ : TriggeredAt twoRequests 2 5 16)
      decide
  have few (place later : Nat) : FewBetween twoRequests place later :=
    fewBetween_of_few (by decide)
  exact ⟨⟨_, clocked⟩, ⟨_, _, _, rfl, rfl, rfl, rfl⟩, ⟨_, _, _, rfl, rfl, rfl, rfl⟩, few 1 4,
    few 5 8, spaced_of_clocked clocked⟩

/-! ### A counter that comes round -/

/-- A call that stays in time has its turn as soon as nobody holds it. -/
theorem exists_turn {m : Gate ρ} (debounces : m.phase? call = some .debouncing)
    (fresh : m.isOvertaken call = false) (free : m.holder = none) (answer : ρ) :
    ∃ waiting sending rested, m.step? (.timer call) = some waiting ∧
      waiting.step? (.grant call) = some sending ∧
      sending.requests = waiting.requests ++ [call] ∧
      sending.step? (.answer call answer) = some rested ∧ rested.holder = none ∧
      (∀ other, call ≠ other → rested.phase? other = m.phase? other) ∧
      ∀ other, rested.isOvertaken other = m.isOvertaken other := by
  have waits : (m.wait call).phase? call = some .waiting :=
    phase?_setPhase_self m call .waiting debounces
  have searches : (((m.wait call).leave call).send call).phase? call = some .searching :=
    phase?_setPhase_self _ call .searching waits
  have stillFresh : (m.wait call).isOvertaken call = false := by
    rwa [isOvertaken, ticket?_wait]
  refine ⟨_, _, _, step?_eq_some_iff.mpr (.wait debounces fresh),
    step?_eq_some_iff.mpr (.send waits free stillFresh), rfl,
    step?_eq_some_iff.mpr (.answer answer searches), by simp, fun other different => ?_,
    fun other => ?_⟩
  · rw [phase?_receive, phase?_setPhase_of_ne _ _ different, phase?_send,
      phase?_setPhase_of_ne _ _ different, phase?_leave, phase?_wait,
      phase?_setPhase_of_ne _ _ different]
  · rw [isOvertaken, ticket?_receive, ticket?_send, ticket?_leave, ticket?_wait]
    rfl

/-- Calls that are triggered one after the other all wait for their timers. -/
theorem exists_run_triggers (n : Nat) : ∃ m : Gate ρ,
    initial.run? (List.replicate n .trigger) = some m ∧ m.holder = none ∧
      ∀ call < n, m.phase? call = some .debouncing := by
  induction n with
  | zero => exact ⟨initial, rfl, rfl, fun _ less => absurd less (Nat.not_lt_zero _)⟩
  | succ n ih =>
    obtain ⟨m, run, free, debounce⟩ := ih
    have length : m.calls.length = n := by
      rw [length_calls_eq run, triggers, List.countP_replicate]
      rfl
    refine ⟨m.trigger, ?_, free, fun call less => ?_⟩
    · rw [List.replicate_succ', run?_append, run]
      rfl
    · rw [phase?_trigger]
      split
      case isTrue => rfl
      case isFalse other => exact debounce call (by omega)

/-- The timer of a call fires, it has its turn, and is answered. -/
def turn (time call : Nat) : List (TimedStep Nat) :=
  [⟨time, .timer call⟩, ⟨time, .grant call⟩, ⟨time, .answer call 7⟩]

/-- So many calls follow a first one at once. Then the first and the last one have their turns. -/
def comingRound (n : Nat) : List (TimedStep Nat) :=
  List.replicate (n + 1) ⟨0, .trigger⟩ ++ (turn 1 0 ++ turn 2 n)

section ComingRound

variable {n : Nat}

theorem stepsBefore_comingRound (inside : place ≤ n + 1) :
    stepsBefore (comingRound n) place = List.replicate place .trigger := by
  rw [stepsBefore, comingRound, List.take_append_of_le_length (by simpa), List.take_replicate,
    List.map_replicate, Nat.min_eq_left inside]

theorem triggeredAt_comingRound (inside : call ≤ n) :
    TriggeredAt (comingRound n) call call 0 := by
  constructor
  case step =>
    rw [comingRound, List.getElem?_append_left (by simp; omega), List.getElem?_replicate,
      if_pos (Nat.lt_succ_of_le inside)]
  case number =>
    rw [stepsBefore_comingRound (Nat.le_succ_of_le inside), triggers, List.countP_replicate]
    rfl

/-- Behind the triggers the two turns stand. -/
theorem getElem?_comingRound (place : Nat) :
    (comingRound n)[n + 1 + place]? = (turn 1 0 ++ turn 2 n)[place]? := by
  rw [comingRound, List.getElem?_append_right (by simp), List.length_replicate,
    Nat.add_sub_cancel_left]

theorem stepsBefore_turns (place : Nat) : stepsBefore (comingRound n) (n + 1 + place) =
    List.replicate (n + 1) .trigger ++ ((turn 1 0 ++ turn 2 n).take place).map (·.step) := by
  rw [stepsBefore, comingRound, List.take_append, List.take_of_length_le (by simp),
    List.length_replicate, Nat.add_sub_cancel_left, List.map_append, List.map_replicate]

theorem time_comingRound {e : TimedStep Nat} (mem : e ∈ comingRound n) :
    (e.step.isTrigger = true → e.time = 0) ∧ (e.step.isTrigger = false → 0 < e.time) := by
  simp only [comingRound, turn, List.mem_append, List.mem_replicate, List.mem_cons,
    List.not_mem_nil, or_false] at mem
  rcases mem with ⟨-, rfl⟩ | (rfl | rfl | rfl) | rfl | rfl | rfl <;>
    simp [GateStep.isTrigger]

/-- With 2^64 calls in between the first call and the last one both send. -/
theorem clocked_comingRound (positive : 0 < n) (round : 2 ^ 64 ∣ n) :
    (∃ g, Clocked 1 (comingRound n) g) ∧ SentAt (comingRound n) 0 (n + 2) 1 ∧
      SentAt (comingRound n) n (n + 5) 2 := by
  obtain ⟨m, run, free, debounce⟩ := exists_run_triggers (ρ := Nat) (n + 1)
  have length : m.calls.length = n + 1 := by
    rw [length_calls_eq run, triggers, List.countP_replicate]
    rfl
  have fresh (call : Nat) (shown : call = 0 ∨ call = n) : m.isOvertaken call = false := by
    have size : UInt64.size = 2 ^ 64 := rfl
    rw [(Numbered.of_run? run).isOvertaken_eq_false_iff_mod (by omega), length, size]
    omega
  obtain ⟨waiting, sending, rested, timer, grant, sends, answer, free', phases, overtaken⟩ :=
    exists_turn (debounce 0 (Nat.succ_pos n)) (fresh 0 (.inl rfl)) free 7
  have debounces : rested.phase? n = some .debouncing := by
    rw [phases n (Nat.ne_of_lt positive), debounce n (Nat.lt_succ_self n)]
  obtain ⟨waiting', sending', rested', timer', grant', sends', answer', -⟩ :=
    exists_turn debounces (by rw [overtaken, fresh n (.inr rfl)]) free' 7
  refine ⟨⟨rested', ?_, ?_, fun {call place start fired time} triggered found => ?_⟩, ?_, ?_⟩
  · show initial.run? ((comingRound n).map (·.step)) = some rested'
    rw [comingRound, List.map_append, List.map_replicate, run?_append, run]
    simp only [turn, List.cons_append, List.nil_append, List.map_cons, List.map_nil,
      Option.bind_some, run?_cons, timer, grant, answer, timer', grant', answer', run?]
  · refine List.pairwise_append.mpr ⟨List.pairwise_replicate.mpr (.inr (Nat.le_refl 0)),
      by simp [turn], fun first mem second _ => ?_⟩
    rw [List.eq_of_mem_replicate mem]
    exact Nat.zero_le _
  · have atZero := (time_comingRound (List.mem_of_getElem? triggered.step)).1 rfl
    have later := (time_comingRound (List.mem_of_getElem? found)).2 rfl
    dsimp only at atZero later
    omega
  · refine ⟨.grant 0, waiting, sending, getElem?_comingRound 1, ?_, grant, sends⟩
    rw [stepsBefore_turns 1, run?_append, run]
    exact congrArg (Option.bind · some) timer
  · refine ⟨.grant n, waiting', sending', getElem?_comingRound 4, ?_, grant', sends'⟩
    rw [stepsBefore_turns 4, run?_append, run]
    simp only [turn, List.cons_append, List.nil_append, List.take_succ_cons, List.take_zero,
      List.map_cons, List.map_nil, Option.bind_some, run?_cons, timer, grant, answer, timer', run?]

/-- If 2^64 calls follow a first one before its timer fires, it still sends, and so does the last
one of them. So calls are triggered between a trigger and its request, two calls that send are
triggered at once, and a call sends that is not the last one of its burst. -/
theorem not_spaced_comingRound :
    (∃ g, Clocked 1 (comingRound (2 ^ 64)) g) ∧
      (∃ call place start sent time other between t,
        TriggeredAt (comingRound (2 ^ 64)) call place start ∧
        SentAt (comingRound (2 ^ 64)) call sent time ∧
        TriggeredAt (comingRound (2 ^ 64)) other between t ∧ place < between ∧ between < sent) ∧
      (∃ first place start sent time second place' start' sent' time',
        TriggeredAt (comingRound (2 ^ 64)) first place start ∧
        SentAt (comingRound (2 ^ 64)) first sent time ∧
        TriggeredAt (comingRound (2 ^ 64)) second place' start' ∧
        SentAt (comingRound (2 ^ 64)) second sent' time' ∧
        place < place' ∧ start' < start + 1 ∧ place' < sent) ∧
      ∃ calls call sent time, Burst 1 (comingRound (2 ^ 64)) calls ∧ call ∈ calls ∧
        SentAt (comingRound (2 ^ 64)) call sent time ∧ calls.getLast? ≠ some call := by
  have positive : 0 < 2 ^ 64 := by decide
  obtain ⟨clocked, sends, sendsLast⟩ := clocked_comingRound positive (Nat.dvd_refl _)
  have triggered := triggeredAt_comingRound (Nat.zero_le (2 ^ 64))
  have triggeredLast := triggeredAt_comingRound (Nat.le_refl (2 ^ 64))
  have before : 2 ^ 64 < 2 ^ 64 + 2 := Nat.lt_add_of_pos_right (by decide)
  refine ⟨clocked, ?_, ?_, ?_⟩
  · exact ⟨0, 0, 0, _, 1, _, _, 0, triggered, sends, triggeredLast, positive, before⟩
  · exact ⟨0, 0, 0, _, 1, _, _, 0, _, 2, triggered, sends, triggeredLast, sendsLast, positive,
      Nat.zero_lt_one, before⟩
  · have burst : Burst 1 (comingRound (2 ^ 64)) [0, 2 ^ 64] := List.isChain_pair.mpr
      ⟨0, 0, _, 0, triggered, triggeredLast, positive, Nat.zero_lt_one⟩
    exact ⟨_, 0, _, 1, burst, List.mem_cons_self, sends, by decide⟩

end ComingRound

end Gate

end Footprint
