import Footprint.Search.Gate

/-!
The gate under a clock.

A plan says when calls are triggered, how long the catalog takes for each and what it answers, and
when a call is dropped. `Schedule.run` plays the plan in milliseconds: it takes the earliest
event, makes the gate's step, and gives the turn to waiting calls as long as it is free. Of events
of one millisecond, answers come first, then timers, drops and triggers.
-/

namespace Footprint

/-- A planned call. -/
structure PlannedCall (ρ : Type) where
  start : Nat
  latency : Nat
  answer : ρ
  dropAt : Option Nat
deriving Repr

/-- A gate at a moment of its schedule. -/
structure Schedule (ρ : Type) where
  gate : Gate ρ
  /-- When the requests of the gate were sent. -/
  sentAt : List Nat
  /-- When each call ended, as far as it has. -/
  endedAt : List (Option Nat)
  /-- The most searches that were outstanding at a time. -/
  peak : Nat
deriving Repr

namespace Schedule

variable {ρ : Type}

/-- An event: its time, its rank among those of the same time, and the step it makes. -/
structure Event (ρ : Type) where
  time : Nat
  rank : Nat
  step : GateStep ρ

/-- The schedule before any call. -/
def initial : Schedule ρ := ⟨Gate.initial, [], [], 0⟩

/-- When the request of a call was sent. -/
def sentTime (s : Schedule ρ) (call : Nat) : Nat :=
  ((s.gate.requests.zip s.sentAt).lookup call).getD 0

/-- The events that await a call that stands in a phase. -/
def callEvents (debounce : Nat) (s : Schedule ρ) (call : Nat) (plan : PlannedCall ρ)
    (phase : Phase ρ) : List (Event ρ) :=
  let next := match phase with
    | .debouncing => [⟨plan.start + debounce, 1, .timer call⟩]
    | .searching => [⟨s.sentTime call + plan.latency, 0, .answer call plan.answer⟩]
    | _ => []
  let drop := match plan.dropAt with
    | some time => if phase.isPending then [⟨max time plan.start, 2, .drop call⟩] else []
    | none => []
  next ++ drop

/-- The events that can come next. -/
def events (debounce : Nat) (plans : List (PlannedCall ρ)) (s : Schedule ρ) : List (Event ρ) :=
  let called := ((plans.zip s.gate.phases).zipIdx).flatMap fun ((plan, phase), call) =>
    callEvents debounce s call plan phase
  let trigger := match plans[s.gate.phases.length]? with
    | some plan => [⟨plan.start, 3, .trigger⟩]
    | none => []
  called ++ trigger

/-- Whether an event comes before another one. -/
def Event.before (a b : Event ρ) : Bool := a.time < b.time || (a.time == b.time && a.rank < b.rank)

/-- The first of the earliest events. -/
def earliest? : List (Event ρ) → Option (Event ρ)
  | [] => none
  | e :: rest =>
    match earliest? rest with
    | some other => if other.before e then some other else some e
    | none => some e

/-- Give the turn to waiting calls, at most `count` of them, as long as it is free. -/
def settle (g : Gate ρ) : (count : Nat) → Gate ρ
  | 0 => g
  | count + 1 =>
    match g.queue with
    | call :: _ =>
      match g.step? (.grant call) with
      | some next => settle next count
      | none => g
    | [] => g

/-- Record what has happened at `time`. -/
def record (s : Schedule ρ) (time : Nat) (g : Gate ρ) : Schedule ρ :=
  { gate := g
    sentAt := s.sentAt ++ List.replicate (g.requests.length - s.sentAt.length) time
    endedAt := g.phases.zipIdx.map fun (phase, call) =>
      if phase.isPending then none else some (((s.endedAt[call]?).join).getD time)
    peak := max s.peak g.active }

/-- Play at most `count` events of a plan. -/
def play (debounce : Nat) (plans : List (PlannedCall ρ)) (s : Schedule ρ) :
    (count : Nat) → Schedule ρ
  | 0 => s
  | count + 1 =>
    match earliest? (events debounce plans s) with
    | none => s
    | some event =>
      match s.gate.step? event.step with
      | none => s
      | some g => play debounce plans (s.record event.time (settle g g.queue.length)) count

/-- Play a whole plan. A call is triggered once, and its timer, its answer and its drop come at
most once each. -/
def run (debounce : Nat) (plans : List (PlannedCall ρ)) : Schedule ρ :=
  play debounce plans initial (4 * plans.length)

end Schedule

end Footprint
