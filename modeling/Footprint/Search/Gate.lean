/-!
The search gate: at most one search at a time, and only the latest of a burst.

Each trigger starts a call, which takes the next ticket of a 64-bit counter. A call waits until its
debounce timer fires, then for its turn, and then sends its request. It is superseded when the
counter has moved on by the time its timer fires or its turn comes. A call can be dropped as long as
it has not finished.

`Gate.step?` is one step of the gate; what runs between two waits of a call is one step. The gate
records who holds the turn, who waits for it, and whose requests were sent.
-/

namespace Footprint

/-- Where a call stands; `ρ` are the answers of the catalog. -/
inductive Phase (ρ : Type) where
  | debouncing
  | waiting
  | searching
  | superseded
  | answered (answer : ρ)
  | dropped
deriving DecidableEq, Repr

/-- How a call ends that was neither dropped nor failed. -/
inductive SearchOutcome (α : Type) where
  | completed (answer : α)
  | superseded
deriving DecidableEq, Repr

namespace Phase

/-- Whether a call has neither finished nor been dropped. -/
def isPending {ρ : Type} : Phase ρ → Bool
  | .debouncing | .waiting | .searching => true
  | .superseded | .answered _ | .dropped => false

/-- Whether the search of a call is outstanding. -/
def isSearching {ρ : Type} : Phase ρ → Bool
  | .searching => true
  | _ => false

/-- What a call has returned, where the catalog answers with an `α` or an error. -/
def result? {ε α : Type} : Phase (Except ε α) → Option (Except ε (SearchOutcome α))
  | .superseded => some (.ok .superseded)
  | .answered answer => some (answer.map .completed)
  | .debouncing | .waiting | .searching | .dropped => none

theorem result?_of_isPending {ε α : Type} {phase : Phase (Except ε α)}
    (pending : phase.isPending = true) : phase.result? = none := by
  cases phase with
  | debouncing | waiting | searching => rfl
  | superseded | answered | dropped => cases pending

end Phase

/-- A call of the gate. -/
structure GateCall (ρ : Type) where
  ticket : UInt64
  phase : Phase ρ
deriving DecidableEq, Repr

/-- The state of a gate. Calls are known by their places in the order of triggers, from zero. -/
structure Gate (ρ : Type) where
  /-- The ticket that was taken last. -/
  generation : UInt64
  /-- The calls in the order of their triggers. -/
  calls : List (GateCall ρ)
  /-- The call that holds the turn. -/
  holder : Option Nat
  /-- The calls that wait for the turn, first come first. -/
  queue : List Nat
  /-- The calls whose requests were sent, in order. -/
  requests : List Nat
deriving DecidableEq, Repr

/-- What can happen to a gate. -/
inductive GateStep (ρ : Type) where
  /-- A new call starts. -/
  | trigger
  /-- The debounce timer of a call fires. -/
  | timer (call : Nat)
  /-- A waiting call gets its turn. -/
  | grant (call : Nat)
  /-- The catalog answers a call. -/
  | answer (call : Nat) (answer : ρ)
  /-- A call is dropped. -/
  | drop (call : Nat)
deriving DecidableEq, Repr

/-- Whether a step starts a new call. -/
def GateStep.isTrigger {ρ : Type} : GateStep ρ → Bool
  | .trigger => true
  | _ => false

namespace Gate

variable {ρ : Type}

/-- The gate before any call. -/
def initial : Gate ρ := ⟨0, [], none, [], []⟩

/-- Where the calls stand. -/
def phases (g : Gate ρ) : List (Phase ρ) := g.calls.map (·.phase)

/-- Where a call stands, if it has been triggered. -/
def phase? (g : Gate ρ) (call : Nat) : Option (Phase ρ) := (g.calls[call]?).map (·.phase)

/-- What a call has returned. -/
def result? {ε α : Type} (g : Gate (Except ε α)) (call : Nat) :
    Option (Except ε (SearchOutcome α)) :=
  (g.phase? call).bind (·.result?)

/-- The ticket of a call, if it has been triggered. -/
def ticket? (g : Gate ρ) (call : Nat) : Option UInt64 := (g.calls[call]?).map (·.ticket)

/-- Whether the counter has moved on since a call took its ticket. -/
def isOvertaken (g : Gate ρ) (call : Nat) : Bool := g.ticket? call ≠ some g.generation

/-- How many searches are outstanding. -/
def active (g : Gate ρ) : Nat := g.phases.countP (·.isSearching)

/-- The gate with another phase for a call. -/
def setPhase (g : Gate ρ) (call : Nat) (phase : Phase ρ) : Gate ρ :=
  { g with calls := g.calls.modify call fun c => { c with phase := phase } }

/-- Give the turn back, if the call holds it. -/
def release (g : Gate ρ) (call : Nat) : Gate ρ :=
  { g with holder := if g.holder = some call then none else g.holder }

/-- Leave the queue. -/
def leave (g : Gate ρ) (call : Nat) : Gate ρ := { g with queue := g.queue.filter (· ≠ call) }

/-- Start a new call with the next ticket. -/
def trigger (g : Gate ρ) : Gate ρ :=
  { g with
    generation := g.generation + 1
    calls := g.calls ++ [⟨g.generation + 1, .debouncing⟩] }

/-- Wait for the turn. -/
def wait (g : Gate ρ) (call : Nat) : Gate ρ :=
  { g.setPhase call .waiting with queue := g.queue ++ [call] }

/-- Take the turn and send the request. -/
def send (g : Gate ρ) (call : Nat) : Gate ρ :=
  { g.setPhase call .searching with holder := some call, requests := g.requests ++ [call] }

/-- What a call does when its timer fires. -/
def fire (g : Gate ρ) (call : Nat) : Gate ρ :=
  if g.isOvertaken call then g.setPhase call .superseded else g.wait call

/-- What a call does when it gets its turn: a stale one gives it back at once. -/
def enter (g : Gate ρ) (call : Nat) : Gate ρ :=
  if g.isOvertaken call then (g.leave call).setPhase call .superseded
  else (g.leave call).send call

/-- Hand the answer of the catalog on, and give the turn back. -/
def receive (g : Gate ρ) (call : Nat) (answer : ρ) : Gate ρ :=
  (g.setPhase call (.answered answer)).release call

/-- Drop a call, wherever it waits. -/
def cancel (g : Gate ρ) (call : Nat) : Gate ρ :=
  ((g.setPhase call .dropped).leave call).release call

/-- One step of the gate; `none` where the step is not possible. -/
def step? (g : Gate ρ) : GateStep ρ → Option (Gate ρ)
  | .trigger => some g.trigger
  | .timer call =>
    match g.phase? call with
    | some .debouncing => some (g.fire call)
    | _ => none
  | .grant call =>
    match g.phase? call, g.holder with
    | some .waiting, none => some (g.enter call)
    | _, _ => none
  | .answer call answer =>
    match g.phase? call with
    | some .searching => some (g.receive call answer)
    | _ => none
  | .drop call =>
    match g.phase? call with
    | some phase =>
      if phase.isPending then some (g.cancel call) else none
    | none => none

/-- A run of steps; `none` where one of them is not possible. -/
def run? (g : Gate ρ) : List (GateStep ρ) → Option (Gate ρ)
  | [] => some g
  | s :: rest => (g.step? s).bind fun g => g.run? rest

/-! ### What the parts of a step change -/

section Parts

variable (g : Gate ρ) (call other : Nat) (phase : Phase ρ) (answer : ρ)

@[grind =] theorem phase?_setPhase :
    (g.setPhase call phase).phase? other =
      if call = other then (g.phase? other).map fun _ => phase else g.phase? other := by
  simp only [phase?, setPhase, List.getElem?_modify]
  split
  · simp [Function.comp_def]
  · simp

theorem phase?_setPhase_self {before : Phase ρ} (stands : g.phase? call = some before) :
    (g.setPhase call phase).phase? call = some phase := by
  rw [phase?_setPhase, if_pos rfl, stands, Option.map_some]

theorem phase?_setPhase_of_ne {call other : Nat} (different : call ≠ other) :
    (g.setPhase call phase).phase? other = g.phase? other := by
  rw [phase?_setPhase, if_neg different]

@[simp] theorem ticket?_setPhase : (g.setPhase call phase).ticket? other = g.ticket? other := by
  simp only [ticket?, setPhase, List.getElem?_modify]
  split
  · simp [Function.comp_def]
  · simp

@[simp] theorem length_calls_setPhase :
    (g.setPhase call phase).calls.length = g.calls.length := by
  simp [setPhase]

@[simp, grind =] theorem holder_setPhase : (g.setPhase call phase).holder = g.holder := rfl

@[simp, grind =] theorem queue_setPhase : (g.setPhase call phase).queue = g.queue := rfl

@[simp, grind =] theorem requests_setPhase : (g.setPhase call phase).requests = g.requests := rfl

@[simp, grind =] theorem phase?_leave : (g.leave call).phase? other = g.phase? other := rfl

@[simp] theorem ticket?_leave : (g.leave call).ticket? other = g.ticket? other := rfl

@[simp, grind =] theorem holder_leave : (g.leave call).holder = g.holder := rfl

@[simp, grind =] theorem requests_leave : (g.leave call).requests = g.requests := rfl

@[grind =] theorem mem_queue_leave :
    other ∈ (g.leave call).queue ↔ other ∈ g.queue ∧ other ≠ call := by
  simp [leave]

@[grind =] theorem phase?_trigger :
    g.trigger.phase? other =
      if other = g.calls.length then some .debouncing else g.phase? other := by
  simp only [phase?, trigger, List.getElem?_append]
  grind

theorem ticket?_trigger :
    g.trigger.ticket? other =
      if other = g.calls.length then some (g.generation + 1) else g.ticket? other := by
  simp only [ticket?, trigger, List.getElem?_append]
  grind

@[simp, grind =] theorem holder_trigger : g.trigger.holder = g.holder := rfl

@[simp, grind =] theorem queue_trigger : g.trigger.queue = g.queue := rfl

@[simp, grind =] theorem requests_trigger : g.trigger.requests = g.requests := rfl

@[grind =] theorem phase?_wait :
    (g.wait call).phase? other = (g.setPhase call .waiting).phase? other := rfl

@[simp] theorem ticket?_wait : (g.wait call).ticket? other = g.ticket? other :=
  ticket?_setPhase ..

@[simp, grind =] theorem holder_wait : (g.wait call).holder = g.holder := rfl

@[simp, grind =] theorem queue_wait : (g.wait call).queue = g.queue ++ [call] := rfl

@[simp, grind =] theorem requests_wait : (g.wait call).requests = g.requests := rfl

@[grind =] theorem phase?_send :
    (g.send call).phase? other = (g.setPhase call .searching).phase? other := rfl

@[simp] theorem ticket?_send : (g.send call).ticket? other = g.ticket? other :=
  ticket?_setPhase ..

@[simp, grind =] theorem holder_send : (g.send call).holder = some call := rfl

@[simp, grind =] theorem queue_send : (g.send call).queue = g.queue := rfl

@[simp, grind =] theorem requests_send : (g.send call).requests = g.requests ++ [call] := rfl

@[grind =] theorem phase?_receive :
    (g.receive call answer).phase? other = (g.setPhase call (.answered answer)).phase? other := rfl

@[simp] theorem ticket?_receive : (g.receive call answer).ticket? other = g.ticket? other :=
  ticket?_setPhase ..

@[simp, grind =] theorem holder_receive :
    (g.receive call answer).holder = if g.holder = some call then none else g.holder := rfl

@[simp, grind =] theorem queue_receive : (g.receive call answer).queue = g.queue := rfl

@[simp, grind =] theorem requests_receive : (g.receive call answer).requests = g.requests := rfl

@[grind =] theorem phase?_cancel :
    (g.cancel call).phase? other = (g.setPhase call .dropped).phase? other := rfl

@[simp] theorem ticket?_cancel : (g.cancel call).ticket? other = g.ticket? other :=
  ticket?_setPhase ..

@[simp, grind =] theorem holder_cancel :
    (g.cancel call).holder = if g.holder = some call then none else g.holder := rfl

@[simp, grind =] theorem queue_cancel : (g.cancel call).queue = (g.leave call).queue := rfl

@[simp, grind =] theorem requests_cancel : (g.cancel call).requests = g.requests := rfl

end Parts

end Gate

end Footprint
