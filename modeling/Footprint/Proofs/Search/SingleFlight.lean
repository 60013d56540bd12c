import Footprint.Proofs.Search.Run

/-!
Single flight: whatever happens to a gate, at most one search is outstanding.

The turn is held by the call that searches, so two searches would be two holders. A request is sent
by a waiting call that is the last one, so it is newer than all that have sent theirs.

* `Gate.singleFlight`: in every state that a run of fewer than 2^64 triggers reaches there is at
  most one search, the turn is held exactly for it, and requests are sent once each, in the order
  of tickets and never for a call that has ended.
-/

namespace Footprint

/-- Whether a call that stands there can have sent its request. -/
def Phase.mayHaveSent {ρ : Type} : Phase ρ → Bool
  | .searching | .answered _ | .dropped => true
  | .debouncing | .waiting | .superseded => false

namespace Gate

variable {ρ : Type} {g next later : Gate ρ} {s : GateStep ρ} {steps : List (GateStep ρ)}
  {call : Nat} {phase : Phase ρ}

/-! ### The turn and the queue -/

/-- The turn is held by the call that searches, and the queue has the calls that wait. -/
structure Exclusive (g : Gate ρ) : Prop where
  holder : ∀ call, g.holder = some call ↔ g.phase? call = some .searching
  queue : ∀ call, call ∈ g.queue ↔ g.phase? call = some .waiting

theorem Exclusive.initial : (Gate.initial : Gate ρ).Exclusive := by
  constructor <;> simp [Gate.initial, phase?]

theorem Exclusive.step (exclusive : g.Exclusive) (moves : g.Moves s next) : next.Exclusive := by
  obtain ⟨holder, queue⟩ := exclusive
  cases moves with
  | trigger =>
    have none : g.phase? g.calls.length = none := phase?_eq_none_iff.mpr (Nat.le_refl _)
    constructor <;> grind
  | expire debounces stale => constructor <;> grind
  | wait debounces fresh => constructor <;> grind
  | yield waits free stale => constructor <;> grind
  | send waits free fresh => constructor <;> grind
  | answer answer searches => constructor <;> grind
  | drop stands pending => constructor <;> grind

theorem Exclusive.of_run? (run : Gate.initial.run? steps = some g) : g.Exclusive :=
  run_induction run .initial fun _ _ _ => .step

theorem countP_le_one {α : Type} {p : α → Bool} {l : List α}
    (unique : ∀ (i j : Nat) (a b : α), l[i]? = some a → l[j]? = some b → p a → p b → i = j) :
    l.countP p ≤ 1 := by
  induction l with
  | nil => simp
  | cons x rest ih =>
    cases chosen : p x with
    | true =>
      have none : rest.countP p = 0 := by
        rw [List.countP_eq_zero]
        intro y mem other
        obtain ⟨j, found⟩ := List.mem_iff_getElem?.mp mem
        have := unique 0 (j + 1) x y rfl (by simpa using found) chosen other
        omega
      have counted := List.countP_cons_of_pos (l := rest) chosen
      omega
    | false =>
      rw [List.countP_cons_of_neg (by simp [chosen])]
      apply ih
      intro i j a b atI atJ chosenI chosenJ
      have := unique (i + 1) (j + 1) a b (by simpa using atI) (by simpa using atJ) chosenI chosenJ
      omega

theorem Exclusive.active_le_one (exclusive : g.Exclusive) : g.active ≤ 1 := by
  apply countP_le_one
  intro i j a b atI atJ searchesI searchesJ
  have holds : ∀ {call : Nat} {phase : Phase ρ}, g.phases[call]? = some phase →
      phase.isSearching = true → g.holder = some call := by
    intro call phase stands searches
    rw [exclusive.holder, phase?, ← List.getElem?_map]
    cases phase with
    | searching => exact stands
    | _ => cases searches
  have sameHolder := (holds atI searchesI).symm.trans (holds atJ searchesJ)
  exact Option.some.inj sameHolder

/-! ### The requests -/

theorem Moves.mayHaveSent (moves : g.Moves s next) (stands : g.phase? call = some phase)
    (may : phase.mayHaveSent = true) :
    ∃ after, next.phase? call = some after ∧ after.mayHaveSent = true := by
  rcases moves.changes call with same | changes
  · exact ⟨phase, by rw [same, stands], may⟩
  · rw [stands] at changes
    generalize next.phase? call = after at changes
    cases changes with
    | expires | waits | yields | searches => cases may
    | ends answer => exact ⟨.answered answer, rfl, rfl⟩
    | drops => exact ⟨.dropped, rfl, rfl⟩

theorem Moves.requests_prefix (moves : g.Moves s next) : g.requests <+: next.requests := by
  rcases moves.requests with same | ⟨sender, -, -, -, sends⟩
  · exact ⟨[], by rw [List.append_nil, same]⟩
  · exact ⟨[sender], sends.symm⟩

/-- Requests were sent by calls that search, were answered or dropped, the older first. -/
structure Sent (g : Gate ρ) : Prop where
  stands : ∀ call ∈ g.requests, ∃ phase, g.phase? call = some phase ∧ phase.mayHaveSent = true
  searching : ∀ call, g.phase? call = some .searching → call ∈ g.requests
  ordered : g.requests.Pairwise (· < ·)

theorem Sent.initial : (Gate.initial : Gate ρ).Sent := by
  constructor <;> simp [Gate.initial, phase?]

theorem Sent.lt_length (sent : g.Sent) (mem : call ∈ g.requests) : call < g.calls.length := by
  obtain ⟨phase, stands, -⟩ := sent.stands call mem
  exact lt_length_of_phase? stands

theorem Sent.not_mem (sent : g.Sent) (stands : g.phase? call = some phase)
    (never : phase.mayHaveSent = false) : call ∉ g.requests := by
  intro mem
  obtain ⟨sender, found, may⟩ := sent.stands call mem
  rw [stands] at found
  cases found
  rw [never] at may
  cases may

theorem Sent.append (sent : g.Sent) (numbered : g.Numbered) (few : g.calls.length < UInt64.size)
    (waits : g.phase? call = some .waiting) (fresh : g.isOvertaken call = false) :
    (g.requests ++ [call]).Pairwise (· < ·) := by
  have last := (numbered.isOvertaken_eq_false_iff few (lt_length_of_phase? waits)).mp fresh
  refine List.pairwise_append.mpr ⟨sent.ordered, List.pairwise_singleton _ _, ?_⟩
  intro older mem newest isCall
  cases List.mem_singleton.mp isCall
  have known := sent.lt_length mem
  have different : older ≠ call := by
    rintro rfl
    exact sent.not_mem waits rfl mem
  omega

theorem Sent.step (sent : g.Sent) (numbered : g.Numbered) (few : g.calls.length < UInt64.size)
    (moves : g.Moves s next) : next.Sent := by
  refine ⟨fun call mem => ?_, fun call searches => ?_, ?_⟩
  · have earlier (mem : call ∈ g.requests) :
        ∃ phase, next.phase? call = some phase ∧ phase.mayHaveSent = true := by
      obtain ⟨phase, stands, may⟩ := sent.stands call mem
      exact moves.mayHaveSent stands may
    rcases moves.requests with same | ⟨sender, -, -, searches, sends⟩
    · exact earlier (same ▸ mem)
    · rw [sends] at mem
      rcases List.mem_append.mp mem with mem | isSender
      · exact earlier mem
      · cases List.mem_singleton.mp isSender
        exact ⟨.searching, searches, rfl⟩
  · by_cases before : g.phase? call = some .searching
    · exact moves.requests_prefix.subset (sent.searching call before)
    · obtain ⟨rfl, -, fresh⟩ := moves.searches before searches
      rw [moves.eq_send fresh, requests_send]
      exact List.mem_append_right _ List.mem_cons_self
  · rcases moves.requests with same | ⟨sender, waits, fresh, -, sends⟩
    · rw [same]
      exact sent.ordered
    · rw [sends]
      exact sent.append numbered few waits fresh

theorem Sent.of_run? (run : Gate.initial.run? steps = some g) (few : triggers steps < 2 ^ 64) :
    g.Sent := by
  have length := length_calls_lt run few
  -- The counter never goes back, so a bound on the calls at the end holds on the way as well.
  refine (run_induction (P := fun m => m.Numbered ∧ (m.calls.length < UInt64.size → m.Sent)) run
    ⟨.initial, fun _ => .initial⟩ fun m s next ⟨numbered, sent⟩ moves => ?_).2 length
  refine ⟨numbered.step moves, fun bound => ?_⟩
  have grows := moves.length_calls
  have early : m.calls.length < UInt64.size := by omega
  exact (sent early).step numbered early moves

/-! ### Calls that have ended -/

/-- A call that has ended stays as it is and sends no request any more. -/
theorem requests_of_ended (run : g.run? steps = some later)
    (stands : g.phase? call = some phase) (ended : phase.isPending = false) :
    later.phase? call = some phase ∧ later.requests.count call = g.requests.count call := by
  refine run_induction
    (P := fun m => m.phase? call = some phase ∧ m.requests.count call = g.requests.count call)
    run ⟨stands, rfl⟩ fun m s next ⟨stands, same⟩ moves => ?_
  refine ⟨moves.phase?_of_ended stands ended, ?_⟩
  rcases moves.requests with requests | ⟨other, waits, -, -, requests⟩
  · rw [requests, same]
  · have different : other ≠ call := by
      rintro rfl
      rw [stands] at waits
      cases waits
      cases ended
    rw [requests, List.count_append, same, List.count_cons_of_ne different,
      List.count_nil, Nat.add_zero]

theorem requests_prefix (run : g.run? steps = some later) : g.requests <+: later.requests := by
  refine run_induction (P := fun m => g.requests <+: m.requests) run (List.prefix_refl _) ?_
  intro m s next earlier moves
  exact earlier.trans moves.requests_prefix

/-! ### Single flight -/

/-- What single flight asks of a gate and of all that can still happen to it. -/
structure SingleFlight (g : Gate ρ) : Prop where
  /-- At most one search is outstanding. -/
  one : g.active ≤ 1
  /-- A search is outstanding when its request was sent by a call that is still pending. -/
  outstanding : ∀ call, g.phase? call = some .searching ↔
    call ∈ g.requests ∧ ∃ phase, g.phase? call = some phase ∧ phase.isPending = true
  /-- The turn is held exactly for an outstanding search. -/
  held : ∀ call, g.holder = some call ↔ g.phase? call = some .searching
  /-- The answer of the catalog, an error or not, gives the turn back. -/
  answered : ∀ call, g.holder = some call → ∀ answer, ∃ next,
    g.step? (.answer call answer) = some next ∧ next.holder = none
  /-- Dropping the call that searches gives the turn back. -/
  dropped : ∀ call, g.holder = some call → ∃ next,
    g.step? (.drop call) = some next ∧ next.holder = none
  /-- No call has sent two requests. -/
  once : ∀ call, g.requests.count call ≤ 1
  /-- Requests were sent in the order of tickets. -/
  ordered : g.requests.Pairwise g.Older
  /-- Whatever is sent later comes behind what was sent so far. -/
  logged : ∀ steps later, g.run? steps = some later → g.requests <+: later.requests
  /-- A dropped or superseded call sends nothing from now on. -/
  silent : ∀ call, g.phase? call = some .dropped ∨ g.phase? call = some .superseded →
    ∀ steps later, g.run? steps = some later →
      later.requests.count call = g.requests.count call

theorem Exclusive.answered (exclusive : g.Exclusive) (held : g.holder = some call) (answer : ρ) :
    ∃ next, g.step? (.answer call answer) = some next ∧ next.holder = none := by
  have searches := (exclusive.holder call).mp held
  exact ⟨_, step?_eq_some_iff.mpr (.answer answer searches), by simp [held]⟩

theorem Exclusive.dropped (exclusive : g.Exclusive) (held : g.holder = some call) :
    ∃ next, g.step? (.drop call) = some next ∧ next.holder = none := by
  have searches := (exclusive.holder call).mp held
  exact ⟨_, step?_eq_some_iff.mpr (.drop searches rfl), by simp [held]⟩

theorem Sent.outstanding (sent : g.Sent) : g.phase? call = some .searching ↔
    call ∈ g.requests ∧ ∃ phase, g.phase? call = some phase ∧ phase.isPending = true := by
  constructor
  · intro searches
    exact ⟨sent.searching call searches, .searching, searches, rfl⟩
  · rintro ⟨mem, phase, stands, pending⟩
    obtain ⟨sender, found, may⟩ := sent.stands call mem
    rw [stands] at found
    cases found
    cases phase with
    | searching => exact stands
    | debouncing | waiting | superseded => cases may
    | answered | dropped => cases pending

theorem Sent.pairwise_older (sent : g.Sent) (numbered : g.Numbered)
    (few : g.calls.length < UInt64.size) : g.requests.Pairwise g.Older := by
  refine sent.ordered.imp_of_mem fun {older newer} _ mem less => ?_
  exact (numbered.older_iff few).mpr ⟨less, sent.lt_length mem⟩

/-- At most one search at a time, whatever the order of triggers, timers, turns, answers and
drops. -/
theorem singleFlight (steps : List (GateStep ρ)) (g : Gate ρ)
    (run : Gate.initial.run? steps = some g) (few : triggers steps < 2 ^ 64) :
    g.SingleFlight := by
  have numbered := Numbered.of_run? run
  have exclusive := Exclusive.of_run? run
  have sent := Sent.of_run? run few
  have length := length_calls_lt run few
  refine
    { one := exclusive.active_le_one
      outstanding := fun _ => sent.outstanding
      held := exclusive.holder
      answered := fun _ held answer => exclusive.answered held answer
      dropped := fun _ held => exclusive.dropped held
      once := fun call => ?_
      ordered := sent.pairwise_older numbered length
      logged := fun steps later run => requests_prefix run
      silent := fun call ended steps later run => ?_ }
  · have distinct : g.requests.Nodup := sent.ordered.imp Nat.ne_of_lt
    exact List.nodup_iff_count.mp distinct call
  · rcases ended with dropped | superseded
    · exact (requests_of_ended run dropped rfl).2
    · exact (requests_of_ended run superseded rfl).2

/-- The first of two calls is dropped while it searches, and the second one takes the turn. -/
def dropAndSearchAgain : List (GateStep (Except String Nat)) :=
  [.trigger, .timer 0, .grant 0, .drop 0, .trigger, .timer 1, .grant 1]

theorem dropAndSearchAgain_singleFlight : triggers dropAndSearchAgain < 2 ^ 64 ∧
    ∃ g, Gate.initial.run? dropAndSearchAgain = some g ∧ g.holder = some 1 ∧ g.SingleFlight := by
  have few : triggers dropAndSearchAgain < 2 ^ 64 := by decide
  have run : Gate.initial.run? dropAndSearchAgain =
      some ⟨2, [⟨1, .dropped⟩, ⟨2, .searching⟩], some 1, [], [0, 1]⟩ := rfl
  exact ⟨few, _, run, rfl, singleFlight dropAndSearchAgain _ run few⟩

end Gate

end Footprint
