import Mathlib.Tactic

namespace Foundation.PartialRun

variable {S E : Type}

/-- A run stops without a state when one of its steps has no result. -/
def run (step : S → E → Option S) (state : S) (events : List E) : Option S :=
  events.foldlM step state

section Equations

variable (step : S → E → Option S) (state : S) (event : E) (events later : List E)

@[simp] theorem run_nil : run step state [] = some state := rfl

@[simp] theorem run_cons :
    run step state (event :: events) = (step state event).bind fun next => run step next events := rfl

theorem run_append :
    run step state (events ++ later) = (run step state events).bind fun next => run step next later := by
  simp [run, List.foldlM_append]

theorem run_snoc :
    run step state (events ++ [event]) = (run step state events).bind fun next => step next event := by
  rw [run_append]
  congr 1
  funext next
  simp

end Equations

variable {step : S → E → Option S} {invariant : S → Prop}

/-- A finished run passes through one state before and one state after each of its events. -/
theorem run_split {state final : S} {before after : List E} {event : E}
    (ran : run step state (before ++ event :: after) = some final) :
    ∃ middle next, run step state before = some middle ∧ step middle event = some next ∧
      run step next after = some final := by
  rw [run_append] at ran
  obtain ⟨middle, reached, ran⟩ := Option.bind_eq_some_iff.mp ran
  rw [run_cons] at ran
  obtain ⟨next, stepped, ran⟩ := Option.bind_eq_some_iff.mp ran
  exact ⟨middle, next, reached, stepped, ran⟩

/-- A property that every step keeps holds at the end of every run. -/
theorem run_invariant (keeps : ∀ state event next, invariant state → step state event = some next → invariant next)
    {events : List E} {state final : S} (start : invariant state)
    (ran : run step state events = some final) : invariant final := by
  induction events generalizing state with
  | nil =>
      obtain rfl := Option.some.inj ran
      exact start
  | cons event events ih =>
      obtain ⟨next, stepped, ran⟩ := Option.bind_eq_some_iff.mp ran
      exact ih (keeps state event next start stepped) ran

/-- A run visits its start and the result of each step. -/
def visited (step : S → E → Option S) (state : S) : List E → List S
  | [] => [state]
  | event :: events =>
    state ::
      match step state event with
      | none => []
      | some next => visited step next events

/-- A run takes these steps, each in the state before it. -/
def taken (step : S → E → Option S) (state : S) : List E → List (S × E)
  | [] => []
  | event :: events =>
    match step state event with
    | none => []
    | some next => (state, event) :: taken step next events

theorem start_mem_visited (step : S → E → Option S) (state : S) (events : List E) :
    state ∈ visited step state events := by
  cases events with
  | nil => exact List.mem_singleton_self state
  | cons event events => exact List.mem_cons_self

/-- The visited states are the ends of the first parts of the run. -/
theorem mem_visited_iff {state reached : S} {events : List E} :
    reached ∈ visited step state events ↔
      ∃ earlier later, events = earlier ++ later ∧ run step state earlier = some reached := by
  induction events generalizing state with
  | nil =>
      rw [visited, List.mem_singleton]
      constructor
      · intro same
        exact ⟨[], [], rfl, congrArg some same.symm⟩
      · intro part
        obtain ⟨earlier, later, whole, ran⟩ := part
        obtain ⟨rfl, _⟩ := List.append_eq_nil_iff.mp whole.symm
        exact (Option.some.inj ran).symm
  | cons event events ih =>
      rw [visited, List.mem_cons]
      constructor
      · intro member
        obtain rfl | member := member
        · exact ⟨[], event :: events, rfl, rfl⟩
        · cases stepped : step state event with
          | none =>
              rw [stepped] at member
              contradiction
          | some next =>
              rw [stepped] at member
              obtain ⟨earlier, later, rfl, ran⟩ := ih.mp member
              exact ⟨event :: earlier, later, rfl, by rw [run_cons, stepped, Option.bind_some, ran]⟩
      · intro part
        obtain ⟨earlier, later, whole, ran⟩ := part
        cases earlier with
        | nil => exact Or.inl (Option.some.inj ran).symm
        | cons first earlier =>
            obtain ⟨rfl, rfl⟩ := List.cons.inj whole
            rw [run_cons] at ran
            obtain ⟨next, stepped, ran⟩ := Option.bind_eq_some_iff.mp ran
            rw [stepped]
            exact Or.inr (ih.mpr ⟨earlier, later, rfl, ran⟩)

/-- A taken step goes from one visited state to another. -/
theorem visited_of_taken {state : S} {events : List E} {pair : S × E} (member : pair ∈ taken step state events) :
    ∃ next, step pair.1 pair.2 = some next ∧ pair.1 ∈ visited step state events ∧ next ∈ visited step state events := by
  induction events generalizing state with
  | nil => cases member
  | cons event events ih =>
      rw [taken] at member
      rw [visited]
      cases stepped : step state event with
      | none =>
          rw [stepped] at member
          contradiction
      | some next =>
          rw [stepped] at member
          obtain rfl | member := List.mem_cons.mp member
          · exact ⟨next, stepped, List.mem_cons_self, List.mem_cons_of_mem _ (start_mem_visited step next events)⟩
          · obtain ⟨following, followed, before, after⟩ := ih member
            exact ⟨following, followed, List.mem_cons_of_mem _ before, List.mem_cons_of_mem _ after⟩

/-- A property that every permitted step keeps holds in all visited states of a run of permitted steps. -/
theorem visited_invariant {permitted : S → E → Prop}
    (keeps : ∀ state event next, invariant state → permitted state event → step state event = some next →
      invariant next)
    {events : List E} {state : S} (start : invariant state)
    (allowed : ∀ pair ∈ taken step state events, permitted pair.1 pair.2) :
    ∀ reached ∈ visited step state events, invariant reached := by
  induction events generalizing state with
  | nil =>
      intro reached member
      obtain rfl := List.mem_singleton.mp member
      exact start
  | cons event events ih =>
      intro reached member
      rw [visited] at member
      rw [taken] at allowed
      obtain rfl | member := List.mem_cons.mp member
      · exact start
      · cases stepped : step state event with
        | none =>
            rw [stepped] at member
            contradiction
        | some next =>
            rw [stepped] at member allowed
            have kept := keeps state event next start (allowed _ List.mem_cons_self) stepped
            exact ih kept (fun pair inside => allowed pair (List.mem_cons_of_mem _ inside)) reached member

end Foundation.PartialRun
