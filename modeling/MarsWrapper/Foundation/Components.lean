import MarsWrapper.Foundation.GuardedRun

namespace Foundation.Components

variable {K C E : Type} [DecidableEq K] {key : E → K} {handle : C → E → Option C}

/-- An event changes the component of its key, and the event has no result when this component has none. -/
def step (key : E → K) (handle : C → E → Option C) (state : K → C) (event : E) : Option (K → C) :=
  (handle (state (key event)) event).map fun next => Function.update state (key event) next

/-- These are the events of one component. -/
def own (key : E → K) (component : K) (events : List E) : List E :=
  events.filter fun event => key event = component

theorem own_cons_self (event : E) (events : List E) :
    own key (key event) (event :: events) = event :: own key (key event) events := by
  rw [own, List.filter_cons_of_pos (by simp)]
  rfl

theorem own_cons_of_ne {event : E} {component : K} (different : component ≠ key event) (events : List E) :
    own key component (event :: events) = own key component events := by
  rw [own, List.filter_cons_of_neg (by simpa using different.symm)]
  rfl

/-- A component runs through its own events and through no others. -/
theorem run_own {state final : K → C} {events : List E}
    (ran : PartialRun.run (step key handle) state events = some final) (component : K) :
    PartialRun.run handle (state component) (own key component events) = some (final component) := by
  induction events generalizing state with
  | nil =>
      obtain rfl := Option.some.inj ran
      rfl
  | cons event events ih =>
      rw [PartialRun.run_cons] at ran
      obtain ⟨next, stepped, ran⟩ := Option.bind_eq_some_iff.mp ran
      obtain ⟨value, handled, rfl⟩ := Option.map_eq_some_iff.mp stepped
      have later := ih ran
      by_cases same : component = key event
      · subst same
        rw [Function.update_self] at later
        rw [own_cons_self, PartialRun.run_cons, handled, Option.bind_some, later]
      · rw [Function.update_of_ne same] at later
        rw [own_cons_of_ne same, later]

/-- A guard on the component of each event guards the run of every component. -/
theorem guarded_own {permitted : C → E → Prop} {state final : K → C} {events : List E}
    (guarded : PartialRun.Guarded (fun state event => permitted (state (key event)) event) (step key handle) state events)
    (ran : PartialRun.run (step key handle) state events = some final) (component : K) :
    PartialRun.Guarded permitted handle (state component) (own key component events) := by
  induction events generalizing state with
  | nil => exact trivial
  | cons event events ih =>
      obtain ⟨allowed, later⟩ := guarded
      rw [PartialRun.run_cons] at ran
      obtain ⟨next, stepped, ran⟩ := Option.bind_eq_some_iff.mp ran
      have rest := ih (later next stepped) ran
      obtain ⟨value, handled, rfl⟩ := Option.map_eq_some_iff.mp stepped
      by_cases same : component = key event
      · subst same
        rw [Function.update_self] at rest
        rw [own_cons_self]
        refine ⟨allowed, ?_⟩
        intro value' handled'
        rwa [← Option.some.inj (handled.symm.trans handled')]
      · rw [Function.update_of_ne same] at rest
        rwa [own_cons_of_ne same]

/-- The whole run has a result as soon as every component has one. -/
theorem exists_run {state : K → C} {events : List E}
    (parts : ∀ component, ∃ value, PartialRun.run handle (state component) (own key component events) = some value) :
    ∃ final, PartialRun.run (step key handle) state events = some final := by
  induction events generalizing state with
  | nil => exact ⟨state, rfl⟩
  | cons event events ih =>
      obtain ⟨value, ran⟩ := parts (key event)
      rw [own_cons_self, PartialRun.run_cons] at ran
      obtain ⟨next, handled, ran⟩ := Option.bind_eq_some_iff.mp ran
      rw [PartialRun.run_cons, step, handled, Option.map_some, Option.bind_some]
      apply ih
      intro component
      by_cases same : component = key event
      · subst same
        exact ⟨value, by rw [Function.update_self, ran]⟩
      · obtain ⟨value', ran'⟩ := parts component
        rw [own_cons_of_ne same] at ran'
        exact ⟨value', by rw [Function.update_of_ne same, ran']⟩

/-- Two schedules with the same events for each component have the same result, or both have none. -/
theorem run_eq_of_own {state : K → C} {events others : List E}
    (same : ∀ component, own key component events = own key component others) :
    PartialRun.run (step key handle) state events = PartialRun.run (step key handle) state others := by
  have carried {first second : List E} (same : ∀ component, own key component first = own key component second)
      {final : K → C} (ran : PartialRun.run (step key handle) state first = some final) :
      PartialRun.run (step key handle) state second = some final := by
    have parts (component : K) := run_own ran component
    simp only [same] at parts
    obtain ⟨final', ran'⟩ := exists_run fun component => ⟨final component, parts component⟩
    have equal : final' = final := by
      funext component
      exact Option.some.inj ((run_own ran' component).symm.trans (parts component))
    rw [ran', equal]
  cases ran : PartialRun.run (step key handle) state events with
  | some final => exact (carried same ran).symm
  | none =>
      cases ran' : PartialRun.run (step key handle) state others with
      | none => rfl
      | some final' =>
          rw [carried (fun component => (same component).symm) ran'] at ran
          cases ran

end Foundation.Components
