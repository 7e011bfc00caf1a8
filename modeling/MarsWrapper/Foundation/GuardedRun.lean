import MarsWrapper.Foundation.Simulation

namespace Foundation.PartialRun

variable {S T E : Type} {step : S → E → Option S} {permitted : S → E → Prop} {invariant : S → Prop}

/-- Every event of a guarded run is permitted in the state that it meets, also the one that has no result. -/
def Guarded (permitted : S → E → Prop) (step : S → E → Option S) : S → List E → Prop
  | _, [] => True
  | state, event :: events =>
    permitted state event ∧ ∀ next, step state event = some next → Guarded permitted step next events

namespace Guarded

theorem mono {weaker : S → E → Prop} (implies : ∀ state event, permitted state event → weaker state event)
    {state : S} {events : List E} (guarded : Guarded permitted step state events) :
    Guarded weaker step state events := by
  induction events generalizing state with
  | nil => exact trivial
  | cons event events ih =>
      obtain ⟨allowed, later⟩ := guarded
      exact ⟨implies state event allowed, fun next stepped => ih (later next stepped)⟩

theorem congr {other : S → E → Prop} (same : ∀ state event, permitted state event ↔ other state event)
    {state : S} {events : List E} : Guarded permitted step state events ↔ Guarded other step state events :=
  ⟨mono fun state event => (same state event).mp, mono fun state event => (same state event).mpr⟩

/-- A permitted step with a result goes on with a guarded run. -/
theorem cons {state next : S} {event : E} {events : List E} (allowed : permitted state event)
    (stepped : step state event = some next) (later : Guarded permitted step next events) :
    Guarded permitted step state (event :: events) := by
  refine ⟨allowed, ?_⟩
  intro next' stepped'
  rwa [Option.some.inj (stepped'.symm.trans stepped)]

theorem and {other : S → E → Prop} {state : S} {events : List E} (guarded : Guarded permitted step state events)
    (guarded' : Guarded other step state events) :
    Guarded (fun state event => permitted state event ∧ other state event) step state events := by
  induction events generalizing state with
  | nil => exact trivial
  | cons event events ih =>
      exact ⟨⟨guarded.1, guarded'.1⟩, fun next stepped => ih (guarded.2 next stepped) (guarded'.2 next stepped)⟩

/-- Events that are permitted in every state give a guarded run. -/
theorem of_forall {admitted : E → Prop} {state : S} {events : List E} (every : ∀ event ∈ events, admitted event) :
    Guarded (fun _ event => admitted event) step state events := by
  induction events generalizing state with
  | nil => exact trivial
  | cons event events ih =>
      have later : ∀ other ∈ events, admitted other := fun other member => every other (List.mem_cons_of_mem event member)
      exact ⟨every event List.mem_cons_self, fun next _ => ih later⟩

/-- A run whose permitted steps all have results has a result. -/
theorem exists_run
    (steps : ∀ state event, invariant state → permitted state event → ∃ next, step state event = some next ∧ invariant next)
    {state : S} {events : List E} (guarded : Guarded permitted step state events) (start : invariant state) :
    ∃ final, run step state events = some final := by
  induction events generalizing state with
  | nil => exact ⟨state, rfl⟩
  | cons event events ih =>
      obtain ⟨next, stepped, kept⟩ := steps state event start guarded.1
      obtain ⟨final, ran⟩ := ih (guarded.2 next stepped) kept
      exact ⟨final, by rw [run_cons, stepped, Option.bind_some, ran]⟩

/-- A run is guarded when its first part is, and its second part is from every end of the first. -/
theorem append_iff {state : S} {events later : List E} :
    Guarded permitted step state (events ++ later) ↔
      Guarded permitted step state events ∧
        ∀ next, run step state events = some next → Guarded permitted step next later := by
  induction events generalizing state with
  | nil =>
      constructor
      · intro guarded
        refine ⟨trivial, ?_⟩
        intro next same
        rwa [← Option.some.inj same]
      · intro parts
        exact parts.2 state rfl
  | cons event events ih =>
      constructor
      · intro guarded
        obtain ⟨allowed, rest⟩ := guarded
        refine ⟨⟨allowed, fun next stepped => (ih.mp (rest next stepped)).1⟩, ?_⟩
        intro final ran
        obtain ⟨next, stepped, ran⟩ := Option.bind_eq_some_iff.mp ran
        exact (ih.mp (rest next stepped)).2 final ran
      · intro parts
        obtain ⟨⟨allowed, rest⟩, ends⟩ := parts
        refine ⟨allowed, fun next stepped => ih.mpr ⟨rest next stepped, ?_⟩⟩
        intro final ran
        apply ends
        rw [run_cons, stepped, Option.bind_some, ran]

/-- A run that is not guarded has a first event that is refused. -/
theorem exists_refused {state : S} {events : List E} (unguarded : ¬Guarded permitted step state events) :
    ∃ before event after middle, events = before ++ event :: after ∧ Guarded permitted step state before ∧
      run step state before = some middle ∧ ¬permitted middle event := by
  induction events generalizing state with
  | nil => exact (unguarded trivial).elim
  | cons event events ih =>
      by_cases allowed : permitted state event
      · obtain ⟨next, refused⟩ := not_forall.mp (not_and.mp unguarded allowed)
        obtain ⟨stepped, refused⟩ := Classical.not_imp.mp refused
        obtain ⟨before, refusedEvent, after, middle, rfl, guarded, reached, blocked⟩ := ih refused
        refine ⟨event :: before, refusedEvent, after, middle, rfl, cons allowed stepped guarded, ?_, blocked⟩
        rw [run_cons, stepped, Option.bind_some, reached]
      · exact ⟨[], event, events, state, rfl, trivial, rfl, allowed⟩

/-- A property that every permitted step keeps holds at the end of a guarded run. -/
theorem run_invariant
    (keeps : ∀ state event next, invariant state → permitted state event → step state event = some next →
      invariant next)
    {state final : S} {events : List E} (guarded : Guarded permitted step state events) (start : invariant state)
    (ran : run step state events = some final) : invariant final := by
  induction events generalizing state with
  | nil =>
      obtain rfl := Option.some.inj ran
      exact start
  | cons event events ih =>
      obtain ⟨allowed, later⟩ := guarded
      obtain ⟨next, stepped, ran⟩ := Option.bind_eq_some_iff.mp ran
      exact ih (later next stepped) (keeps state event next start allowed stepped) ran

/-- Permitted steps that are simulated give a simulated run. -/
theorem simulates {view : S → T} {abstractStep : T → E → Option T}
    (steps : ∀ state event, invariant state → permitted state event →
      Simulates view invariant (step state event) (abstractStep (view state) event))
    {state : S} {events : List E} (guarded : Guarded permitted step state events) (start : invariant state) :
    Simulates view invariant (run step state events) (run abstractStep (view state) events) := by
  induction events generalizing state with
  | nil => exact Simulates.result start rfl
  | cons event events ih =>
      obtain ⟨allowed, later⟩ := guarded
      have first := steps state event start allowed
      obtain ⟨same, kept⟩ := first
      rw [run_cons, run_cons, ← same]
      cases stepped : step state event with
      | none => exact Simulates.failure
      | some next => exact ih (later next stepped) (kept next stepped)

/-- The abstract run is guarded by what the concrete guard says about views. -/
theorem of_simulates {view : S → T} {abstractStep : T → E → Option T} {abstractPermitted : T → E → Prop}
    (steps : ∀ state event, invariant state → permitted state event →
      Simulates view invariant (step state event) (abstractStep (view state) event))
    (carries : ∀ state event, invariant state → permitted state event → abstractPermitted (view state) event)
    {state : S} {events : List E} (guarded : Guarded permitted step state events) (start : invariant state) :
    Guarded abstractPermitted abstractStep (view state) events := by
  induction events generalizing state with
  | nil => exact trivial
  | cons event events ih =>
      obtain ⟨allowed, later⟩ := guarded
      refine ⟨carries state event start allowed, ?_⟩
      intro next abstractly
      have first := steps state event start allowed
      rw [abstractly] at first
      obtain ⟨reached, stepped, holds, rfl⟩ := first.exists_result
      exact ih (later reached stepped) holds

/-- What guards the abstract run guards the views of the concrete run. -/
theorem reflect {view : S → T} {abstractStep : T → E → Option T} {abstractPermitted : T → E → Prop}
    (steps : ∀ state event, invariant state → permitted state event →
      Simulates view invariant (step state event) (abstractStep (view state) event))
    {state : S} {events : List E} (guarded : Guarded permitted step state events) (start : invariant state)
    (abstractly : Guarded abstractPermitted abstractStep (view state) events) :
    Guarded (fun state event => abstractPermitted (view state) event) step state events := by
  induction events generalizing state with
  | nil => exact trivial
  | cons event events ih =>
      obtain ⟨allowed, later⟩ := guarded
      refine ⟨abstractly.1, ?_⟩
      intro next stepped
      have first := steps state event start allowed
      have reached := first.view_eq
      rw [stepped, Option.map_some] at reached
      exact ih (later next stepped) (first.kept next stepped) (abstractly.2 _ reached.symm)

section Labels

variable {F : Type} {view : S → T} {label : E → F} {abstractStep : T → F → Option T} {abstractPermitted : T → F → Prop}
  (follows : ∀ state event next, permitted state event → step state event = some next →
    abstractStep (view state) (label event) = some (view next))

include follows

/-- The views of a guarded run follow its labels. -/
theorem run_labels {state final : S} {events : List E} (guarded : Guarded permitted step state events)
    (ran : run step state events = some final) :
    run abstractStep (view state) (events.map label) = some (view final) := by
  induction events generalizing state with
  | nil =>
      obtain rfl := Option.some.inj ran
      rfl
  | cons event events ih =>
      obtain ⟨allowed, later⟩ := guarded
      obtain ⟨next, stepped, ran⟩ := Option.bind_eq_some_iff.mp ran
      rw [List.map_cons, run_cons, follows state event next allowed stepped, Option.bind_some]
      exact ih (later next stepped) ran

/-- What guards the labels of a finished run guards the run through its views. -/
theorem labels_iff {state final : S} {events : List E} (guarded : Guarded permitted step state events)
    (ran : run step state events = some final) :
    Guarded abstractPermitted abstractStep (view state) (events.map label) ↔
      Guarded (fun state event => abstractPermitted (view state) (label event)) step state events := by
  induction events generalizing state with
  | nil => exact Iff.rfl
  | cons event events ih =>
      obtain ⟨allowed, later⟩ := guarded
      obtain ⟨next, stepped, ran⟩ := Option.bind_eq_some_iff.mp ran
      have followed := follows state event next allowed stepped
      have rest := ih (later next stepped) ran
      constructor
      · intro labelled
        exact cons labelled.1 stepped (rest.mp (labelled.2 _ followed))
      · intro viewed
        exact cons viewed.1 followed (rest.mpr (viewed.2 next stepped))

end Labels

end Guarded

/-- A run in rounds is the run of all their events. -/
theorem run_rounds {state : S} (rounds : List (List E)) : run (run step) state rounds = run step state rounds.flatten := by
  induction rounds generalizing state with
  | nil => rfl
  | cons events rounds ih =>
      rw [List.flatten_cons, run_append, run_cons]
      congr 1
      funext next
      exact ih

end Foundation.PartialRun
