import MarsWrapper.Foundation.Simulation

namespace Foundation.ObservedRun

variable {S T E F O : Type}

/-- An observed run collects what its steps show. -/
def observe (step : S → E → Option (O × S)) : S → List E → Option (List O × S)
  | state, [] => some ([], state)
  | state, event :: events => do
    let (shown, next) ← step state event
    let (later, final) ← observe step next events
    return (shown :: later, final)

section Equations

variable (step : S → E → Option (O × S)) (state : S) (event : E) (events later : List E)

@[simp] theorem observe_nil : observe step state [] = some ([], state) := rfl

theorem observe_cons :
    observe step state (event :: events) =
      (step state event).bind fun first => (observe step first.2 events).map (Prod.map (first.1 :: ·) id) := by
  simp only [observe, Option.bind_eq_bind, Option.pure_def, Option.map_eq_bind]
  rfl

theorem observe_singleton : observe step state [event] = (step state event).map (Prod.map (fun shown => [shown]) id) := by
  rw [observe_cons, Option.map_eq_bind]
  rfl

theorem observe_append :
    observe step state (events ++ later) =
      (observe step state events).bind fun first => (observe step first.2 later).map (Prod.map (first.1 ++ ·) id) := by
  induction events generalizing state with
  | nil =>
      have same : (Prod.map (([] : List O) ++ ·) id : List O × S → List O × S) = id := rfl
      rw [List.nil_append, observe_nil, Option.bind_some, same, Option.map_id_fun, id]
  | cons event events ih =>
      rw [List.cons_append, observe_cons, observe_cons, Option.bind_assoc]
      congr 1
      funext first
      rw [ih, Option.map_bind, Option.bind_map]
      congr 1
      funext second
      rw [Function.comp_apply, Option.map_map]
      rfl

end Equations

/-- A simulated step gives a simulated observed run with the same observations. -/
theorem observe_simulates {view : S → T} {invariant : S → Prop} {step : S → E → Option (O × S)}
    {abstractStep : T → E → Option (O × T)}
    (steps : ∀ state event, invariant state →
      Simulates (Prod.map id view) (fun result => invariant result.2) (step state event)
        (abstractStep (view state) event))
    (events : List E) (state : S) (start : invariant state) :
    Simulates (Prod.map id view) (fun result => invariant result.2) (observe step state events)
      (observe abstractStep (view state) events) := by
  induction events generalizing state with
  | nil =>
      have empty : Prod.map id view (([] : List O), state) = ([], view state) := rfl
      exact @Simulates.result _ _ _ (fun result => invariant result.2) _ start _ empty
  | cons event events ih =>
      rw [observe_cons, observe_cons]
      apply (steps state event start).bind
      intro first holds
      apply (ih first.2 holds).map
      intro rest kept
      exact ⟨kept, rfl⟩

/-- A trace takes permitted steps, and a step can show nothing. -/
inductive Traces (step : S → E → Option (List O × S)) (permitted : S → E → Prop) (start : S) :
    List E → List O → S → Prop where
  | nil : Traces step permitted start [] [] start
  | snoc {events : List E} {seen shown : List O} {state next : S}
      (traced : Traces step permitted start events seen state) (event : E) (allowed : permitted state event)
      (stepped : step state event = some (shown, next)) :
      Traces step permitted start (events ++ [event]) (seen ++ shown) next

variable {step : S → E → Option (List O × S)} {permitted : S → E → Prop} {start : S}
  {abstractStep : T → F → Option (O × T)} {serial : E → List F} {visible : O → Bool} {related : S → T → Prop}
  {admitted : S → Prop}

/-- A trace is simulated by the abstract steps of its events in their order, and each event may have none or many.
The visible observations are the same. It is enough to simulate steps that end in an admitted state. -/
theorem Traces.simulated {first : T} (begins : related start first)
    (back : ∀ state event shown next, permitted state event → step state event = some (shown, next) →
      admitted next → admitted state)
    (steps : ∀ state event shown next value, related state value → admitted state → admitted next →
      permitted state event → step state event = some (shown, next) →
      ∃ replies value', observe abstractStep value (serial event) = some (replies, value') ∧
        replies.filter visible = shown ∧ related next value')
    {events : List E} {seen : List O} {final : S} (traced : Traces step permitted start events seen final)
    (ends : admitted final) :
    ∃ replies value, observe abstractStep first (events.flatMap serial) = some (replies, value) ∧
      replies.filter visible = seen ∧ related final value := by
  induction traced with
  | nil => exact ⟨[], first, rfl, rfl, begins⟩
  | snoc traced event allowed stepped ih =>
      have earlier := back _ _ _ _ allowed stepped ends
      obtain ⟨replies, value, ran, same, relates⟩ := ih earlier
      obtain ⟨replies', value', ran', same', relates'⟩ := steps _ _ _ _ _ relates earlier ends allowed stepped
      refine ⟨replies ++ replies', value', ?_, ?_, relates'⟩
      · rw [List.flatMap_append, observe_append, ran, Option.bind_some, List.flatMap_singleton, ran']
        rfl
      · rw [List.filter_append, same, same']

end Foundation.ObservedRun
