import MarsWrapper.Foundation.PartialRun

namespace Foundation

/-- The abstract result is the view of the concrete result, and every concrete result keeps the invariant. -/
structure Simulates {S T : Type} (view : S → T) (invariant : S → Prop) (concrete : Option S)
    (abstract_ : Option T) : Prop where
  view_eq : concrete.map view = abstract_
  kept : ∀ result, concrete = some result → invariant result

namespace Simulates

variable {S T S' T' E : Type} {view : S → T} {invariant : S → Prop} {view' : S' → T'} {invariant' : S' → Prop}

theorem result {state : S} (holds : invariant state) {value : T} (same : view state = value) :
    Simulates view invariant (some state) (some value) where
  view_eq := congrArg some same
  kept := by
    intro result equal
    rwa [← Option.some.inj equal]

theorem failure : Simulates view invariant none none := ⟨rfl, nofun⟩

/-- An abstract result is the view of a concrete result. -/
theorem exists_result {concrete : Option S} {value : T} (simulated : Simulates view invariant concrete (some value)) :
    ∃ state, concrete = some state ∧ invariant state ∧ view state = value := by
  obtain ⟨state, reached, same⟩ := Option.map_eq_some_iff.mp simulated.view_eq
  exact ⟨state, reached, simulated.kept state reached, same⟩

/-- A property of views holds of one result exactly when it holds of the other. -/
theorem exists_iff {concrete : Option S} {abstract_ : Option T} (simulated : Simulates view invariant concrete abstract_)
    (holds : T → Prop) :
    (∃ state, concrete = some state ∧ holds (view state)) ↔ ∃ value, abstract_ = some value ∧ holds value := by
  rw [← simulated.view_eq]
  constructor
  · rintro ⟨state, rfl, kept⟩
    exact ⟨view state, rfl, kept⟩
  · rintro ⟨value, reached, kept⟩
    obtain ⟨state, rfl, rfl⟩ := Option.map_eq_some_iff.mp reached
    exact ⟨state, rfl, kept⟩

/-- Two related results can be continued by related computations. -/
theorem bind {concrete : Option S} {abstract_ : Option T} {f : S → Option S'} {g : T → Option T'}
    (first : Simulates view invariant concrete abstract_)
    (later : ∀ state, invariant state → Simulates view' invariant' (f state) (g (view state))) :
    Simulates view' invariant' (concrete.bind f) (abstract_.bind g) := by
  obtain ⟨rfl, kept⟩ := first
  cases concrete with
  | none => exact failure
  | some state => exact later state (kept state rfl)

/-- Two related results stay related under related functions. -/
theorem map {concrete : Option S} {abstract_ : Option T} {f : S → S'} {g : T → T'}
    (first : Simulates view invariant concrete abstract_)
    (later : ∀ state, invariant state → invariant' (f state) ∧ view' (f state) = g (view state)) :
    Simulates view' invariant' (concrete.map f) (abstract_.map g) := by
  obtain ⟨rfl, kept⟩ := first
  cases concrete with
  | none => exact failure
  | some state =>
      obtain ⟨holds, same⟩ := later state (kept state rfl)
      exact result holds same

/-- A value that both computations share does not enter the view. -/
theorem bind_same {A : Type} (shared : Option A) {f : A → Option S} {g : A → Option T}
    (later : ∀ value, shared = some value → Simulates view invariant (f value) (g value)) :
    Simulates view invariant (shared.bind f) (shared.bind g) := by
  cases shared with
  | none => exact failure
  | some value => exact later value rfl

/-- A simulated step gives a simulated run, early stops included. -/
theorem run {step : S → E → Option S} {abstractStep : T → E → Option T}
    (steps : ∀ state event, invariant state →
      Simulates view invariant (step state event) (abstractStep (view state) event))
    (events : List E) (state : S) (start : invariant state) :
    Simulates view invariant (PartialRun.run step state events)
      (PartialRun.run abstractStep (view state) events) := by
  induction events generalizing state with
  | nil => exact result start rfl
  | cons event events ih => exact bind (steps state event start) ih

end Simulates

end Foundation
