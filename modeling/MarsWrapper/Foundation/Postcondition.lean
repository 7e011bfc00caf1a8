import MarsWrapper.Foundation.PartialRun

namespace Foundation

/-- Every result of the computation satisfies the postcondition. A computation without a result satisfies all. -/
structure Ensures {A : Type} (post : A → Prop) (computation : Option A) : Prop where
  holds : ∀ result, computation = some result → post result

namespace Ensures

variable {A B E : Type} {post middle : A → Prop} {later : B → Prop} {computation : Option A}

theorem result {value : A} (holds : post value) : Ensures post (some value) where
  holds _ same := Option.some.inj same ▸ holds

/-- The first postcondition is the precondition of the rest. -/
theorem bind {rest : A → Option B} (first : Ensures middle computation)
    (second : ∀ value, middle value → Ensures later (rest value)) : Ensures later (computation.bind rest) where
  holds result reached := by
    obtain ⟨value, computed, ended⟩ := Option.bind_eq_some_iff.mp reached
    exact (second value (first.holds value computed)).holds result ended

/-- The rest may use that the value was computed. -/
theorem skip {rest : A → Option B} (second : ∀ value, computation = some value → Ensures later (rest value)) :
    Ensures later (computation.bind rest) :=
  bind ⟨fun _ => id⟩ second

theorem map {f : A → B} (first : Ensures middle computation) (second : ∀ value, middle value → later (f value)) :
    Ensures later (computation.map f) := by
  rw [Option.map_eq_bind]
  exact first.bind fun value holds => result (second value holds)

/-- An invariant of the step is an invariant of its runs. -/
theorem run {step : A → E → Option A} (keeps : ∀ state event, post state → Ensures post (step state event))
    (events : List E) {state : A} (start : post state) : Ensures post (PartialRun.run step state events) where
  holds _ ran := PartialRun.run_invariant (fun current event next kept => (keeps current event kept).holds next) start ran

end Ensures

end Foundation
