import Mathlib.Logic.Function.Basic
import Mathlib.Tactic

namespace Foundation

/-- The heap hands out every address once, so a released address never becomes live again. -/
structure Heap (A : Type) where
  next : Nat
  cells : Nat → Option A
  fresh : ∀ address, next ≤ address → cells address = none

namespace Heap

variable {A : Type} {heap : Heap A} {address other : Nat} {value : A}

def empty : Heap A := ⟨0, fun _ => none, fun _ _ => rfl⟩

/-- A live address gives its object, and every other read is a use after release. -/
def read (heap : Heap A) (address : Nat) : Option A := heap.cells address

/-- A live address has an object. -/
def Live (heap : Heap A) (address : Nat) : Prop := ∃ value, heap.read address = some value

/-- An allocation takes the next address. -/
def alloc (heap : Heap A) (value : A) : Heap A where
  next := heap.next + 1
  cells := Function.update heap.cells heap.next (some value)
  fresh address above := by
    rw [Function.update_of_ne (by omega)]
    exact heap.fresh address (by omega)

/-- The address keeps no object. -/
def erase (heap : Heap A) (address : Nat) : Heap A where
  next := heap.next
  cells := Function.update heap.cells address none
  fresh other above := by
    by_cases same : other = address
    · rw [same, Function.update_self]
    · rw [Function.update_of_ne same]
      exact heap.fresh other above

/-- A live address can be released once. -/
def release (heap : Heap A) (address : Nat) : Option (Heap A) :=
  match heap.cells address with
  | some _ => some (heap.erase address)
  | none => none

/-- A live address can be overwritten. -/
def write (heap : Heap A) (address : Nat) (value : A) : Option (Heap A) :=
  if live : (heap.cells address).isSome then
    some
      { next := heap.next
        cells := Function.update heap.cells address (some value)
        fresh := by
          intro other above
          have different : other ≠ address := by
            rintro rfl
            rw [heap.fresh other above] at live
            contradiction
          rw [Function.update_of_ne different]
          exact heap.fresh other above }
  else none

theorem lt_next_of_read (live : heap.read address = some value) : address < heap.next := by
  by_contra above
  have dead := heap.fresh address (by omega)
  rw [read, dead] at live
  contradiction

@[simp] theorem read_alloc_self : (heap.alloc value).read heap.next = some value :=
  Function.update_self ..

theorem read_alloc_of_ne (different : address ≠ heap.next) :
    (heap.alloc value).read address = heap.read address := Function.update_of_ne different ..

/-- An allocation keeps every live object. -/
theorem read_alloc_of_read {new : A} (live : heap.read address = some value) :
    (heap.alloc new).read address = some value := by
  have below := lt_next_of_read live
  rw [read_alloc_of_ne (by omega), live]

@[simp] theorem read_erase_self : (heap.erase address).read address = none :=
  Function.update_self ..

theorem read_erase_of_ne (different : other ≠ address) :
    (heap.erase address).read other = heap.read other := Function.update_of_ne different ..

theorem release_of_read (live : heap.read address = some value) :
    heap.release address = some (heap.erase address) := by
  rw [read] at live
  simp only [release, live]

/-- Every release that succeeds erases its address. -/
theorem eq_erase_of_release {next : Heap A} (released : heap.release address = some next) :
    next = heap.erase address := by
  rw [release] at released
  split at released
  · exact (Option.some.inj released).symm
  · cases released

/-- A write to a live address changes this object and no other. -/
theorem write_of_read {new : A} (live : heap.read address = some value) :
    ∃ next, heap.write address new = some next ∧ next.next = heap.next ∧ next.read address = some new ∧
      ∀ other, other ≠ address → next.read other = heap.read other := by
  have present : (heap.cells address).isSome := by
    rw [read] at live
    rw [live]
    rfl
  exact ⟨_, dif_pos present, rfl, Function.update_self .., fun other different => Function.update_of_ne different ..⟩

theorem not_live_empty : ¬(empty : Heap A).Live address := fun live => by
  obtain ⟨value, present⟩ := live
  cases present

/-- An allocation adds one live address. -/
theorem live_alloc_iff : (heap.alloc value).Live address ↔ address = heap.next ∨ heap.Live address := by
  by_cases same : address = heap.next
  · subst same
    exact iff_of_true ⟨value, read_alloc_self⟩ (Or.inl rfl)
  · rw [Live, read_alloc_of_ne same, or_iff_right same]
    rfl

/-- An erasure removes one live address. -/
theorem live_erase_iff : (heap.erase address).Live other ↔ other ≠ address ∧ heap.Live other := by
  by_cases same : other = address
  · subst same
    refine iff_of_false (fun live => ?_) fun both => both.1 rfl
    obtain ⟨value, present⟩ := live
    rw [read_erase_self] at present
    cases present
  · rw [Live, read_erase_of_ne same, and_iff_right same]
    rfl

theorem not_live_next : ¬heap.Live heap.next := by
  intro live
  obtain ⟨value, present⟩ := live
  exact Nat.lt_irrefl _ (lt_next_of_read present)

/-- A temporary object leaves every other address as it was. -/
@[simp] theorem read_erase_alloc :
    ((heap.alloc value).erase heap.next).read address = heap.read address := by
  by_cases same : address = heap.next
  · rw [same, read_erase_self]
    exact (heap.fresh heap.next (Nat.le_refl _)).symm
  · rw [read_erase_of_ne same, read_alloc_of_ne same]

end Heap

end Foundation
