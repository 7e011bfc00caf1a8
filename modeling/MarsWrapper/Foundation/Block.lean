import Mathlib.Tactic

namespace Foundation.Block

variable {A : Type}

/-- A read inside the block succeeds, and every other read is undefined behaviour. -/
def load (block : List A) (offset count : Nat) : Option (List A) :=
  if offset + count ≤ block.length then some ((block.drop offset).take count) else none

/-- A write inside the block replaces the old cells, and every other write is undefined behaviour. -/
def store (block : List A) (offset : Nat) (values : List A) : Option (List A) :=
  if offset + values.length ≤ block.length then
    some (block.take offset ++ values ++ block.drop (offset + values.length))
  else none

theorem load_eq_some {block : List A} {offset count : Nat} (inside : offset + count ≤ block.length) :
    load block offset count = some ((block.drop offset).take count) := if_pos inside

theorem load_isSome {block : List A} {offset count : Nat} :
    (load block offset count).isSome ↔ offset + count ≤ block.length := by
  unfold load
  split <;> simp_all

theorem load_eq_none {block : List A} {offset count : Nat} (outside : block.length < offset + count) :
    load block offset count = none := if_neg (Nat.not_le.mpr outside)

theorem length_of_load {block values : List A} {offset count : Nat}
    (loaded : load block offset count = some values) : values.length = count := by
  unfold load at loaded
  split at loaded
  · obtain rfl := Option.some.inj loaded
    rw [List.length_take, List.length_drop]
    omega
  · contradiction

/-- A whole read returns the block. -/
theorem load_all (block : List A) : load block 0 block.length = some block := by
  rw [load_eq_some (by omega), List.drop_zero, List.take_length]

/-- A write between two segments replaces the middle segment. -/
theorem store_middle (before old after values : List A) (same : values.length = old.length) :
    store (before ++ old ++ after) before.length values = some (before ++ values ++ after) := by
  rw [store, if_pos (by simp only [List.length_append]; omega), same]
  simp [List.append_assoc]

/-- A write at the start keeps the cells behind it. -/
theorem store_start {block values : List A} (inside : values.length ≤ block.length) :
    store block 0 values = some (values ++ block.drop values.length) := by
  rw [store, if_pos (by omega), List.take_zero, List.nil_append, Nat.zero_add]

theorem store_eq_none {block values : List A} {offset : Nat}
    (outside : block.length < offset + values.length) : store block offset values = none :=
  if_neg (Nat.not_le.mpr outside)

theorem length_of_store {block next values : List A} {offset : Nat}
    (stored : store block offset values = some next) : next.length = block.length := by
  unfold store at stored
  split at stored
  · obtain rfl := Option.some.inj stored
    simp only [List.length_append, List.length_take, List.length_drop]
    omega
  · contradiction

theorem exists_store {block values : List A} {offset : Nat} (inside : offset + values.length ≤ block.length) :
    ∃ next, store block offset values = some next := ⟨_, if_pos inside⟩

/-- A write keeps the cells before it. -/
theorem take_of_store {block next values : List A} {offset : Nat} (stored : store block offset values = some next) :
    next.take offset = block.take offset := by
  unfold store at stored
  split at stored
  · next inside =>
    obtain rfl := Option.some.inj stored
    have length : (block.take offset).length = offset := by
      rw [List.length_take]
      omega
    rw [List.append_assoc, List.take_append_of_le_length (by omega), List.take_of_length_le (by omega)]
  · contradiction

end Foundation.Block
