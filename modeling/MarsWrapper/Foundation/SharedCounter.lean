import MarsWrapper.Foundation.GuardedRun

namespace Foundation

open PartialRun

/-- A post-increment of a shared counter loads its value in one step and stores the next value in another. -/
inductive CounterStep (Thread : Type) where
  | load (thread : Thread)
  | store (thread : Thread)
  | other

/-- A thread keeps the value that it has loaded until it stores the next one. The counter records every loaded value. -/
structure SharedCounter (Thread Value : Type) where
  value : Value
  pending : Thread → Option Value
  loaded : List Value

namespace SharedCounter

variable {Thread Value : Type} [DecidableEq Thread] {succ : Value → Value} {start : Value}
  {counter next : SharedCounter Thread Value} {steps : List (CounterStep Thread)}

def initial (start : Value) : SharedCounter Thread Value := ⟨start, fun _ => none, []⟩

def load (counter : SharedCounter Thread Value) (thread : Thread) : SharedCounter Thread Value where
  value := counter.value
  pending := Function.update counter.pending thread (some counter.value)
  loaded := counter.loaded ++ [counter.value]

def store (succ : Value → Value) (counter : SharedCounter Thread Value) (thread : Thread) (value : Value) :
    SharedCounter Thread Value where
  value := succ value
  pending := Function.update counter.pending thread none
  loaded := counter.loaded

/-- A thread does not load again before it has stored. -/
def step (succ : Value → Value) (counter : SharedCounter Thread Value) :
    CounterStep Thread → Option (SharedCounter Thread Value)
  | .load thread =>
    match counter.pending thread with
    | some _ => none
    | none => some (counter.load thread)
  | .store thread => do
    let value ← counter.pending thread
    return counter.store succ thread value
  | .other => some counter

theorem step_load_eq {thread : Thread} (stepped : step succ counter (.load thread) = some next) :
    counter.pending thread = none ∧ next = counter.load thread := by
  simp only [step] at stepped
  cases idle : counter.pending thread with
  | none =>
      rw [idle] at stepped
      exact ⟨rfl, (Option.some.inj stepped).symm⟩
  | some value =>
      rw [idle] at stepped
      cases stepped

theorem step_store_eq {thread : Thread} (stepped : step succ counter (.store thread) = some next) :
    ∃ value, counter.pending thread = some value ∧ next = counter.store succ thread value := by
  obtain ⟨value, busy, stored⟩ := Option.bind_eq_some_iff.mp stepped
  exact ⟨value, busy, (Option.some.inj stored).symm⟩

/-- No step takes a loaded value back. -/
theorem loaded_prefix_of_step {event : CounterStep Thread} (stepped : step succ counter event = some next) :
    counter.loaded <+: next.loaded := by
  cases event with
  | load thread =>
      obtain ⟨_, rfl⟩ := step_load_eq stepped
      exact List.prefix_append ..
  | store thread =>
      obtain ⟨value, _, rfl⟩ := step_store_eq stepped
      exact List.prefix_rfl
  | other =>
      obtain rfl := Option.some.inj stepped
      exact List.prefix_rfl

theorem loaded_prefix_of_run {final : SharedCounter Thread Value} (ran : run (step succ) counter steps = some final) :
    counter.loaded <+: final.loaded := by
  have keeps (reached : SharedCounter Thread Value) (event : CounterStep Thread) (next : SharedCounter Thread Value)
      (earlier : counter.loaded <+: reached.loaded) (stepped : step succ reached event = some next) :
      counter.loaded <+: next.loaded := earlier.trans (loaded_prefix_of_step stepped)
  exact run_invariant keeps List.prefix_rfl ran

/-- A load is undisturbed when no thread is between its load and its store. -/
def Undisturbed (counter : SharedCounter Thread Value) : CounterStep Thread → Prop
  | .load _ => ∀ thread, counter.pending thread = none
  | .store _ | .other => True

/-- The loaded values are the first iterates, and only the last one may still wait for its store. -/
structure Orderly (succ : Value → Value) (start : Value) (counter : SharedCounter Thread Value) : Prop where
  loaded : counter.loaded = (List.range counter.loaded.length).map fun number => succ^[number] start
  idle : (∀ thread, counter.pending thread = none) → counter.value = succ^[counter.loaded.length] start
  current : ∀ thread value, counter.pending thread = some value → value = counter.value ∧ value ∈ counter.loaded
  follows : ∀ thread value, counter.pending thread = some value → succ value = succ^[counter.loaded.length] start
  alone : ∀ thread value other, counter.pending thread = some value → other ≠ thread → counter.pending other = none

namespace Orderly

omit [DecidableEq Thread] in
theorem initial (succ : Value → Value) (start : Value) :
    Orderly succ start (SharedCounter.initial start : SharedCounter Thread Value) where
  loaded := rfl
  idle _ := rfl
  current _ _ pending := by cases pending
  follows _ _ pending := by cases pending
  alone _ _ _ pending := by cases pending

/-- An undisturbed load takes the next iterate. -/
theorem load (orderly : Orderly succ start counter) (quiet : ∀ thread, counter.pending thread = none)
    (thread : Thread) : Orderly succ start (counter.load thread) := by
  have value : counter.value = succ^[counter.loaded.length] start := orderly.idle quiet
  have only {other : Thread} {held : Value} (pending : (counter.load thread).pending other = some held) :
      other = thread ∧ held = counter.value := by
    change Function.update counter.pending thread (some counter.value) other = some held at pending
    by_cases same : other = thread
    · rw [same, Function.update_self] at pending
      exact ⟨same, (Option.some.inj pending).symm⟩
    · rw [Function.update_of_ne same, quiet other] at pending
      cases pending
  constructor
  · change counter.loaded ++ [counter.value] = (List.range (counter.loaded ++ [counter.value]).length).map _
    rw [List.length_append, List.length_singleton, List.range_succ, List.map_append, ← orderly.loaded, value]
    rfl
  · intro idle
    have busy : (counter.load thread).pending thread = some counter.value := Function.update_self ..
    rw [idle thread] at busy
    cases busy
  · intro other held pending
    obtain ⟨_, rfl⟩ := only pending
    exact ⟨rfl, List.mem_append_right _ List.mem_cons_self⟩
  · intro other held pending
    obtain ⟨_, rfl⟩ := only pending
    change succ counter.value = succ^[(counter.loaded ++ [counter.value]).length] start
    rw [List.length_append, List.length_singleton, Function.iterate_succ_apply', value]
  · intro other held third pending different
    obtain ⟨rfl, _⟩ := only pending
    change Function.update counter.pending other (some counter.value) third = none
    rw [Function.update_of_ne different, quiet third]

/-- The only store that can come finishes the last load. -/
theorem store (orderly : Orderly succ start counter) {thread : Thread} {value : Value}
    (pending : counter.pending thread = some value) : Orderly succ start (counter.store succ thread value) := by
  have quiet (other : Thread) : (counter.store succ thread value).pending other = none := by
    change Function.update counter.pending thread none other = none
    by_cases same : other = thread
    · rw [same, Function.update_self]
    · rw [Function.update_of_ne same]
      exact orderly.alone thread value other pending same
  constructor
  · exact orderly.loaded
  · intro _
    exact orderly.follows thread value pending
  · intro other held busy
    rw [quiet other] at busy
    cases busy
  · intro other held busy
    rw [quiet other] at busy
    cases busy
  · intro other held third busy
    rw [quiet other] at busy
    cases busy

theorem step (orderly : Orderly succ start counter) {event : CounterStep Thread}
    (undisturbed : counter.Undisturbed event) (stepped : SharedCounter.step succ counter event = some next) :
    Orderly succ start next := by
  cases event with
  | load thread =>
      obtain ⟨_, rfl⟩ := step_load_eq stepped
      exact orderly.load undisturbed thread
  | store thread =>
      obtain ⟨value, pending, rfl⟩ := step_store_eq stepped
      exact orderly.store pending
  | other =>
      obtain rfl := Option.some.inj stepped
      exact orderly

theorem run {final : SharedCounter Thread Value} (orderly : Orderly succ start counter)
    (guarded : Guarded Undisturbed (SharedCounter.step succ) counter steps)
    (ran : PartialRun.run (SharedCounter.step succ) counter steps = some final) : Orderly succ start final :=
  guarded.run_invariant (fun _ _ _ earlier undisturbed stepped => earlier.step undisturbed stepped) orderly ran

omit [DecidableEq Thread] in
/-- Distinct iterates are handed out once. -/
theorem nodup (orderly : Orderly succ start counter)
    (distinct : ∀ first < counter.loaded.length, ∀ second < counter.loaded.length,
      succ^[first] start = succ^[second] start → first = second) : counter.loaded.Nodup := by
  rw [orderly.loaded]
  apply List.Nodup.map_on _ List.nodup_range
  intro first inside second inside' same
  exact distinct first (List.mem_range.mp inside) second (List.mem_range.mp inside') same

/-- A disturbed load takes a value that another thread holds already. -/
theorem repeats (orderly : Orderly succ start counter) {event : CounterStep Thread}
    (disturbed : ¬counter.Undisturbed event) (stepped : SharedCounter.step succ counter event = some next) :
    ¬next.loaded.Nodup := by
  cases event with
  | load thread =>
      obtain ⟨_, rfl⟩ := step_load_eq stepped
      obtain ⟨other, busy⟩ := not_forall.mp disturbed
      obtain ⟨value, pending⟩ := Option.ne_none_iff_exists'.mp busy
      obtain ⟨rfl, member⟩ := orderly.current other value pending
      intro distinct
      have apart := (List.nodup_append.mp distinct).2.2
      exact apart counter.value member counter.value List.mem_cons_self rfl
  | store thread => exact (disturbed trivial).elim
  | other => exact (disturbed trivial).elim

end Orderly

/-- Every thread gets a value of its own exactly when no load comes between another load and its store. -/
theorem nodup_loaded_iff {final : SharedCounter Thread Value} (orderly : Orderly succ start counter)
    (ran : run (step succ) counter steps = some final)
    (distinct : ∀ first < final.loaded.length, ∀ second < final.loaded.length,
      succ^[first] start = succ^[second] start → first = second) :
    final.loaded.Nodup ↔ Guarded Undisturbed (step succ) counter steps := by
  constructor
  · intro unique
    by_contra disturbed
    obtain ⟨before, event, after, middle, rfl, guarded, reached, refused⟩ := Guarded.exists_refused disturbed
    obtain ⟨middle', next, reached', stepped, finished⟩ := run_split ran
    obtain rfl := Option.some.inj (reached.symm.trans reached')
    have repeated := (orderly.run guarded reached).repeats refused stepped
    exact repeated (unique.sublist (loaded_prefix_of_run finished).sublist)
  · intro guarded
    exact (orderly.run guarded ran).nodup distinct

end SharedCounter

end Foundation
