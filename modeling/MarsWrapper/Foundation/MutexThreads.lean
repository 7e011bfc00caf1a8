import MarsWrapper.Foundation.PartialRun

namespace Foundation

open PartialRun

/-- A program locks and unlocks one mutex and accesses shared variables one at a time.
An access reads the shared state, and the rest of the program depends on what it has read. -/
inductive ThreadProgram (Shared Var : Type) where
  | done
  | lock (rest : ThreadProgram Shared Var)
  | unlock (rest : ThreadProgram Shared Var)
  | access (var : Var) (writes : Bool) (effect : Shared → Shared) (rest : Shared → ThreadProgram Shared Var)

namespace ThreadProgram

variable {Shared Var : Type}

/-- The program locks only when it does not hold the mutex, unlocks only when it does, and does not keep it. -/
def Disciplined : Bool → ThreadProgram Shared Var → Prop
  | held, .done => held = false
  | held, .lock rest => held = false ∧ rest.Disciplined true
  | held, .unlock rest => held = true ∧ rest.Disciplined false
  | held, .access _ _ _ rest => ∀ shared, (rest shared).Disciplined held

/-- The program can come to this access, with or without the mutex. -/
def May (var : Var) (writes locked : Bool) : Bool → ThreadProgram Shared Var → Prop
  | _, .done => False
  | _, .lock rest => rest.May var writes locked true
  | _, .unlock rest => rest.May var writes locked false
  | held, .access var' writes' _ rest =>
    (var' = var ∧ writes' = writes ∧ held = locked) ∨ ∃ shared, (rest shared).May var writes locked held

/-- The program comes to this access, whatever it reads on its way. -/
def Surely (var : Var) (writes locked : Bool) : Bool → ThreadProgram Shared Var → Prop
  | _, .done => False
  | _, .lock rest => rest.Surely var writes locked true
  | _, .unlock rest => rest.Surely var writes locked false
  | held, .access var' writes' _ rest =>
    (var' = var ∧ writes' = writes ∧ held = locked) ∨ ∀ shared, (rest shared).Surely var writes locked held

/-- This is what the program does to the shared state when no other thread runs. -/
def alone : ThreadProgram Shared Var → Shared → Shared
  | .done, shared => shared
  | .lock rest, shared | .unlock rest, shared => rest.alone shared
  | .access _ _ effect rest, shared => (rest shared).alone (effect shared)

/-- This access comes next. -/
def Accesses (var : Var) (writes : Bool) : ThreadProgram Shared Var → Prop
  | .access var' writes' _ _ => var' = var ∧ writes' = writes
  | _ => False

end ThreadProgram

/-- The threads share their variables and one mutex, which knows its owner. -/
structure MutexThreads (Thread Shared Var : Type) where
  shared : Shared
  owner : Option Thread
  program : Thread → ThreadProgram Shared Var

namespace MutexThreads

variable {Thread Shared Var : Type} [DecidableEq Thread] {threads next : MutexThreads Thread Shared Var}
  {thread : Thread}

def initial (shared : Shared) (program : Thread → ThreadProgram Shared Var) : MutexThreads Thread Shared Var :=
  ⟨shared, none, program⟩

/-- The thread takes its next step. A thread that waits for the mutex and a failing call of the mutex have no step. -/
def step (threads : MutexThreads Thread Shared Var) (thread : Thread) : Option (MutexThreads Thread Shared Var) :=
  match threads.program thread with
  | .done => none
  | .lock rest =>
    if threads.owner = none then
      some {threads with owner := some thread, program := Function.update threads.program thread rest}
    else none
  | .unlock rest =>
    if threads.owner = some thread then
      some {threads with owner := none, program := Function.update threads.program thread rest}
    else none
  | .access _ _ effect rest =>
    some
      { threads with
        shared := effect threads.shared
        program := Function.update threads.program thread (rest threads.shared) }

def holds (threads : MutexThreads Thread Shared Var) (thread : Thread) : Bool :=
  decide (threads.owner = some thread)

/-- The mutex reports an error when its owner locks it again or when another thread unlocks it. -/
def Fails (threads : MutexThreads Thread Shared Var) (thread : Thread) : Prop :=
  match threads.program thread with
  | .lock _ => threads.owner = some thread
  | .unlock _ => threads.owner ≠ some thread
  | _ => False

/-- Two threads are about to access one variable, and one of them writes it. -/
def Races (threads : MutexThreads Thread Shared Var) (var : Var) : Prop :=
  ∃ first second writes writes', first ≠ second ∧ (threads.program first).Accesses var writes ∧
    (threads.program second).Accesses var writes' ∧ (writes = true ∨ writes' = true)

/-- This is all that a step can do. -/
theorem step_cases (stepped : threads.step thread = some next) :
    (∃ rest, threads.program thread = .lock rest ∧ threads.owner = none ∧
        next = {threads with owner := some thread, program := Function.update threads.program thread rest}) ∨
      (∃ rest, threads.program thread = .unlock rest ∧ threads.owner = some thread ∧
        next = {threads with owner := none, program := Function.update threads.program thread rest}) ∨
      ∃ var writes effect rest, threads.program thread = .access var writes effect rest ∧
        next =
          { threads with
            shared := effect threads.shared
            program := Function.update threads.program thread (rest threads.shared) } := by
  unfold step at stepped
  split at stepped
  · contradiction
  · next rest now =>
      split at stepped
      · next free => exact Or.inl ⟨rest, now, free, (Option.some.inj stepped).symm⟩
      · contradiction
  · next rest now =>
      split at stepped
      · next own => exact Or.inr (Or.inl ⟨rest, now, own, (Option.some.inj stepped).symm⟩)
      · contradiction
  · next var writes effect rest now =>
      exact Or.inr (Or.inr ⟨var, writes, effect, rest, now, (Option.some.inj stepped).symm⟩)

theorem step_access {var : Var} {writes : Bool} {effect : Shared → Shared} {rest : Shared → ThreadProgram Shared Var}
    (now : threads.program thread = .access var writes effect rest) :
    threads.step thread =
      some
        { threads with
          shared := effect threads.shared
          program := Function.update threads.program thread (rest threads.shared) } := by
  unfold step
  rw [now]

/-- A step changes neither the program of another thread nor whether that thread holds the mutex. -/
theorem others_of_step (stepped : threads.step thread = some next) {other : Thread} (different : other ≠ thread) :
    next.program other = threads.program other ∧ next.holds other = threads.holds other := by
  have apart : ¬some thread = some other := fun same => different (Option.some.inj same).symm
  obtain ⟨rest, _, free, rfl⟩ | ⟨rest, _, own, rfl⟩ | ⟨var, writes, effect, rest, _, rfl⟩ := step_cases stepped
  · refine ⟨Function.update_of_ne different .., ?_⟩
    rw [holds, holds, free, decide_eq_false apart, decide_eq_false (by simp)]
  · refine ⟨Function.update_of_ne different .., ?_⟩
    rw [holds, holds, own, decide_eq_false apart, decide_eq_false (by simp)]
  · exact ⟨Function.update_of_ne different .., rfl⟩

/-- A thread at its end stays there. -/
theorem done_of_run {schedule : List Thread} (ran : run step threads schedule = some next)
    (done : threads.program thread = .done) : next.program thread = .done := by
  have keeps (reached : MutexThreads Thread Shared Var) (mover : Thread) (following : MutexThreads Thread Shared Var)
      (ended : reached.program thread = .done) (stepped : reached.step mover = some following) :
      following.program thread = .done := by
    by_cases same : thread = mover
    · subst same
      unfold step at stepped
      rw [ended] at stepped
      cases stepped
    · rw [(others_of_step stepped same).1, ended]
  exact run_invariant keeps done ran

/-- Every thread keeps the discipline from where it stands. -/
def Sound (threads : MutexThreads Thread Shared Var) : Prop :=
  ∀ thread, (threads.program thread).Disciplined (threads.holds thread)

namespace Sound

theorem initial {shared : Shared} {program : Thread → ThreadProgram Shared Var}
    (disciplined : ∀ thread, (program thread).Disciplined false) : (MutexThreads.initial shared program).Sound := by
  intro thread
  exact disciplined thread

theorem step (sound : threads.Sound) (stepped : threads.step thread = some next) : next.Sound := by
  intro other
  by_cases same : other = thread
  · subst same
    have now := sound other
    obtain ⟨rest, program, _, rfl⟩ | ⟨rest, program, _, rfl⟩ | ⟨var, writes, effect, rest, program, rfl⟩ :=
      step_cases stepped
    · rw [program] at now
      change (Function.update threads.program other rest other).Disciplined (decide (some other = some other))
      rw [Function.update_self, decide_eq_true rfl]
      exact now.2
    · rw [program] at now
      change (Function.update threads.program other rest other).Disciplined false
      rw [Function.update_self]
      exact now.2
    · rw [program] at now
      change (Function.update threads.program other (rest threads.shared) other).Disciplined (threads.holds other)
      rw [Function.update_self]
      exact now threads.shared
  · obtain ⟨program, holds⟩ := others_of_step stepped same
    rw [program, holds]
    exact sound other

theorem run (sound : threads.Sound) {schedule : List Thread}
    (ran : PartialRun.run MutexThreads.step threads schedule = some next) : next.Sound :=
  run_invariant (fun _ _ _ earlier stepped => earlier.step stepped) sound ran

/-- The mutex never reports an error. -/
theorem not_fails (sound : threads.Sound) (thread : Thread) : ¬threads.Fails thread := by
  intro fails
  have now := sound thread
  unfold Fails at fails
  split at fails
  · next rest program =>
      rw [program] at now
      exact of_decide_eq_false now.1 fails
  · next rest program =>
      rw [program] at now
      exact fails (of_decide_eq_true now.1)
  · exact fails

end Sound

/-- What a program may still access after a step it could access before. -/
theorem may_of_step {var : Var} {writes locked : Bool} (stepped : threads.step thread = some next) {other : Thread}
    (may : (next.program other).May var writes locked (next.holds other)) :
    (threads.program other).May var writes locked (threads.holds other) := by
  by_cases same : other = thread
  · subst same
    obtain ⟨rest, program, _, rfl⟩ | ⟨rest, program, _, rfl⟩ | ⟨var', writes', effect, rest, program, rfl⟩ :=
      step_cases stepped
    · change (Function.update threads.program other rest other).May _ _ _ (decide (some other = some other)) at may
      rw [Function.update_self, decide_eq_true rfl] at may
      rw [program]
      exact may
    · change (Function.update threads.program other rest other).May _ _ _ false at may
      rw [Function.update_self] at may
      rw [program]
      exact may
    · change (Function.update threads.program other (rest threads.shared) other).May _ _ _ (threads.holds other) at may
      rw [Function.update_self] at may
      rw [program]
      exact Or.inr ⟨threads.shared, may⟩
  · obtain ⟨program, holds⟩ := others_of_step stepped same
    rwa [program, holds] at may

theorem may_of_run {var : Var} {writes locked : Bool} {schedule : List Thread}
    (ran : run step threads schedule = some next) (other : Thread)
    (may : (next.program other).May var writes locked (next.holds other)) :
    (threads.program other).May var writes locked (threads.holds other) := by
  have keeps (reached : MutexThreads Thread Shared Var) (mover : Thread) (following : MutexThreads Thread Shared Var)
      (earlier : (reached.program other).May var writes locked (reached.holds other) →
        (threads.program other).May var writes locked (threads.holds other))
      (stepped : reached.step mover = some following)
      (later : (following.program other).May var writes locked (following.holds other)) :
      (threads.program other).May var writes locked (threads.holds other) :=
    earlier (may_of_step stepped later)
  exact run_invariant keeps id ran may

/-- A race is between accesses that may come, and at most one of them is made with the mutex. -/
theorem races_cases {shared : Shared} {program : Thread → ThreadProgram Shared Var} {schedule : List Thread}
    {var : Var} (ran : run step (initial shared program) schedule = some next)
    (races : next.Races var) :
    ∃ first second writes writes' locked locked', first ≠ second ∧
      (program first).May var writes locked false ∧ (program second).May var writes' locked' false ∧
        (writes = true ∨ writes' = true) ∧ ¬(locked = true ∧ locked' = true) := by
  obtain ⟨first, second, writes, writes', different, access, access', write⟩ := races
  have now {other : Thread} {writes : Bool} (access : (next.program other).Accesses var writes) :
      (program other).May var writes (next.holds other) false := by
    apply may_of_run ran other
    cases here : next.program other with
    | access var' writes'' effect rest =>
        rw [here] at access
        exact Or.inl ⟨access.1, access.2, rfl⟩
    | done | lock rest | unlock rest =>
        rw [here] at access
        exact access.elim
  refine ⟨first, second, writes, writes', _, _, different, now access, now access', write, ?_⟩
  intro both
  have own := of_decide_eq_true both.1
  have own' := of_decide_eq_true both.2
  exact different (Option.some.inj (own.symm.trans own'))

/-- The mutex does not keep this thread waiting. -/
def FreeFor (threads : MutexThreads Thread Shared Var) (thread : Thread) : Prop :=
  threads.owner = none ∨ threads.owner = some thread

/-- Only this thread runs from one state to another. -/
def Solo (thread : Thread) (threads next : MutexThreads Thread Shared Var) : Prop :=
  ∃ count, run step threads (List.replicate count thread) = some next

namespace Solo

theorem refl (thread : Thread) (threads : MutexThreads Thread Shared Var) : Solo thread threads threads := ⟨0, rfl⟩

theorem step {final : MutexThreads Thread Shared Var} (stepped : threads.step thread = some next)
    (later : Solo thread next final) : Solo thread threads final := by
  obtain ⟨count, ran⟩ := later
  refine ⟨count + 1, ?_⟩
  rw [List.replicate_succ, run_cons, stepped, Option.bind_some, ran]

/-- The programs of the other threads stay where they are. -/
theorem others (solo : Solo thread threads next) {other : Thread} (different : other ≠ thread) :
    next.program other = threads.program other := by
  obtain ⟨count, ran⟩ := solo
  induction count generalizing threads with
  | zero => rw [← Option.some.inj ran]
  | succ count ih =>
      obtain ⟨middle, stepped, ran⟩ := Option.bind_eq_some_iff.mp ran
      rw [ih ran, (others_of_step stepped different).1]

theorem freeFor (solo : Solo thread threads next) (free : threads.FreeFor thread) : next.FreeFor thread := by
  obtain ⟨count, ran⟩ := solo
  induction count generalizing threads with
  | zero => rwa [← Option.some.inj ran]
  | succ count ih =>
      obtain ⟨middle, stepped, ran⟩ := Option.bind_eq_some_iff.mp ran
      apply ih _ ran
      obtain ⟨rest, _, _, rfl⟩ | ⟨rest, _, _, rfl⟩ | ⟨var, writes, effect, rest, _, rfl⟩ := step_cases stepped
      · exact Or.inr rfl
      · exact Or.inl rfl
      · exact free

end Solo

/-- A thread that holds the mutex or finds it free takes its next step. -/
theorem Sound.step_lock (sound : threads.Sound) (free : threads.FreeFor thread) {rest : ThreadProgram Shared Var}
    (now : threads.program thread = .lock rest) :
    threads.step thread =
      some {threads with owner := some thread, program := Function.update threads.program thread rest} := by
  have disciplined := sound thread
  rw [now] at disciplined
  obtain idle | own := free
  · unfold MutexThreads.step
    rw [now]
    exact if_pos idle
  · exact (of_decide_eq_false disciplined.1 own).elim

theorem Sound.step_unlock (sound : threads.Sound) {rest : ThreadProgram Shared Var}
    (now : threads.program thread = .unlock rest) :
    threads.step thread =
      some {threads with owner := none, program := Function.update threads.program thread rest} := by
  have disciplined := sound thread
  rw [now] at disciplined
  unfold MutexThreads.step
  rw [now]
  exact if_pos (of_decide_eq_true disciplined.1)

/-- A thread that does not have to wait comes to each of its sure accesses. -/
theorem Sound.reach (sound : threads.Sound) (free : threads.FreeFor thread) {var : Var} {writes locked : Bool}
    (surely : (threads.program thread).Surely var writes locked (threads.holds thread)) :
    ∃ next, Solo thread threads next ∧ (next.program thread).Accesses var writes ∧ next.holds thread = locked := by
  induction program : threads.program thread generalizing threads with
  | done =>
      rw [program] at surely
      exact surely.elim
  | lock rest ih =>
      have stepped := sound.step_lock free program
      have solo := (Solo.refl thread _).step stepped
      rw [program] at surely
      obtain ⟨next, later, reached⟩ := ih (sound.step stepped) (solo.freeFor free) (by
        change (Function.update threads.program thread rest thread).Surely _ _ _ (decide (some thread = some thread))
        rw [Function.update_self, decide_eq_true rfl]
        exact surely) (Function.update_self ..)
      exact ⟨next, later.step stepped, reached⟩
  | unlock rest ih =>
      have stepped := sound.step_unlock program
      have solo := (Solo.refl thread _).step stepped
      rw [program] at surely
      obtain ⟨next, later, reached⟩ := ih (sound.step stepped) (solo.freeFor free) (by
        change (Function.update threads.program thread rest thread).Surely _ _ _ false
        rw [Function.update_self]
        exact surely) (Function.update_self ..)
      exact ⟨next, later.step stepped, reached⟩
  | access var' writes' effect rest ih =>
      rw [program] at surely
      obtain ⟨rfl, rfl, held⟩ | further := surely
      · refine ⟨threads, Solo.refl thread threads, ?_, held⟩
        rw [program]
        exact ⟨rfl, rfl⟩
      · have stepped := step_access program
        have solo := (Solo.refl thread _).step stepped
        obtain ⟨next, later, reached⟩ := ih threads.shared (sound.step stepped) (solo.freeFor free) (by
          change (Function.update threads.program thread (rest threads.shared) thread).Surely _ _ _ (threads.holds thread)
          rw [Function.update_self]
          exact further threads.shared) (Function.update_self ..)
        exact ⟨next, later.step stepped, reached⟩

/-- A thread that does not have to wait runs to its end, and does what it does alone. -/
theorem Sound.finish (sound : threads.Sound) (free : threads.FreeFor thread) :
    ∃ next, Solo thread threads next ∧ next.program thread = .done ∧ next.owner = none ∧
      next.shared = (threads.program thread).alone threads.shared := by
  induction program : threads.program thread generalizing threads with
  | done =>
      have disciplined := sound thread
      rw [program] at disciplined
      refine ⟨threads, Solo.refl thread threads, program, ?_, rfl⟩
      obtain idle | own := free
      · exact idle
      · exact (of_decide_eq_false disciplined own).elim
  | lock rest ih =>
      have stepped := sound.step_lock free program
      have solo := (Solo.refl thread _).step stepped
      obtain ⟨next, later, ends⟩ := ih (sound.step stepped) (solo.freeFor free) (Function.update_self ..)
      exact ⟨next, later.step stepped, ends⟩
  | unlock rest ih =>
      have stepped := sound.step_unlock program
      have solo := (Solo.refl thread _).step stepped
      obtain ⟨next, later, ends⟩ := ih (sound.step stepped) (solo.freeFor free) (Function.update_self ..)
      exact ⟨next, later.step stepped, ends⟩
  | access var writes effect rest ih =>
      have stepped := step_access program
      have solo := (Solo.refl thread _).step stepped
      obtain ⟨next, later, ends⟩ := ih threads.shared (sound.step stepped) (solo.freeFor free) (Function.update_self ..)
      exact ⟨next, later.step stepped, ends⟩

/-- When the other threads have nothing to do, every schedule does what the thread does alone. -/
theorem shared_of_only {schedule : List Thread} (only : ∀ other, other ≠ thread → threads.program other = .done)
    (ran : run step threads schedule = some next) (ended : next.program thread = .done) :
    next.shared = (threads.program thread).alone threads.shared := by
  induction schedule generalizing threads with
  | nil =>
      obtain rfl := Option.some.inj ran
      rw [ended]
      rfl
  | cons mover schedule ih =>
      obtain ⟨following, stepped, ran⟩ := Option.bind_eq_some_iff.mp ran
      obtain rfl : mover = thread := by
        by_contra different
        unfold step at stepped
        rw [only mover different] at stepped
        cases stepped
      have later := ih (fun other different => by rw [(others_of_step stepped different).1, only other different]) ran
      have own (shared : Shared) (rest : ThreadProgram Shared Var) :
          (Function.update threads.program mover rest mover).alone shared = rest.alone shared := by
        rw [Function.update_self]
      obtain ⟨rest, program, _, rfl⟩ | ⟨rest, program, _, rfl⟩ | ⟨var, writes, effect, rest, program, rfl⟩ :=
        step_cases stepped
      · rw [later, program]
        exact own threads.shared rest
      · rw [later, program]
        exact own threads.shared rest
      · rw [later, program]
        exact own (effect threads.shared) (rest threads.shared)

theorem Sound.solo (sound : threads.Sound) (solo : Solo thread threads next) : next.Sound := by
  obtain ⟨count, ran⟩ := solo
  exact sound.run ran

/-- Once the mutex is free, the threads can finish one after the other. -/
theorem Sound.finish_all (sound : threads.Sound) (idle : threads.owner = none) (active : List Thread) :
    ∃ schedule final, PartialRun.run MutexThreads.step threads schedule = some final ∧
      (∀ thread ∈ active, final.program thread = .done) ∧
      ∀ thread, threads.program thread = .done → final.program thread = .done := by
  induction active generalizing threads with
  | nil => exact ⟨[], threads, rfl, (fun _ member => by cases member), fun _ => id⟩
  | cons thread active ih =>
      have free : threads.FreeFor thread := Or.inl idle
      obtain ⟨next, solo, ended, idle', _⟩ := sound.finish free
      obtain ⟨schedule, final, ran, all, kept⟩ := ih (sound.solo solo) idle'
      have keeps (other : Thread) (done : threads.program other = .done) : next.program other = .done := by
        by_cases same : other = thread
        · rw [same, ended]
        · rw [solo.others same, done]
      obtain ⟨count, alone⟩ := solo
      refine ⟨List.replicate count thread ++ schedule, final, ?_, ?_, fun other done => kept other (keeps other done)⟩
      · rw [run_append, alone, Option.bind_some, ran]
      · intro other member
        obtain rfl | member := List.mem_cons.mp member
        · exact kept other ended
        · exact all other member

/-- There is no deadlock: from every state all threads can finish, when only these threads have something to do. -/
theorem Sound.exists_finish (sound : threads.Sound) (active : List Thread)
    (others : ∀ thread, thread ∉ active → threads.program thread = .done) :
    ∃ schedule final, PartialRun.run MutexThreads.step threads schedule = some final ∧
      ∀ thread, final.program thread = .done := by
  have finished {threads : MutexThreads Thread Shared Var} (sound : threads.Sound) (idle : threads.owner = none)
      (others : ∀ thread, thread ∉ active → threads.program thread = .done) :
      ∃ schedule final, PartialRun.run MutexThreads.step threads schedule = some final ∧
        ∀ thread, final.program thread = .done := by
    obtain ⟨schedule, final, ran, all, kept⟩ := sound.finish_all idle active
    refine ⟨schedule, final, ran, fun thread => ?_⟩
    by_cases member : thread ∈ active
    · exact all thread member
    · exact kept thread (others thread member)
  cases owner : threads.owner with
  | none => exact finished sound owner others
  | some thread =>
      -- The owner first runs to its end, which frees the mutex for the others.
      obtain ⟨next, solo, ended, idle, _⟩ := sound.finish (Or.inr owner)
      obtain ⟨schedule, final, ran, all⟩ := finished (sound.solo solo) idle (by
        intro other absent
        by_cases same : other = thread
        · rw [same, ended]
        · rw [solo.others same, others other absent])
      obtain ⟨count, alone⟩ := solo
      refine ⟨List.replicate count thread ++ schedule, final, ?_, all⟩
      rw [run_append, alone, Option.bind_some, ran]

/-- Two threads race in some schedule when both surely access a variable, one of them writes it, and the first one
does so without the mutex. -/
theorem exists_races {shared : Shared} {program : Thread → ThreadProgram Shared Var} {var : Var}
    {writes writes' locked : Bool} {first second : Thread}
    (disciplined : ∀ thread, (program thread).Disciplined false) (different : first ≠ second)
    (surely : (program first).Surely var writes false false) (surely' : (program second).Surely var writes' locked false)
    (write : writes = true ∨ writes' = true) :
    ∃ schedule next, run step (MutexThreads.initial shared program) schedule = some next ∧ next.Races var := by
  have sound : (MutexThreads.initial shared program).Sound := Sound.initial disciplined
  have free : (MutexThreads.initial shared program).FreeFor first := Or.inl rfl
  obtain ⟨middle, solo, access, holds⟩ := sound.reach free surely
  have idle : middle.owner = none := by
    obtain idle | own := solo.freeFor free
    · exact idle
    · exact (of_decide_eq_false holds own).elim
  have ahead : (middle.program second).Surely var writes' locked (middle.holds second) := by
    rw [solo.others different.symm, MutexThreads.holds, idle]
    exact surely'
  obtain ⟨next, solo', access', _⟩ := (sound.solo solo).reach (Or.inl idle) ahead
  have both : next.Races var := by
    refine ⟨first, second, writes, writes', different, ?_, access', write⟩
    rwa [solo'.others different]
  obtain ⟨count, ran⟩ := solo
  obtain ⟨count', ran'⟩ := solo'
  refine ⟨List.replicate count first ++ List.replicate count' second, next, ?_, both⟩
  rw [run_append, ran, Option.bind_some, ran']

end MutexThreads

end Foundation
