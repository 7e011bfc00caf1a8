import MarsWrapper.Foundation.SharedCounter
import MarsWrapper.Tasks.Interleaving

namespace MarsWrapper

open Foundation PartialRun

/-- The counter is a plain static variable, so its post-increment is a load and a later store.
Every thread keeps the id that it has loaded until its store. -/
structure ThreadedSystem where
  system : System
  pending : Nat → Option UInt32
  loaded : List UInt32

/-- A thread that constructs a message first loads its id. The store comes with the rest of the construction,
which is private to the thread. Every other atomic step leaves the counter alone. -/
inductive ThreadStep (Buffer : Type) where
  | loadId (thread : Nat)
  | construct (thread : Nat) (request : SendRequest)
  | onPush (thread : Nat) (body : Buffer)
  | whole (action : Action Buffer)

/-- These steps take an id from the counter. -/
def Action.TakesId {Buffer : Type} : Action Buffer → Prop
  | .construct _ | .engine (.onPush _) | .engine (.sendMessage _) => True
  | _ => False

namespace ThreadedSystem

def initial : ThreadedSystem := ⟨System.initial, fun _ => none, []⟩

/-- The thread continues with the id that it has loaded, whatever the counter holds by now. -/
def withId (threaded : ThreadedSystem) (id : UInt32) : System :=
  {threaded.system with state := {threaded.system.state with messageId := id}}

section Steps

variable {Buffer : Type} [AutoBufferApi Buffer]

/-- The thread takes its step with its own id and stores the next one. -/
def storeId (width : SizeT) (threaded : ThreadedSystem) (thread : Nat) (action : Action Buffer) :
    Option ThreadedSystem := do
  let id ← threaded.pending thread
  let system ← (threaded.withId id).next width action
  return {threaded with system := system, pending := Function.update threaded.pending thread none}

def next (width : SizeT) (threaded : ThreadedSystem) : ThreadStep Buffer → Option ThreadedSystem
  | .loadId thread =>
    match threaded.pending thread with
    | some _ => none
    | none =>
      let id := threaded.system.state.messageId
      some
        { threaded with
          pending := Function.update threaded.pending thread (some id)
          loaded := threaded.loaded ++ [id] }
  | .construct thread request => threaded.storeId width thread (.construct request : Action Buffer)
  | .onPush thread body => threaded.storeId width thread (.engine (.onPush body))
  | .whole action => do
    let system ← threaded.system.next width action
    return {threaded with system := system}

/-- Callers follow their programs, and the engine calls back with valid buffers. -/
def Enabled (threaded : ThreadedSystem) : ThreadStep Buffer → Prop
  | .loadId _ => True
  | .construct _ request => request.Valid
  | .onPush _ body => (Event.onPush body : Event Buffer).Valid
  | .whole action => threaded.system.Enabled action ∧ ¬action.TakesId

/-- No thread loads while another one is between its load and its store. -/
def Untorn (threaded : ThreadedSystem) : ThreadStep Buffer → Prop
  | .loadId _ => ∀ thread, threaded.pending thread = none
  | _ => True

/-- This is what a step does to the counter. -/
def counterStep {Buffer : Type} : ThreadStep Buffer → CounterStep Nat
  | .loadId thread => .load thread
  | .construct thread _ | .onPush thread _ => .store thread
  | .whole _ => .other

def counter (threaded : ThreadedSystem) : SharedCounter Nat UInt32 :=
  ⟨threaded.system.state.messageId, threaded.pending, threaded.loaded⟩

end Steps

end ThreadedSystem

namespace System

variable {Buffer : Type} [AutoBufferApi Buffer] {width : SizeT} {system following : System}

/-- A construction takes one id. -/
theorem messageId_of_construct {request : SendRequest}
    (stepped : system.next width (.construct request : Action Buffer) = some following) :
    following.state.messageId = system.state.messageId + 1 := by
  rw [next, State.constructMessage_eq] at stepped
  split at stepped
  · obtain rfl := Option.some.inj stepped
    rfl
  · contradiction

/-- A push takes one id. -/
theorem messageId_of_onPush {body : Buffer} (stepped : system.next width (.engine (.onPush body)) = some following) :
    following.state.messageId = system.state.messageId + 1 := by
  rw [next] at stepped
  obtain ⟨state, ran, same⟩ := Option.bind_eq_some_iff.mp stepped
  obtain rfl := Option.some.inj same
  exact (State.next_frame ran (fun _ same => by cases same) (fun _ _ _ same => by cases same)).2.1.messageId

/-- Every other step leaves the counter alone. -/
theorem messageId_of_other {action : Action Buffer} (free : ¬action.TakesId)
    (stepped : system.next width action = some following) : following.state.messageId = system.state.messageId := by
  cases action with
  | construct request => exact (free trivial).elim
  | storeContext number =>
      obtain ⟨call, _, same⟩ := Option.bind_eq_some_iff.mp stepped
      obtain rfl := Option.some.inj same
      rfl
  | startTask number =>
      obtain ⟨call, _, same⟩ := Option.bind_eq_some_iff.mp stepped
      obtain rfl := Option.some.inj same
      rfl
  | engine event =>
      rw [next] at stepped
      obtain ⟨state, ran, same⟩ := Option.bind_eq_some_iff.mp stepped
      obtain rfl := Option.some.inj same
      have others (unsent : ∀ request, event ≠ .sendMessage request)
          (unended : ∀ taskid errorType errorCode, event ≠ .onTaskEnd taskid errorType errorCode)
          (unpushed : Ledger.takes event = 0) : state.messageId = system.state.messageId := by
        have counted := (State.next_frame ran unsent unended).2.1.messageId
        rw [unpushed] at counted
        exact counted.trans (UInt32.add_zero _)
      cases event with
      | sendMessage request => exact (free trivial).elim
      | onPush body => exact (free trivial).elim
      | onTaskEnd taskid errorType errorCode =>
          obtain ⟨⟨answer, result⟩, took, rfl⟩ := Option.map_eq_some_iff.mp ran
          obtain ⟨⟨code, ended⟩, reached, same⟩ := Option.bind_eq_some_iff.mp took
          obtain ⟨_, rfl⟩ := Prod.mk.inj (Option.some.inj same)
          exact (State.onTaskEnd_counted reached).messageId.trans (UInt32.add_zero _)
      | registerPushListener listener => exact others (fun _ same => by cases same) (fun _ _ _ same => by cases same) rfl
      | req2Buf taskid outbuffer => exact others (fun _ same => by cases same) (fun _ _ _ same => by cases same) rfl
      | buf2Resp taskid inbuffer => exact others (fun _ same => by cases same) (fun _ _ _ same => by cases same) rfl

end System

namespace ThreadedSystem

variable {Buffer : Type} [AutoBufferApi Buffer] {width : SizeT} {threaded following : ThreadedSystem}

/-- This is the increment of the counter, which wraps around. -/
def increment (id : UInt32) : UInt32 := id + 1

/-- The second half of a construction stores the id after the loaded one. -/
theorem counter_of_storeId {thread : Nat} {action : Action Buffer}
    (takes : ∀ {system next : System}, system.next width action = some next →
      next.state.messageId = system.state.messageId + 1)
    (stepped : threaded.storeId width thread action = some following) :
    SharedCounter.step increment threaded.counter (.store thread) = some following.counter := by
  obtain ⟨id, pending, stepped⟩ := Option.bind_eq_some_iff.mp stepped
  obtain ⟨system, moved, same⟩ := Option.bind_eq_some_iff.mp stepped
  obtain rfl := Option.some.inj same
  have loaded : threaded.counter.pending thread = some id := pending
  have stored : system.state.messageId = id + 1 := takes moved
  rw [SharedCounter.step, loaded]
  change some (⟨id + 1, _, threaded.loaded⟩ : SharedCounter Nat UInt32) = some ⟨system.state.messageId, _, threaded.loaded⟩
  rw [stored]
  rfl

/-- Every step does to the counter what its label says. -/
theorem counter_of_next {step : ThreadStep Buffer} (enabled : threaded.Enabled step)
    (stepped : threaded.next width step = some following) :
    SharedCounter.step increment threaded.counter (counterStep step) = some following.counter := by
  cases step with
  | loadId thread =>
      simp only [next] at stepped
      cases idle : threaded.pending thread with
      | some id =>
          rw [idle] at stepped
          cases stepped
      | none =>
          rw [idle] at stepped
          obtain rfl := Option.some.inj stepped
          have unloaded : threaded.counter.pending thread = none := idle
          rw [counterStep, SharedCounter.step, unloaded]
          rfl
  | construct thread request => exact counter_of_storeId System.messageId_of_construct stepped
  | onPush thread body => exact counter_of_storeId System.messageId_of_onPush stepped
  | whole action =>
      obtain ⟨system, moved, same⟩ := Option.bind_eq_some_iff.mp stepped
      obtain rfl := Option.some.inj same
      rw [counterStep, SharedCounter.step, counter, counter, System.messageId_of_other enabled.2 moved]

/-- The ids of the counter are numbered from its start on. -/
theorem iterate_increment (number : Nat) : increment^[number] 10000 = idOf number := by
  induction number with
  | zero => rfl
  | succ number ih => rw [Function.iterate_succ_apply', ih, idOf_succ, increment]

/-- A thread that holds the current value of the counter takes its step as a whole. -/
theorem system_of_storeId {thread : Nat} {action : Action Buffer}
    (current : ∀ id, threaded.pending thread = some id → id = threaded.system.state.messageId)
    (stepped : threaded.storeId width thread action = some following) :
    threaded.system.next width action = some following.system := by
  obtain ⟨id, pending, stepped⟩ := Option.bind_eq_some_iff.mp stepped
  obtain ⟨system, moved, same⟩ := Option.bind_eq_some_iff.mp stepped
  obtain rfl := Option.some.inj same
  rw [withId, current id pending] at moved
  exact moved

/-- An undisturbed step is at most one atomic step. -/
theorem run_of_next (orderly : SharedCounter.Orderly increment 10000 threaded.counter)
    (ran : System.Run Buffer width threaded.system) {step : ThreadStep Buffer} (enabled : threaded.Enabled step)
    (stepped : threaded.next width step = some following) : System.Run Buffer width following.system := by
  have current (thread : Nat) (id : UInt32) (pending : threaded.pending thread = some id) :
      id = threaded.system.state.messageId := (orderly.current thread id pending).1
  cases step with
  | loadId thread =>
      simp only [next] at stepped
      cases idle : threaded.pending thread with
      | some id =>
          rw [idle] at stepped
          cases stepped
      | none =>
          rw [idle] at stepped
          obtain rfl := Option.some.inj stepped
          exact ran
  | construct thread request =>
      exact ran.step (.construct request) enabled (system_of_storeId (current thread) stepped)
  | onPush thread body =>
      exact ran.step (.engine (.onPush body)) ⟨enabled, trivial⟩ (system_of_storeId (current thread) stepped)
  | whole action =>
      obtain ⟨system, moved, same⟩ := Option.bind_eq_some_iff.mp stepped
      obtain rfl := Option.some.inj same
      exact ran.step action enabled.1 moved

omit [AutoBufferApi Buffer] in
theorem undisturbed_iff (threaded : ThreadedSystem) (step : ThreadStep Buffer) :
    threaded.counter.Undisturbed (counterStep step) ↔ threaded.Untorn step := by
  cases step <;> rfl

/-- The ids are in order, and the steps so far amount to a run of atomic steps. -/
structure Atomic (Buffer : Type) [AutoBufferApi Buffer] (width : SizeT) (threaded : ThreadedSystem) : Prop where
  orderly : SharedCounter.Orderly increment 10000 threaded.counter
  ran : System.Run Buffer width threaded.system

theorem Atomic.step (threaded : ThreadedSystem) (step : ThreadStep Buffer) (following : ThreadedSystem)
    (atomic : Atomic Buffer width threaded) (permitted : threaded.Enabled step ∧ threaded.Untorn step)
    (stepped : threaded.next width step = some following) : Atomic Buffer width following where
  orderly := atomic.orderly.step ((undisturbed_iff threaded step).mpr permitted.2)
    (counter_of_next permitted.1 stepped)
  ran := run_of_next atomic.orderly atomic.ran permitted.1 stepped

end ThreadedSystem

/-- The threads get distinct ids exactly when no id is loaded between the load and the store of another one,
and then the whole run is a run of atomic steps. -/
theorem tornIds {Buffer : Type} [AutoBufferApi Buffer] {width : SizeT} {steps : List (ThreadStep Buffer)}
    {threaded : ThreadedSystem}
    (enabled : Guarded ThreadedSystem.Enabled (ThreadedSystem.next width) ThreadedSystem.initial steps)
    (ran : run (ThreadedSystem.next width) ThreadedSystem.initial steps = some threaded)
    (bound : threaded.loaded.length ≤ 2 ^ 32) :
    (threaded.loaded.Nodup ↔
        Guarded ThreadedSystem.Untorn (ThreadedSystem.next width) ThreadedSystem.initial steps) ∧
      (Guarded ThreadedSystem.Untorn (ThreadedSystem.next width) ThreadedSystem.initial steps →
        System.Run Buffer width threaded.system ∧
          threaded.loaded = (List.range threaded.loaded.length).map idOf) := by
  have follows (threaded : ThreadedSystem) (step : ThreadStep Buffer) (following : ThreadedSystem)
      (allowed : threaded.Enabled step) (stepped : threaded.next width step = some following) :
      SharedCounter.step ThreadedSystem.increment threaded.counter (ThreadedSystem.counterStep step) =
        some following.counter := ThreadedSystem.counter_of_next allowed stepped
  have start : SharedCounter.Orderly ThreadedSystem.increment 10000 ThreadedSystem.initial.counter :=
    SharedCounter.Orderly.initial ThreadedSystem.increment 10000
  have counted := enabled.run_labels follows ran
  have labelled : Guarded SharedCounter.Undisturbed (SharedCounter.step ThreadedSystem.increment)
      ThreadedSystem.initial.counter (steps.map ThreadedSystem.counterStep) ↔
        Guarded ThreadedSystem.Untorn (ThreadedSystem.next width) ThreadedSystem.initial steps :=
    (enabled.labels_iff follows ran).trans (Guarded.congr ThreadedSystem.undisturbed_iff)
  have unique := SharedCounter.nodup_loaded_iff start counted (by
    intro first inside second inside' same
    rw [ThreadedSystem.iterate_increment, ThreadedSystem.iterate_increment, idOf_eq_iff] at same
    have first_lt := inside.trans_le bound
    have second_lt := inside'.trans_le bound
    omega)
  refine ⟨unique.trans labelled, ?_⟩
  intro untorn
  have orderly := start.run (labelled.mpr untorn) counted
  refine ⟨?_, ?_⟩
  · have kept := (enabled.and untorn).run_invariant ThreadedSystem.Atomic.step ⟨start, System.Run.initial⟩ ran
    exact kept.ran
  · have numbered := orderly.loaded
    simp only [ThreadedSystem.iterate_increment] at numbered
    exact numbered

/-- Two callers that load the same id store their contexts under one key, and the first context is lost. -/
example :
    (run (ThreadedSystem.next .bits64) ThreadedSystem.initial
      ([.loadId 0, .loadId 1, .construct 0 ⟨[104], 1, some 7⟩, .construct 1 ⟨[105], 1, some 8⟩,
        .whole (.storeContext 0), .whole (.storeContext 1)] : List (ThreadStep ByteBuffer))).map
      (fun threaded => (threaded.loaded, threaded.system.state.getTaskConext 10000)) =
    some ([10000, 10000], some 1) := rfl

/-- Two callers load in turn, and the second one stores and starts its task first. -/
def turns : List (ThreadStep ByteBuffer) :=
  [.loadId 0, .construct 0 ⟨[104], 1, some 7⟩, .loadId 1, .construct 1 ⟨[105], 1, some 8⟩, .whole (.storeContext 1),
    .whole (.startTask 1), .whole (.storeContext 0)]

theorem turns_enabled : Guarded ThreadedSystem.Enabled (ThreadedSystem.next .bits64) ThreadedSystem.initial turns := by
  refine Guarded.cons trivial rfl (Guarded.cons ?_ rfl (Guarded.cons trivial rfl (Guarded.cons ?_ rfl ?_)))
  · change SendRequest.Valid _
    decide
  · change SendRequest.Valid _
    decide
  · refine Guarded.cons ⟨⟨_, rfl, rfl⟩, id⟩ rfl (Guarded.cons ⟨⟨_, rfl, rfl⟩, id⟩ rfl ?_)
    exact Guarded.cons ⟨⟨_, rfl, rfl⟩, id⟩ rfl trivial

theorem turns_untorn : Guarded ThreadedSystem.Untorn (ThreadedSystem.next .bits64) ThreadedSystem.initial turns := by
  have idle (thread : Nat) : ThreadedSystem.initial.pending thread = none := rfl
  refine Guarded.cons idle rfl (Guarded.cons trivial rfl (Guarded.cons ?_ rfl (Guarded.cons trivial rfl ?_)))
  · intro thread
    change Function.update (Function.update ThreadedSystem.initial.pending 0 (some 10000)) 0 none thread = none
    rw [Function.update_idem]
    exact congrFun (Function.update_eq_self 0 ThreadedSystem.initial.pending) thread
  · exact Guarded.cons trivial rfl (Guarded.cons trivial rfl (Guarded.cons trivial rfl trivial))

theorem tornIds_turns :
    ∃ threaded : ThreadedSystem, threaded.loaded.Nodup ∧ threaded.system.state.getTaskConext 10001 = some 0 ∧
      System.Run ByteBuffer .bits64 threaded.system := by
  have ran : run (ThreadedSystem.next .bits64) ThreadedSystem.initial turns = some _ := rfl
  have torn := tornIds turns_enabled ran (by decide)
  exact ⟨_, torn.1.mpr turns_untorn, rfl, (torn.2 turns_untorn).1⟩

end MarsWrapper
