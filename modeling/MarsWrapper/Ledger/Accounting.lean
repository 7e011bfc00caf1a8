import MarsWrapper.Foundation.Postcondition
import MarsWrapper.Model.Turn

namespace MarsWrapper

open Foundation AutoBufferApi

namespace State

/-- These contexts were still stored when another one took their key. -/
def leaked (state : State) : List Nat := state.stored.filterMap StoredTask.replaced

/-- The live context points to the message. -/
def Carries (state : State) (ctx msg : Nat) : Prop :=
  ∃ context, state.contexts.read ctx = some context ∧ context.msg = some msg

section Store

variable {state : State} {width : SizeT} {msg : Nat} {taskid : UInt32} {request : SendRequest}

/-- A store leaks the context that it displaces. -/
theorem leaked_storeMessage : (state.storeMessage width msg taskid request).leaked =
    state.leaked ++ (state.taskId2TaskCtx taskid).toList := by
  change (state.stored ++ [(⟨taskid, request.callback, state.taskId2TaskCtx taskid⟩ : StoredTask)]).filterMap
    StoredTask.replaced = _
  rw [List.filterMap_append, leaked]
  cases state.taskId2TaskCtx taskid <;> rfl

theorem mem_leaked_storeMessage {ctx : Nat} : ctx ∈ (state.storeMessage width msg taskid request).leaked ↔
    ctx ∈ state.leaked ∨ state.taskId2TaskCtx taskid = some ctx := by
  rw [leaked_storeMessage, List.mem_append, Option.mem_toList]

/-- The new context carries the stored message. -/
theorem carries_storeMessage {ctx msg' : Nat} : (state.storeMessage width msg taskid request).Carries ctx msg' ↔
    ctx = state.contexts.next ∧ msg' = msg ∨ state.Carries ctx msg' := by
  change (∃ context, (state.contexts.alloc _).read ctx = some context ∧ context.msg = some msg') ↔ _
  by_cases same : ctx = state.contexts.next
  · subst same
    rw [Heap.read_alloc_self]
    constructor
    · intro carried
      obtain ⟨context, present, points⟩ := carried
      obtain rfl := Option.some.inj present
      exact Or.inl ⟨rfl, (Option.some.inj points).symm⟩
    · intro carried
      obtain ⟨_, rfl⟩ | ⟨context, present, _⟩ := carried
      · exact ⟨_, rfl, rfl⟩
      · exact (Heap.not_live_next ⟨context, present⟩).elim
  · rw [Heap.read_alloc_of_ne same]
    exact (or_iff_right fun both => same both.1).symm

end Store

/-- An erased context carries nothing. -/
theorem carries_erase {state : State} {ctx ctx' msg : Nat} :
    (∃ context, (state.contexts.erase ctx).read ctx' = some context ∧ context.msg = some msg) ↔
      ctx' ≠ ctx ∧ state.Carries ctx' msg := by
  by_cases same : ctx' = ctx
  · subst same
    rw [Heap.read_erase_self]
    refine iff_of_false (fun carried => ?_) fun both => both.1 rfl
    obtain ⟨_, gone, _⟩ := carried
    cases gone
  · rw [Heap.read_erase_of_ne same, and_iff_right same]
    rfl

end State

/-- A live context is stored under one key or leaked. A live message is held or carried by one live context.
The contexts of the base leaked first. -/
structure Accounted (base : List Nat) (state : State) (held : List Nat) : Prop where
  contexts : ∀ ctx, state.contexts.Live ctx ↔
    (∃ taskid, state.taskId2TaskCtx taskid = some ctx) ∨ ctx ∈ state.leaked
  keyed_once : ∀ {taskid taskid' ctx}, state.taskId2TaskCtx taskid = some ctx →
    state.taskId2TaskCtx taskid' = some ctx → taskid = taskid'
  not_leaked : ∀ {taskid ctx}, state.taskId2TaskCtx taskid = some ctx → ctx ∉ state.leaked
  leaked_once : state.leaked.Nodup
  leaked_first : base <+: state.leaked
  messages : ∀ msg, state.messages.Live msg ↔ msg ∈ held ∨ ∃ ctx, state.Carries ctx msg
  not_held : ∀ {ctx msg}, state.Carries ctx msg → msg ∉ held
  carried_once : ∀ {ctx ctx' msg}, state.Carries ctx msg → state.Carries ctx' msg → ctx = ctx'
  held_once : held.Nodup

namespace Accounted

variable {state next : State} {base held : List Nat}

/-- The initial heaps are empty. -/
theorem initial : Accounted [] State.initial [] := by
  have bare (ctx msg : Nat) : ¬State.initial.Carries ctx msg := by
    intro carried
    obtain ⟨_, live, _⟩ := carried
    cases live
  refine ⟨fun ctx => iff_of_false Heap.not_live_empty ?_, ?_, ?_, List.nodup_nil,
    List.prefix_refl [], fun msg => iff_of_false Heap.not_live_empty ?_, ?_, ?_, List.nodup_nil⟩
  · intro owned
    obtain ⟨_, key⟩ | member := owned
    · cases key
    · cases member
  · intro _ _ _ key
    cases key
  · intro _ _ key
    cases key
  · intro owned
    obtain member | ⟨ctx, carried⟩ := owned
    · cases member
    · exact bare ctx msg carried
  · exact fun carried => (bare _ _ carried).elim
  · exact fun carried => (bare _ _ carried).elim

section Operations

variable (accounted : Accounted base state held)
include accounted

/-- The account depends only on the map, the heaps and the stored tasks. -/
theorem of_same (keys : next.taskId2TaskCtx = state.taskId2TaskCtx) (contexts : next.contexts = state.contexts)
    (messages : next.messages = state.messages) (stored : next.stored = state.stored) : Accounted base next held := by
  have carries (ctx msg : Nat) : next.Carries ctx msg ↔ state.Carries ctx msg := by
    rw [State.Carries, contexts, State.Carries]
  have leaked : next.leaked = state.leaked := by rw [State.leaked, stored, State.leaked]
  refine ⟨?_, ?_, ?_, ?_, leaked ▸ accounted.leaked_first, ?_, ?_, ?_, accounted.held_once⟩
  · rw [keys, contexts, leaked]
    exact accounted.contexts
  · rw [keys]
    exact accounted.keyed_once
  · rw [keys, leaked]
    exact accounted.not_leaked
  · rw [leaked]
    exact accounted.leaked_once
  · simp only [messages, carries]
    exact accounted.messages
  · simp only [carries]
    exact accounted.not_held
  · simp only [carries]
    exact accounted.carried_once

theorem live_of_held {msg : Nat} (member : msg ∈ held) : state.messages.Live msg :=
  (accounted.messages msg).mpr (Or.inl member)

theorem live_of_carries {ctx msg : Nat} (carried : state.Carries ctx msg) : state.messages.Live msg :=
  (accounted.messages msg).mpr (Or.inr ⟨ctx, carried⟩)

/-- A new message is held. -/
theorem allocMessage (message : ImMessage) :
    Accounted base {state with messages := state.messages.alloc message} (state.messages.next :: held) := by
  refine ⟨accounted.contexts, accounted.keyed_once, accounted.not_leaked, accounted.leaked_once,
    accounted.leaked_first, ?_, ?_, accounted.carried_once, ?_⟩
  · intro msg
    change (state.messages.alloc message).Live msg ↔ _ ∨ ∃ ctx, state.Carries ctx msg
    rw [Heap.live_alloc_iff, List.mem_cons, or_assoc, accounted.messages msg]
  · intro ctx msg carried member
    obtain rfl | old := List.mem_cons.mp member
    · exact Heap.not_live_next (accounted.live_of_carries carried)
    · exact accounted.not_held carried old
  · exact List.nodup_cons.mpr ⟨fun member => Heap.not_live_next (accounted.live_of_held member), accounted.held_once⟩

theorem newImMessage (width : SizeT) (data : List UInt8) (size : Int) :
    Ensures (fun created => Accounted base created.2 (created.1 :: held)) (state.newImMessage width data size) := by
  apply Ensures.skip
  intro message _
  exact Ensures.result ((accounted.allocMessage message).of_same rfl rfl rfl rfl)

omit accounted in
/-- A deleted message is no longer held. -/
theorem deleteImMessage {msg : Nat} (accounted : Accounted base state (msg :: held)) :
    Ensures (fun next => Accounted base next held) (state.deleteImMessage msg) := by
  apply Ensures.skip
  intro messages released
  obtain rfl := Heap.eq_erase_of_release released
  obtain ⟨fresh, once⟩ := List.nodup_cons.mp accounted.held_once
  apply Ensures.result
  refine ⟨accounted.contexts, accounted.keyed_once, accounted.not_leaked, accounted.leaked_once,
    accounted.leaked_first, ?_, ?_, accounted.carried_once, once⟩
  · intro other
    change (state.messages.erase msg).Live other ↔ _ ∨ ∃ ctx, state.Carries ctx other
    rw [Heap.live_erase_iff, accounted.messages other, List.mem_cons]
    constructor
    · intro owned
      obtain ⟨different, (rfl | member) | carried⟩ := owned
      · exact (different rfl).elim
      · exact Or.inl member
      · exact Or.inr carried
    · intro owned
      obtain member | ⟨ctx, carried⟩ := owned
      · exact ⟨ne_of_mem_of_not_mem member fresh, Or.inl (Or.inr member)⟩
      · refine ⟨?_, Or.inr ⟨ctx, carried⟩⟩
        rintro rfl
        exact accounted.not_held carried List.mem_cons_self
  · exact fun carried member => accounted.not_held carried (List.mem_cons_of_mem _ member)

omit accounted in
/-- A stored message passes from its holder to a new context, and the context it displaces is leaked. -/
theorem storeMessage {msg : Nat} (accounted : Accounted base state (msg :: held)) (width : SizeT) (taskid : UInt32)
    (request : SendRequest) : Accounted base (state.storeMessage width msg taskid request) held := by
  obtain ⟨fresh, once⟩ := List.nodup_cons.mp accounted.held_once
  have self : (state.storeMessage width msg taskid request).taskId2TaskCtx taskid = some state.contexts.next :=
    Function.update_self ..
  have other {taskid' : UInt32} (different : taskid' ≠ taskid) :
      (state.storeMessage width msg taskid request).taskId2TaskCtx taskid' = state.taskId2TaskCtx taskid' :=
    Function.update_of_ne different ..
  have live_of_key {taskid' : UInt32} {ctx : Nat} (key : state.taskId2TaskCtx taskid' = some ctx) :
      state.contexts.Live ctx := (accounted.contexts ctx).mpr (Or.inl ⟨taskid', key⟩)
  have live_of_leaked {ctx : Nat} (member : ctx ∈ state.leaked) : state.contexts.Live ctx :=
    (accounted.contexts ctx).mpr (Or.inr member)
  have first : base <+: (state.storeMessage width msg taskid request).leaked := by
    rw [State.leaked_storeMessage]
    exact accounted.leaked_first.trans (List.prefix_append ..)
  refine ⟨?_, ?_, ?_, ?_, first, ?_, ?_, ?_, once⟩
  · intro ctx
    change (state.contexts.alloc _).Live ctx ↔ _
    rw [Heap.live_alloc_iff, State.mem_leaked_storeMessage]
    constructor
    · intro live
      obtain rfl | live := live
      · exact Or.inl ⟨taskid, self⟩
      · obtain ⟨taskid', key⟩ | member := (accounted.contexts ctx).mp live
        · by_cases same : taskid' = taskid
          · exact Or.inr (Or.inr (same ▸ key))
          · exact Or.inl ⟨taskid', (other same).trans key⟩
        · exact Or.inr (Or.inl member)
    · intro owned
      obtain ⟨taskid', key⟩ | member | displaced := owned
      · by_cases same : taskid' = taskid
        · rw [same, self] at key
          exact Or.inl (Option.some.inj key).symm
        · exact Or.inr (live_of_key ((other same).symm.trans key))
      · exact Or.inr (live_of_leaked member)
      · exact Or.inr (live_of_key displaced)
  · intro first second ctx key key'
    by_cases same : first = taskid
    · by_cases same' : second = taskid
      · rw [same, same']
      · rw [same, self] at key
        obtain rfl := Option.some.inj key
        exact (Heap.not_live_next (live_of_key ((other same').symm.trans key'))).elim
    · by_cases same' : second = taskid
      · rw [same', self] at key'
        obtain rfl := Option.some.inj key'
        exact (Heap.not_live_next (live_of_key ((other same).symm.trans key))).elim
      · exact accounted.keyed_once ((other same).symm.trans key) ((other same').symm.trans key')
  · intro taskid' ctx key member
    rw [State.mem_leaked_storeMessage] at member
    by_cases same : taskid' = taskid
    · rw [same, self] at key
      obtain rfl := Option.some.inj key
      obtain member | displaced := member
      · exact Heap.not_live_next (live_of_leaked member)
      · exact Heap.not_live_next (live_of_key displaced)
    · have old := (other same).symm.trans key
      obtain member | displaced := member
      · exact accounted.not_leaked old member
      · exact same (accounted.keyed_once old displaced)
  · rw [State.leaked_storeMessage]
    cases displaced : state.taskId2TaskCtx taskid with
    | none => exact (List.append_nil _).symm ▸ accounted.leaked_once
    | some ctx =>
        exact List.nodup_append_comm.mp
          (List.nodup_cons.mpr ⟨accounted.not_leaked displaced, accounted.leaked_once⟩)
  · intro msg'
    change state.messages.Live msg' ↔ _
    rw [accounted.messages msg', List.mem_cons]
    simp only [State.carries_storeMessage]
    constructor
    · intro owned
      obtain (rfl | member) | ⟨ctx, carried⟩ := owned
      · exact Or.inr ⟨_, Or.inl ⟨rfl, rfl⟩⟩
      · exact Or.inl member
      · exact Or.inr ⟨ctx, Or.inr carried⟩
    · intro owned
      obtain member | ⟨ctx, ⟨_, rfl⟩ | carried⟩ := owned
      · exact Or.inl (Or.inr member)
      · exact Or.inl (Or.inl rfl)
      · exact Or.inr ⟨ctx, carried⟩
  · intro ctx msg' carried member
    obtain ⟨_, rfl⟩ | carried := State.carries_storeMessage.mp carried
    · exact fresh member
    · exact accounted.not_held carried (List.mem_cons_of_mem _ member)
  · intro first second msg' carried carried'
    obtain ⟨own, rfl⟩ | old := State.carries_storeMessage.mp carried
    · obtain ⟨own', _⟩ | old' := State.carries_storeMessage.mp carried'
      · rw [own, own']
      · exact (accounted.not_held old' List.mem_cons_self).elim
    · obtain ⟨_, rfl⟩ | old' := State.carries_storeMessage.mp carried'
      · exact (accounted.not_held old List.mem_cons_self).elim
      · exact accounted.carried_once old old'

/-- A task goes with its key, its context and the message that the context points to. -/
theorem dropTask {taskid : UInt32} {ctx : Nat} {context : TaskContext} {messages : Heap ImMessage}
    (key : state.taskId2TaskCtx taskid = some ctx) (present : state.contexts.read ctx = some context)
    (rest : ∀ msg, messages.Live msg ↔ context.msg ≠ some msg ∧ state.messages.Live msg) :
    Accounted base
      { state with
        messages := messages
        taskId2TaskCtx := Function.update state.taskId2TaskCtx taskid none
        contexts := state.contexts.erase ctx } held := by
  have key_of {taskid' : UInt32} {ctx' : Nat}
      (found : Function.update state.taskId2TaskCtx taskid none taskid' = some ctx') :
      taskid' ≠ taskid ∧ state.taskId2TaskCtx taskid' = some ctx' := by
    by_cases same : taskid' = taskid
    · rw [same, Function.update_self] at found
      cases found
    · rw [Function.update_of_ne same] at found
      exact ⟨same, found⟩
  have points {msg : Nat} (pointed : context.msg = some msg) : state.Carries ctx msg := ⟨context, present, pointed⟩
  refine ⟨?_, ?_, ?_, accounted.leaked_once, accounted.leaked_first, ?_, ?_, ?_, accounted.held_once⟩
  · intro ctx'
    change (state.contexts.erase ctx).Live ctx' ↔
      (∃ taskid', Function.update state.taskId2TaskCtx taskid none taskid' = some ctx') ∨ ctx' ∈ state.leaked
    rw [Heap.live_erase_iff, accounted.contexts ctx']
    constructor
    · intro owned
      obtain ⟨different, ⟨taskid', found⟩ | member⟩ := owned
      · refine Or.inl ⟨taskid', (Function.update_of_ne ?_ ..).trans found⟩
        rintro rfl
        exact different (Option.some.inj (found.symm.trans key))
      · exact Or.inr member
    · intro owned
      obtain ⟨taskid', found⟩ | member := owned
      · obtain ⟨different, old⟩ := key_of found
        refine ⟨?_, Or.inl ⟨taskid', old⟩⟩
        rintro rfl
        exact different (accounted.keyed_once old key)
      · exact ⟨ne_of_mem_of_not_mem member (accounted.not_leaked key), Or.inr member⟩
  · exact fun found found' => accounted.keyed_once (key_of found).2 (key_of found').2
  · exact fun found => accounted.not_leaked (key_of found).2
  · intro msg
    change messages.Live msg ↔ msg ∈ held ∨ ∃ ctx', ∃ context',
      (state.contexts.erase ctx).read ctx' = some context' ∧ context'.msg = some msg
    rw [rest msg, accounted.messages msg]
    simp only [State.carries_erase]
    constructor
    · intro owned
      obtain ⟨different, member | ⟨ctx', carried⟩⟩ := owned
      · exact Or.inl member
      · refine Or.inr ⟨ctx', ?_, carried⟩
        rintro rfl
        obtain ⟨context', present', pointed⟩ := carried
        obtain rfl := Option.some.inj (present.symm.trans present')
        exact different pointed
    · intro owned
      obtain member | ⟨ctx', different, carried⟩ := owned
      · exact ⟨fun pointed => accounted.not_held (points pointed) member, Or.inl member⟩
      · exact ⟨fun pointed => different (accounted.carried_once carried (points pointed)), Or.inr ⟨ctx', carried⟩⟩
  · exact fun carried => accounted.not_held (State.carries_erase.mp carried).2
  · intro first second msg carried carried'
    exact accounted.carried_once (State.carries_erase.mp carried).2 (State.carries_erase.mp carried').2

theorem removeTaskContext (taskid : UInt32) :
    Ensures (fun next => Accounted base next held) (state.removeTaskContext taskid) := by
  rw [State.removeTaskContext]
  cases key : state.getTaskConext taskid with
  | none => exact Ensures.result accounted
  | some ctx =>
      apply Ensures.skip
      intro context present
      cases pointed : context.msg with
      | none =>
          apply Ensures.skip
          intro kept unchanged
          obtain rfl := Option.some.inj unchanged
          apply Ensures.skip
          intro contexts released
          obtain rfl := Heap.eq_erase_of_release released
          apply Ensures.result
          apply accounted.dropTask key present
          intro msg
          rw [pointed, and_iff_right (fun same => by cases same)]
      | some msg =>
          apply Ensures.skip
          intro deleted removed
          obtain ⟨messages, released, same⟩ := Option.bind_eq_some_iff.mp removed
          obtain rfl := Option.some.inj same
          obtain rfl := Heap.eq_erase_of_release released
          apply Ensures.skip
          intro contexts released'
          obtain rfl := Heap.eq_erase_of_release released'
          apply Ensures.result
          apply accounted.dropTask key present
          intro msg'
          rw [pointed, Heap.live_erase_iff, ne_eq, ne_eq, Option.some_inj, eq_comm]

end Operations

end Accounted

end MarsWrapper
