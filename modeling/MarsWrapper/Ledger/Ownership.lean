import MarsWrapper.Foundation.Simulation
import MarsWrapper.Ledger.Ledger

namespace MarsWrapper

open Foundation

/-- The key leads through a live context to a live message. -/
structure Linked (state : State) (taskId : UInt32) (ctx : Nat) (context : TaskContext) (msg : Nat)
    (message : ImMessage) : Prop where
  key : state.taskId2TaskCtx taskId = some ctx
  context_live : state.contexts.read ctx = some context
  msg_eq : context.msg = some msg
  message_live : state.messages.read msg = some message

namespace Linked

variable {state : State} {taskId : UInt32} {ctx ctx' msg msg' : Nat} {context context' : TaskContext}
  {message message' : ImMessage}

/-- Each key has one link. -/
theorem unique (first : Linked state taskId ctx context msg message)
    (second : Linked state taskId ctx' context' msg' message') :
    ctx = ctx' ∧ context = context' ∧ msg = msg' ∧ message = message' := by
  obtain rfl := Option.some.inj (first.key.symm.trans second.key)
  obtain rfl := Option.some.inj (first.context_live.symm.trans second.context_live)
  obtain rfl := Option.some.inj (first.msg_eq.symm.trans second.msg_eq)
  obtain rfl := Option.some.inj (first.message_live.symm.trans second.message_live)
  exact ⟨rfl, rfl, rfl, rfl⟩

/-- The removal releases both objects of a linked key. -/
theorem removeTaskContext (link : Linked state taskId ctx context msg message) :
    state.removeTaskContext taskId =
      some
        { state with
          messages := state.messages.erase msg
          taskId2TaskCtx := Function.update state.taskId2TaskCtx taskId none
          contexts := state.contexts.erase ctx } := by
  have key : state.getTaskConext taskId = some ctx := link.key
  rw [State.removeTaskContext, key]
  simp only [link.context_live, Option.bind_eq_bind, Option.bind_some, link.msg_eq, State.deleteImMessage,
    Heap.release_of_read link.message_live, Option.pure_def, Heap.release_of_read link.context_live]

end Linked

/-- Every key is linked, no two keys share a message, and the held messages are live and belong to no key. -/
structure Owned (state : State) (held : List Nat) : Prop where
  linked : ∀ taskId ctx, state.taskId2TaskCtx taskId = some ctx →
    ∃ context msg message, Linked state taskId ctx context msg message ∧ msg ∉ held
  apart : ∀ {taskId taskId' ctx ctx' context context' msg message message'},
    Linked state taskId ctx context msg message → Linked state taskId' ctx' context' msg message' → taskId = taskId'
  held_live : ∀ msg ∈ held, ∃ message, state.messages.read msg = some message
  nodup : held.Nodup

namespace State

/-- This is what a key leads to. -/
def entry (state : State) (taskId : UInt32) : Option Entry := do
  let ctx ← state.getTaskConext taskId
  let context ← state.contexts.read ctx
  let message ← state.messages.read (← context.msg)
  return ⟨ctx, message, context.size, context.respCallback⟩

/-- The ledger of a state follows all its pointers. -/
def ledger (state : State) : Ledger where
  messageId := state.messageId
  tasks := state.entry
  nextContext := state.contexts.next
  pushListener := state.pushListener
  constructed := state.constructed
  stored := state.stored
  started := state.started
  calls := state.calls
  pushes := state.pushes

theorem entry_of_linked {state : State} {taskId : UInt32} {ctx msg : Nat} {context : TaskContext}
    {message : ImMessage} (link : Linked state taskId ctx context msg message) :
    state.entry taskId = some ⟨ctx, message, context.size, context.respCallback⟩ := by
  simp only [entry, getTaskConext, link.key, link.context_live, link.msg_eq, link.message_live,
    Option.bind_eq_bind, Option.bind_some]
  rfl

theorem entry_of_none {state : State} {taskId : UInt32} (absent : state.getTaskConext taskId = none) :
    state.entry taskId = none := by
  rw [entry, absent]
  rfl

end State

namespace Owned

variable {state next : State} {held : List Nat}

/-- The initial store owns nothing. -/
theorem initial : Owned State.initial [] where
  linked _ _ key := by cases key
  apart link := by cases link.key
  held_live _ member := by cases member
  nodup := List.nodup_nil

/-- No held message belongs to a key. -/
theorem held_apart (owned : Owned state held) {taskId : UInt32} {ctx msg : Nat} {context : TaskContext}
    {message : ImMessage} (link : Linked state taskId ctx context msg message) : msg ∉ held := by
  obtain ⟨_, _, _, other, outside⟩ := owned.linked taskId ctx link.key
  obtain ⟨_, _, rfl, _⟩ := link.unique other
  exact outside

/-- No two keys share a context. -/
theorem context_apart (owned : Owned state held) {taskId taskId' : UInt32} {ctx : Nat}
    (key : state.taskId2TaskCtx taskId = some ctx) (key' : state.taskId2TaskCtx taskId' = some ctx) :
    taskId = taskId' := by
  obtain ⟨context, msg, message, link, _⟩ := owned.linked taskId ctx key
  exact owned.apart link ⟨key', link.context_live, link.msg_eq, link.message_live⟩

/-- The ledger has an entry exactly for the keys of the store. -/
theorem context_of_entry (owned : Owned state held) (taskId : UInt32) :
    (state.entry taskId).map Entry.context = state.getTaskConext taskId := by
  cases key : state.getTaskConext taskId with
  | none => rw [State.entry_of_none key, Option.map_none]
  | some ctx =>
      obtain ⟨_, _, _, link, _⟩ := owned.linked taskId ctx key
      rw [State.entry_of_linked link, Option.map_some]

/-- An operation that only drops keys and keeps every other link keeps the ownership. -/
theorem of_kept_links (owned : Owned state held) {held' : List Nat}
    (kept : ∀ taskId ctx context msg message, next.taskId2TaskCtx taskId = some ctx →
      Linked state taskId ctx context msg message →
      msg ∉ held → Linked next taskId ctx context msg message ∧ msg ∉ held')
    (keys : ∀ taskId ctx, next.taskId2TaskCtx taskId = some ctx → state.taskId2TaskCtx taskId = some ctx)
    (held_live : ∀ msg ∈ held', ∃ message, next.messages.read msg = some message) (nodup : held'.Nodup) :
    Owned next held' := by
  have old (taskId : UInt32) (ctx : Nat) (key : next.taskId2TaskCtx taskId = some ctx) :
      ∃ context msg message, Linked state taskId ctx context msg message ∧
        Linked next taskId ctx context msg message ∧ msg ∉ held' := by
    obtain ⟨context, msg, message, link, outside⟩ := owned.linked taskId ctx (keys taskId ctx key)
    exact ⟨context, msg, message, link, kept taskId ctx context msg message key link outside⟩
  refine ⟨?_, ?_, held_live, nodup⟩
  · intro taskId ctx key
    obtain ⟨context, msg, message, _, link, outside⟩ := old taskId ctx key
    exact ⟨context, msg, message, link, outside⟩
  · intro taskId taskId' ctx ctx' context context' msg message message' link link'
    obtain ⟨_, _, _, before, after, _⟩ := old taskId ctx link.key
    obtain ⟨_, _, _, before', after', _⟩ := old taskId' ctx' link'.key
    obtain ⟨_, _, rfl, _⟩ := after.unique link
    obtain ⟨_, _, rfl, _⟩ := after'.unique link'
    exact owned.apart before before'

/-- The entries of kept keys stay as they were. -/
theorem entry_of_kept_link (owned : Owned state held) {taskId : UInt32}
    (key : next.taskId2TaskCtx taskId = state.taskId2TaskCtx taskId)
    (kept : ∀ ctx context msg message, Linked state taskId ctx context msg message → msg ∉ held →
      Linked next taskId ctx context msg message) : next.entry taskId = state.entry taskId := by
  cases found : state.taskId2TaskCtx taskId with
  | none => rw [State.entry_of_none found, State.entry_of_none (key.trans found)]
  | some ctx =>
      obtain ⟨context, msg, message, link, outside⟩ := owned.linked taskId ctx found
      rw [State.entry_of_linked link, State.entry_of_linked (kept ctx context msg message link outside)]

variable (width : SizeT)

/-- The ownership depends only on the map and the two heaps. -/
theorem of_same (owned : Owned state held) (keys : next.taskId2TaskCtx = state.taskId2TaskCtx)
    (contexts : next.contexts = state.contexts) (messages : next.messages = state.messages) : Owned next held := by
  refine owned.of_kept_links ?_ (fun taskId ctx key => by rwa [keys] at key) ?_ owned.nodup
  · intro taskId ctx context msg message key link outside
    exact ⟨⟨key, by rw [contexts, link.context_live], link.msg_eq, by rw [messages, link.message_live]⟩, outside⟩
  · rw [messages]
    exact owned.held_live

/-- A message on the heap is held by the function that created it. -/
theorem allocMessage (owned : Owned state held) (message : ImMessage) :
    Owned {state with messages := state.messages.alloc message} (state.messages.next :: held) ∧
      ({state with messages := state.messages.alloc message} : State).ledger = state.ledger := by
  constructor
  · refine owned.of_kept_links ?_ (fun _ _ key => key) ?_ ?_
    · intro taskId ctx context msg message' _ link outside
      have old := Heap.lt_next_of_read link.message_live
      refine ⟨⟨link.key, link.context_live, link.msg_eq, Heap.read_alloc_of_read link.message_live⟩, ?_⟩
      rw [List.mem_cons, not_or]
      exact ⟨by omega, outside⟩
    · intro msg member
      rcases List.mem_cons.mp member with rfl | old
      · exact ⟨message, Heap.read_alloc_self⟩
      · obtain ⟨other, live⟩ := owned.held_live msg old
        exact ⟨other, Heap.read_alloc_of_read live⟩
    · refine List.nodup_cons.mpr ⟨?_, owned.nodup⟩
      intro member
      obtain ⟨other, live⟩ := owned.held_live _ member
      have old := Heap.lt_next_of_read live
      omega
  · simp only [State.ledger, Ledger.mk.injEq, true_and, and_true]
    funext taskId
    apply owned.entry_of_kept_link
    · rfl
    · intro ctx context msg message' link _
      exact ⟨link.key, link.context_live, link.msg_eq, Heap.read_alloc_of_read link.message_live⟩

/-- A new message takes the next id and is held by its constructor. -/
theorem newImMessage (owned : Owned state held) {data : List UInt8} {size : Int} {message : ImMessage}
    (encoded : ImMessage.ofData width state.messageId data size = some message) :
    ∃ next, state.newImMessage width data size = some (state.messages.next, next) ∧
      Owned next (state.messages.next :: held) ∧ next.messages.read state.messages.next = some message ∧
      next.ledger = state.ledger.takeId := by
  obtain ⟨held_, same⟩ := owned.allocMessage message
  refine ⟨{ state with
    messageId := state.messageId + 1
    constructed := state.constructed + 1
    messages := state.messages.alloc message }, ?_, held_.of_same rfl rfl rfl, Heap.read_alloc_self, ?_⟩
  · rw [State.newImMessage, encoded]
    rfl
  · exact congrArg Ledger.takeId same

/-- A held message can be deleted. -/
theorem deleteImMessage {msg : Nat} (owned : Owned state (msg :: held)) :
    ∃ next, state.deleteImMessage msg = some next ∧ Owned next held ∧ next.ledger = state.ledger ∧
      next = {state with messages := state.messages.erase msg} := by
  obtain ⟨message, live⟩ := owned.held_live msg List.mem_cons_self
  obtain ⟨fresh, nodup⟩ := List.nodup_cons.mp owned.nodup
  refine ⟨{state with messages := state.messages.erase msg}, ?_, ?_, ?_, rfl⟩
  · rw [State.deleteImMessage, Heap.release_of_read live]
    rfl
  · refine owned.of_kept_links ?_ (fun _ _ key => key) ?_ nodup
    · intro taskId ctx context msg' message' _ link outside
      rw [List.mem_cons, not_or] at outside
      exact ⟨⟨link.key, link.context_live, link.msg_eq, by
        change (state.messages.erase msg).read msg' = _
        rw [Heap.read_erase_of_ne outside.1, link.message_live]⟩, outside.2⟩
    · intro msg' member
      obtain ⟨other, live⟩ := owned.held_live msg' (List.mem_cons_of_mem _ member)
      refine ⟨other, ?_⟩
      change (state.messages.erase msg).read msg' = _
      rw [Heap.read_erase_of_ne (ne_of_mem_of_not_mem member fresh), live]
  · simp only [State.ledger, Ledger.mk.injEq, true_and, and_true]
    funext taskId
    apply owned.entry_of_kept_link
    · rfl
    · intro ctx context msg' message' link outside
      rw [List.mem_cons, not_or] at outside
      exact ⟨link.key, link.context_live, link.msg_eq, by
        change (state.messages.erase msg).read msg' = _
        rw [Heap.read_erase_of_ne outside.1, link.message_live]⟩

/-- A stored message passes from its holder to its key. -/
theorem storeMessage {msg : Nat} {message : ImMessage} (owned : Owned state (msg :: held))
    (live : state.messages.read msg = some message) (taskid : UInt32) (request : SendRequest) :
    Owned (state.storeMessage width msg taskid request) held ∧
      (state.storeMessage width msg taskid request).ledger = state.ledger.store width message taskid request := by
  let context : TaskContext :=
    { msg := some msg
      size := UInt32.ofNat (width.wrap (request.size.toNat + MessageFormat.size))
      respCallback := request.callback }
  obtain ⟨fresh, nodup⟩ := List.nodup_cons.mp owned.nodup
  have added : Linked (state.storeMessage width msg taskid request) taskid state.contexts.next context msg message :=
    ⟨Function.update_self .., Heap.read_alloc_self, rfl, live⟩
  have other {taskId : UInt32} (different : taskId ≠ taskid) :
      (state.storeMessage width msg taskid request).taskId2TaskCtx taskId = state.taskId2TaskCtx taskId :=
    Function.update_of_ne different ..
  have kept {taskId : UInt32} (different : taskId ≠ taskid) {ctx msg' : Nat} {context' : TaskContext}
      {message' : ImMessage} (link : Linked state taskId ctx context' msg' message') :
      Linked (state.storeMessage width msg taskid request) taskId ctx context' msg' message' :=
    ⟨(other different).trans link.key, Heap.read_alloc_of_read link.context_live, link.msg_eq, link.message_live⟩
  have old {taskId : UInt32} (different : taskId ≠ taskid) {ctx msg' : Nat} {context' : TaskContext}
      {message' : ImMessage}
      (link : Linked (state.storeMessage width msg taskid request) taskId ctx context' msg' message') :
      Linked state taskId ctx context' msg' message' := by
    obtain ⟨_, _, _, before, _⟩ := owned.linked taskId ctx ((other different).symm.trans link.key)
    obtain ⟨_, rfl, rfl, rfl⟩ := (kept different before).unique link
    exact before
  refine ⟨⟨?_, ?_, ?_, nodup⟩, ?_⟩
  · intro taskId ctx key
    by_cases same : taskId = taskid
    · subst same
      obtain rfl := Option.some.inj (added.key.symm.trans key)
      exact ⟨_, _, _, added, fresh⟩
    · obtain ⟨_, _, _, before, outside⟩ := owned.linked taskId ctx ((other same).symm.trans key)
      exact ⟨_, _, _, kept same before, fun member => outside (List.mem_cons_of_mem _ member)⟩
  · intro taskId taskId' ctx ctx' context context' msg' message message' link link'
    by_cases same : taskId = taskid
    · by_cases same' : taskId' = taskid
      · rw [same, same']
      · subst same
        obtain ⟨_, _, rfl, _⟩ := added.unique link
        exact absurd List.mem_cons_self (owned.held_apart (old same' link'))
    · by_cases same' : taskId' = taskid
      · subst same'
        obtain ⟨_, _, rfl, _⟩ := added.unique link'
        exact absurd List.mem_cons_self (owned.held_apart (old same link))
      · exact owned.apart (old same link) (old same' link')
  · exact fun msg' member => owned.held_live msg' (List.mem_cons_of_mem _ member)
  · have tasks : (state.storeMessage width msg taskid request).entry =
        (state.ledger.store width message taskid request).tasks := by
      funext taskId
      by_cases same : taskId = taskid
      · subst same
        rw [State.entry_of_linked added, Ledger.tasks_store_self]
        rfl
      · rw [Ledger.tasks_store_of_ne _ _ _ _ same]
        exact owned.entry_of_kept_link (other same) fun _ _ _ _ link _ => kept same link
    have replaced : (state.storeMessage width msg taskid request).stored =
        (state.ledger.store width message taskid request).stored := by
      simp only [State.storeMessage, Ledger.store, ← owned.context_of_entry taskid]
      rfl
    rw [State.ledger, tasks, replaced]
    rfl

/-- A removal succeeds and drops the entry of its key. -/
theorem removeTaskContext (owned : Owned state held) (msgId : UInt32) :
    ∃ next, state.removeTaskContext msgId = some next ∧ Owned next held ∧
      next.ledger = state.ledger.remove msgId := by
  cases key : state.getTaskConext msgId with
  | none =>
      exact ⟨state, by rw [State.removeTaskContext, key], owned,
        (state.ledger.remove_of_none (State.entry_of_none key)).symm⟩
  | some ctx =>
      obtain ⟨context, msg, message, link, outside⟩ := owned.linked msgId ctx key
      let next : State :=
        { state with
          messages := state.messages.erase msg
          taskId2TaskCtx := Function.update state.taskId2TaskCtx msgId none
          contexts := state.contexts.erase ctx }
      have self : next.taskId2TaskCtx msgId = none := Function.update_self ..
      have other {taskId : UInt32} (different : taskId ≠ msgId) :
          next.taskId2TaskCtx taskId = state.taskId2TaskCtx taskId := Function.update_of_ne different ..
      have kept {taskId : UInt32} (different : taskId ≠ msgId) {ctx' msg' : Nat} {context' : TaskContext}
          {message' : ImMessage} (link' : Linked state taskId ctx' context' msg' message') :
          Linked next taskId ctx' context' msg' message' := by
        refine ⟨(other different).trans link'.key, ?_, link'.msg_eq, ?_⟩
        · refine (Heap.read_erase_of_ne ?_).trans link'.context_live
          rintro rfl
          exact different (owned.context_apart link'.key key)
        · refine (Heap.read_erase_of_ne ?_).trans link'.message_live
          rintro rfl
          exact different (owned.apart link' link)
      have remains {taskId : UInt32} {ctx' : Nat} (key' : next.taskId2TaskCtx taskId = some ctx') :
          taskId ≠ msgId := by
        rintro rfl
        rw [self] at key'
        contradiction
      refine ⟨next, link.removeTaskContext, owned.of_kept_links ?_ ?_ ?_ owned.nodup, ?_⟩
      · exact fun taskId ctx' context' msg' message' key' link' outside' => ⟨kept (remains key') link', outside'⟩
      · exact fun taskId ctx' key' => (other (remains key')).symm.trans key'
      · intro msg' member
        obtain ⟨message', live⟩ := owned.held_live msg' member
        exact ⟨message', (Heap.read_erase_of_ne (ne_of_mem_of_not_mem member outside)).trans live⟩
      · have tasks : next.entry = (state.ledger.remove msgId).tasks := by
          funext taskId
          by_cases same : taskId = msgId
          · subst same
            rw [State.entry_of_none self, Ledger.tasks_remove_self]
          · rw [Ledger.tasks_remove_of_ne _ same]
            exact owned.entry_of_kept_link (other same) fun _ _ _ _ link' _ => kept same link'
        rw [State.ledger, tasks]
        rfl

end Owned

end MarsWrapper
