import MarsWrapper.Ledger.Refinement
import MarsWrapper.Ledger.Numbering

namespace MarsWrapper

open Foundation AutoBufferApi

/-- The two states have the same keys and the same live objects. -/
structure SameStore (state next : State) : Prop where
  keys : next.taskId2TaskCtx = state.taskId2TaskCtx
  contexts : next.contexts = state.contexts
  messages : ∀ msg, next.messages.read msg = state.messages.read msg

/-- The counter moves with the number of messages. -/
structure Counted (state next : State) (taken : Nat) : Prop where
  messageId : next.messageId = state.messageId + UInt32.ofNat taken
  constructed : next.constructed = state.constructed + taken

theorem Counted.same {state next : State} (messageId : next.messageId = state.messageId)
    (constructed : next.constructed = state.constructed) : Counted state next 0 :=
  ⟨messageId.trans (UInt32.add_zero _).symm, constructed⟩

namespace State

variable {Buffer : Type} [AutoBufferApi Buffer] {width : SizeT} {state next : State} {taskid : UInt32}

/-- An encoded message is placed on the heap under its id. -/
theorem constructMessage_of_ofData {request : SendRequest} {message : ImMessage}
    (encoded : ImMessage.ofData width state.messageId request.body (toInt request.size.toNat) = some message)
    (id : message.getMessageId = some taskid) :
    state.constructMessage width request =
      some ((state.messages.next, taskid),
        { state with
          messageId := state.messageId + 1
          constructed := state.constructed + 1
          messages := state.messages.alloc message }) := by
  rw [constructMessage, newImMessage, encoded]
  simp only [Option.bind_eq_bind, Option.bind_some, Option.pure_def, Heap.read_alloc_self, id]

/-- The first step of a send succeeds exactly when its size sum does not wrap and the caller gave the bytes. -/
theorem constructMessage_eq (width : SizeT) (state : State) (request : SendRequest) :
    state.constructMessage width request =
      if 12 + width.ofInt (toInt request.size.toNat) < 2 ^ 32 ∧
          width.ofInt (toInt request.size.toNat) ≤ request.body.length then
        some ((state.messages.next, state.messageId),
          { state with
            messageId := state.messageId + 1
            constructed := state.constructed + 1
            messages := state.messages.alloc
              (ImMessage.framed state.messageId (request.body.take (width.ofInt (toInt request.size.toNat)))) })
      else none := by
  have encoded := ImMessage.ofData_eq width state.messageId request.body (toInt request.size.toNat)
  split
  next admitted =>
    rw [if_pos admitted] at encoded
    obtain ⟨_, _, id, _⟩ := framed_fields width state.messageId
      (request.body.take (width.ofInt (toInt request.size.toNat))) (by
        rw [List.length_take]
        omega)
    exact constructMessage_of_ofData encoded id
  next refused =>
    rw [if_neg refused] at encoded
    rw [constructMessage, newImMessage, encoded]
    rfl

/-- A send that succeeds stores a new context for a new message and starts its task. -/
theorem sendMessage_frame {request : SendRequest} {code : Int}
    (sent : state.sendMessage width request = some (code, next)) :
    ∃ message, next =
      (State.storeMessage width
        { state with
          messageId := state.messageId + 1
          constructed := state.constructed + 1
          messages := state.messages.alloc message }
        state.messages.next state.messageId request).startTask state.messageId := by
  rw [sendMessage] at sent
  obtain ⟨⟨⟨msg, taskid⟩, constructed⟩, made, sent⟩ := Option.bind_eq_some_iff.mp sent
  obtain ⟨_, rfl⟩ := Prod.mk.inj (Option.some.inj sent)
  rw [constructMessage_eq] at made
  split at made
  · obtain ⟨own, rfl⟩ := Prod.mk.inj (Option.some.inj made)
    obtain ⟨rfl, rfl⟩ := Prod.mk.inj own
    exact ⟨_, rfl⟩
  · cases made

theorem next_sendMessage_frame {request : SendRequest}
    (stepped : state.next width (Event.sendMessage request : Event Buffer).quiet = some next) :
    ∃ message, next =
      (State.storeMessage width
        { state with
          messageId := state.messageId + 1
          constructed := state.constructed + 1
          messages := state.messages.alloc message }
        state.messages.next state.messageId request).startTask state.messageId := by
  obtain ⟨⟨answer, result⟩, took, rfl⟩ := Option.map_eq_some_iff.mp stepped
  rw [step] at took
  simp only [Event.quiet] at took
  obtain ⟨⟨code, reached⟩, sent, same⟩ := Option.bind_eq_some_iff.mp took
  obtain ⟨_, rfl⟩ := Prod.mk.inj (Option.some.inj same)
  exact sendMessage_frame sent

/-- The request handler writes the message of a linked key. -/
theorem req2Buf_of_linked {ctx msg : Nat} {context : TaskContext} {message : ImMessage}
    (link : Linked state taskid ctx context msg message) (outbuffer : Buffer) :
    state.req2Buf width taskid outbuffer = (buildEchatTcpMsg width message outbuffer).map (Prod.mk true) := by
  have key : state.getTaskConext taskid = some ctx := link.key
  rw [req2Buf, key]
  simp only [Option.bind_eq_bind, link.context_live, Option.bind_some, link.msg_eq, link.message_live]
  exact Option.map_eq_bind.symm

/-- A successful deletion erases the message and nothing else. -/
theorem eq_of_deleteImMessage {msg : Nat} (deleted : state.deleteImMessage msg = some next) :
    next = {state with messages := state.messages.erase msg} := by
  rw [deleteImMessage] at deleted
  obtain ⟨messages, released, same⟩ := Option.bind_eq_some_iff.mp deleted
  rw [← Option.some.inj same, Heap.eq_erase_of_release released]

/-- A push leaves the store as it was, and its temporary message is gone again. -/
theorem onPush_frame {body : Buffer} (pushed : state.onPush width body some = some next) :
    SameStore state next ∧ Counted state next 1 ∧ next.started = state.started := by
  rw [onPush] at pushed
  obtain ⟨⟨msg, created⟩, constructed, pushed⟩ := Option.bind_eq_some_iff.mp pushed
  obtain ⟨message, live, pushed⟩ := Option.bind_eq_some_iff.mp pushed
  rw [newImMessage] at constructed
  obtain ⟨encoded, _, same⟩ := Option.bind_eq_some_iff.mp constructed
  obtain ⟨rfl, rfl⟩ := Prod.mk.inj (Option.some.inj same)
  have temporary (pushes : List (Listener × List UInt8))
      (deleted : State.deleteImMessage
        { state with
          messageId := state.messageId + 1
          constructed := state.constructed + 1
          messages := state.messages.alloc encoded
          pushes := pushes } state.messages.next = some next) :
      SameStore state next ∧ Counted state next 1 ∧ next.started = state.started := by
    obtain rfl := eq_of_deleteImMessage deleted
    exact ⟨⟨rfl, rfl, fun _ => Heap.read_erase_alloc⟩, ⟨rfl, rfl⟩, rfl⟩
  split at pushed
  · exact temporary state.pushes pushed
  · obtain ⟨valid, _, pushed⟩ := Option.bind_eq_some_iff.mp pushed
    split at pushed
    · obtain ⟨data, _, pushed⟩ := Option.bind_eq_some_iff.mp pushed
      exact temporary _ pushed
    · exact temporary state.pushes pushed

/-- A response leaves the store as it was. -/
theorem buf2Resp_frame {inbuffer : Buffer} {code : Int}
    (answered : state.buf2Resp width taskid inbuffer some = some (code, next)) :
    SameStore state next ∧ Counted state next 0 ∧ next.started = state.started := by
  have unchanged : SameStore state state ∧ Counted state state 0 ∧ state.started = state.started :=
    ⟨⟨rfl, rfl, fun _ => rfl⟩, Counted.same rfl rfl, rfl⟩
  rw [buf2Resp] at answered
  split at answered
  · obtain ⟨_, rfl⟩ := Prod.mk.inj (Option.some.inj answered)
    exact unchanged
  · obtain ⟨context, _, answered⟩ := Option.bind_eq_some_iff.mp answered
    split at answered
    · obtain ⟨_, rfl⟩ := Prod.mk.inj (Option.some.inj answered)
      exact unchanged
    · obtain ⟨parsed, _, answered⟩ := Option.bind_eq_some_iff.mp answered
      obtain ⟨message, _, answered⟩ := Option.bind_eq_some_iff.mp answered
      obtain ⟨data, _, answered⟩ := Option.bind_eq_some_iff.mp answered
      obtain ⟨notified, told, answered⟩ := Option.bind_eq_some_iff.mp answered
      obtain ⟨deleted, released, answered⟩ := Option.bind_eq_some_iff.mp answered
      obtain ⟨_, rfl⟩ := Prod.mk.inj (Option.some.inj answered)
      obtain rfl := Option.some.inj told
      obtain rfl := eq_of_deleteImMessage released
      exact ⟨⟨rfl, rfl, fun _ => Heap.read_erase_alloc⟩, Counted.same rfl rfl, rfl⟩

/-- The end of a stored task releases exactly its two objects. -/
theorem onTaskEnd_of_linked {ctx msg : Nat} {context : TaskContext} {message : ImMessage} (errorType errorCode : Int)
    (link : Linked state taskid ctx context msg message) :
    ∃ calls, state.onTaskEnd taskid errorType errorCode some =
      some (0,
        { state with
          calls := calls
          messages := state.messages.erase msg
          taskId2TaskCtx := Function.update state.taskId2TaskCtx taskid none
          contexts := state.contexts.erase ctx }) := by
  have key : state.getTaskConext taskid = some ctx := link.key
  have removed (calls : List Call) :
      (State.removeTaskContext {state with calls := calls} taskid).bind (fun next => some ((0 : Int), next)) =
        some (0,
          { state with
            calls := calls
            messages := state.messages.erase msg
            taskId2TaskCtx := Function.update state.taskId2TaskCtx taskid none
            contexts := state.contexts.erase ctx }) := by
    have link' : Linked {state with calls := calls} taskid ctx context msg message :=
      ⟨link.key, link.context_live, link.msg_eq, link.message_live⟩
    rw [link'.removeTaskContext]
    rfl
  rw [onTaskEnd, key]
  simp only [Option.bind_eq_bind, link.context_live, Option.bind_some]
  cases context.respCallback with
  | none => exact ⟨state.calls, removed state.calls⟩
  | some listener =>
      simp only [notify]
      split
      · exact ⟨_, removed _⟩
      · exact ⟨_, removed _⟩

/-- The turn that ends a stored task releases exactly its two objects. -/
theorem next_onTaskEnd_of_linked {ctx msg : Nat} {context : TaskContext} {message : ImMessage}
    (errorType errorCode : Int) (link : Linked state taskid ctx context msg message) :
    ∃ calls, state.next width (Event.onTaskEnd taskid errorType errorCode : Event Buffer).quiet =
      some
        { state with
          calls := calls
          messages := state.messages.erase msg
          taskId2TaskCtx := Function.update state.taskId2TaskCtx taskid none
          contexts := state.contexts.erase ctx } := by
  obtain ⟨calls, ended⟩ := onTaskEnd_of_linked errorType errorCode link
  refine ⟨calls, ?_⟩
  rw [next, step]
  simp only [Event.quiet]
  change Option.map _ (Option.bind (state.onTaskEnd taskid errorType errorCode some) _) = _
  rw [ended]
  rfl

/-- The end of an unknown task changes nothing. -/
theorem onTaskEnd_of_none (errorType errorCode : Int) (absent : state.getTaskConext taskid = none) :
    state.onTaskEnd taskid errorType errorCode some = some (0, state) := by
  rw [onTaskEnd, absent]

/-- A removal erases a key that is there, and otherwise changes only the two heaps. -/
theorem removeTaskContext_cases (removed : state.removeTaskContext taskid = some next) :
    (state.getTaskConext taskid = none ∧ next = state) ∨
    ∃ ctx messages contexts, state.getTaskConext taskid = some ctx ∧
      next =
        { state with
          messages := messages
          taskId2TaskCtx := Function.update state.taskId2TaskCtx taskid none
          contexts := contexts } := by
  rw [removeTaskContext] at removed
  split at removed
  next absent => exact Or.inl ⟨absent, (Option.some.inj removed).symm⟩
  next ctx key =>
    obtain ⟨context, _, removed⟩ := Option.bind_eq_some_iff.mp removed
    split at removed
    · obtain ⟨deleted, released, removed⟩ := Option.bind_eq_some_iff.mp removed
      obtain ⟨contexts, _, same⟩ := Option.bind_eq_some_iff.mp removed
      obtain rfl := eq_of_deleteImMessage released
      exact Or.inr ⟨ctx, _, contexts, key, (Option.some.inj same).symm⟩
    · obtain ⟨unchanged, kept, removed⟩ := Option.bind_eq_some_iff.mp removed
      obtain ⟨contexts, _, same⟩ := Option.bind_eq_some_iff.mp removed
      obtain rfl := Option.some.inj kept
      exact Or.inr ⟨ctx, _, contexts, key, (Option.some.inj same).symm⟩

/-- A removal takes no id. -/
theorem removeTaskContext_counted (removed : state.removeTaskContext taskid = some next) : Counted state next 0 := by
  obtain ⟨_, rfl⟩ | ⟨_, _, _, _, rfl⟩ := removeTaskContext_cases removed
  · exact Counted.same rfl rfl
  · exact Counted.same rfl rfl

/-- The end of a task takes no id. -/
theorem onTaskEnd_counted {errorType errorCode code : Int}
    (ended : state.onTaskEnd taskid errorType errorCode some = some (code, next)) : Counted state next 0 := by
  rw [onTaskEnd] at ended
  split at ended
  · obtain ⟨_, rfl⟩ := Prod.mk.inj (Option.some.inj ended)
    exact Counted.same rfl rfl
  · obtain ⟨context, _, ended⟩ := Option.bind_eq_some_iff.mp ended
    have closing (calls : List Call)
        (removed : (State.removeTaskContext {state with calls := calls} taskid).bind
          (fun next => some ((0 : Int), next)) = some (code, next)) : Counted state next 0 := by
      obtain ⟨result, gone, same⟩ := Option.bind_eq_some_iff.mp removed
      obtain ⟨_, rfl⟩ := Prod.mk.inj (Option.some.inj same)
      obtain ⟨messageId, constructed⟩ := removeTaskContext_counted gone
      exact ⟨messageId, constructed⟩
    split at ended
    · exact closing state.calls ended
    · split at ended
      · exact closing _ ended
      · exact closing _ ended

/-- Every quiet event but a send and an end keeps the store and starts no task, and a push takes one id. -/
theorem next_frame {event : Event Buffer} (stepped : state.next width event.quiet = some next)
    (unsent : ∀ request, event ≠ .sendMessage request)
    (unended : ∀ taskid errorType errorCode, event ≠ .onTaskEnd taskid errorType errorCode) :
    SameStore state next ∧ Counted state next (Ledger.takes event) ∧ next.started = state.started := by
  obtain ⟨⟨answer, result⟩, took, rfl⟩ := Option.map_eq_some_iff.mp stepped
  cases event with
  | sendMessage request => exact (unsent request rfl).elim
  | registerPushListener listener =>
      obtain ⟨_, rfl⟩ := Prod.mk.inj (Option.some.inj took)
      exact ⟨⟨rfl, rfl, fun _ => rfl⟩, Counted.same rfl rfl, rfl⟩
  | onPush body =>
      rw [step] at took
      simp only [Event.quiet] at took
      obtain ⟨pushed, reached, same⟩ := Option.bind_eq_some_iff.mp took
      obtain ⟨_, rfl⟩ := Prod.mk.inj (Option.some.inj same)
      exact onPush_frame reached
  | req2Buf taskid outbuffer =>
      obtain ⟨_, _, same⟩ := Option.bind_eq_some_iff.mp took
      obtain ⟨_, rfl⟩ := Prod.mk.inj (Option.some.inj same)
      exact ⟨⟨rfl, rfl, fun _ => rfl⟩, Counted.same rfl rfl, rfl⟩
  | buf2Resp taskid inbuffer =>
      obtain ⟨⟨code, answered⟩, reached, same⟩ := Option.bind_eq_some_iff.mp took
      obtain ⟨_, rfl⟩ := Prod.mk.inj (Option.some.inj same)
      exact buf2Resp_frame reached
  | onTaskEnd taskid errorType errorCode => exact (unended taskid errorType errorCode rfl).elim

end State

end MarsWrapper
