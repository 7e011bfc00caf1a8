import MarsWrapper.Ledger.StoreFrame
import MarsWrapper.Tasks.StaticRaces

namespace MarsWrapper

open Foundation PartialRun

namespace StaticProgram

variable {statics : Statics}

theorem alone_newMessageId {rest : UInt32 → StaticProgram} :
    (newMessageId rest).alone statics =
      (rest statics.messageId).alone {statics with messageId := statics.messageId + 1} := rfl

theorem alone_getTaskConext_of_none {msgId : UInt32} {rest : Option Nat → StaticProgram}
    (absent : statics.taskId2TaskCtx msgId = none) :
    (getTaskConext msgId rest).alone statics = (rest none).alone statics := by
  simp only [getTaskConext, read, ThreadProgram.alone, absent, id]

theorem alone_getTaskConext_of_some {msgId : UInt32} {ctx : Option Nat} {rest : Option Nat → StaticProgram}
    (key : statics.taskId2TaskCtx msgId = some ctx) :
    (getTaskConext msgId rest).alone statics = (rest ctx).alone statics := by
  simp only [getTaskConext, index, read, ThreadProgram.alone, key, id]

/-- A lookup that finds its key changes nothing, and neither does one that misses it. -/
theorem alone_getTaskConext {msgId : UInt32} {rest : StaticProgram} :
    (getTaskConext msgId fun _ => rest).alone statics = rest.alone statics := by
  cases key : statics.taskId2TaskCtx msgId with
  | none => exact alone_getTaskConext_of_none key
  | some ctx => exact alone_getTaskConext_of_some key

theorem alone_storeContext {taskId : UInt32} {ctx : Nat} {rest : StaticProgram} :
    (storeContext taskId ctx rest).alone statics = rest.alone (insert taskId (some ctx) statics) :=
  alone_getTaskConext

theorem alone_removeTaskContext_of_some {msgId : UInt32} {ctx : Nat} {rest : StaticProgram}
    (key : statics.taskId2TaskCtx msgId = some (some ctx)) :
    (removeTaskContext msgId rest).alone statics = rest.alone (erase msgId statics) := by
  rw [removeTaskContext, alone_getTaskConext_of_some key]
  rfl

end StaticProgram

namespace State

variable {Buffer : Type} [AutoBufferApi Buffer] {width : SizeT} {state next : State} {inCallback : State → Option State}

/-- The threads see these variables of a state. No stored pointer is null. -/
def statics (state : State) (channelListener : Option Listener) : Statics where
  messageId := state.messageId
  taskId2TaskCtx taskid := (state.taskId2TaskCtx taskid).map some
  pushListener := state.pushListener
  channelListener := channelListener

/-- The handlers of a task notify this listener. -/
def respCallback (state : State) (taskid : UInt32) : Option Listener := do
  let context ← state.contexts.read (← state.getTaskConext taskid)
  context.respCallback

/-- The sends of a listener are these calls, and each new context gets the next address. -/
def sendCalls : Nat → List SendRequest → List AppCall
  | _, [] => []
  | ctx, _ :: later => .sendMessage ctx :: sendCalls (ctx + 1) later

/-- A task without a listener makes no call when its handlers run. -/
def listenerCalls (state : State) (taskid : UInt32) (sends : List SendRequest) : List AppCall :=
  match state.respCallback taskid with
  | none => []
  | some _ => sendCalls state.contexts.next sends

/-- This call of a thread is the turn, with the sends of its listener. -/
def callOf (state : State) (turn : Turn Buffer) : ApiCall :=
  match turn.event with
  | .sendMessage _ => .app (.sendMessage state.contexts.next)
  | .registerPushListener listener => .app (.registerPushListener listener)
  | .onPush _ => .onPush (sendCalls state.contexts.next turn.sends)
  | .req2Buf taskid _ => .req2Buf taskid
  | .buf2Resp taskid _ => .buf2Resp taskid (state.listenerCalls taskid turn.sends)
  | .onTaskEnd taskid _ _ => .onTaskEnd taskid (state.listenerCalls taskid turn.sends)

/-- These calls of a thread are the turns, each in the state that it meets. -/
def callsOf (width : SizeT) (state : State) : List (Turn Buffer) → List ApiCall
  | [] => []
  | turn :: turns =>
    state.callOf turn ::
      match state.next width turn with
      | none => []
      | some next => callsOf width next turns

section Statics

variable (channelListener : Option Listener) {taskid : UInt32}

/-- The code of a listener runs between these two states. The states in which it starts and returns have the same
variables. -/
def Notifies (state : State) (inCallback : State → Option State) (next : State) : Prop :=
  ∃ notified returned, inCallback notified = some returned ∧
    notified.statics channelListener = state.statics channelListener ∧ notified.contexts = state.contexts ∧
    next.statics channelListener = returned.statics channelListener

theorem respCallback_of_none (absent : state.getTaskConext taskid = none) : state.respCallback taskid = none := by
  rw [respCallback, absent]
  rfl

theorem respCallback_of_live {ctx : Nat} {context : TaskContext} (key : state.getTaskConext taskid = some ctx)
    (live : state.contexts.read ctx = some context) : state.respCallback taskid = context.respCallback := by
  rw [respCallback, key]
  change (state.contexts.read ctx).bind TaskContext.respCallback = _
  rw [live, Option.bind_some]

/-- A push takes an id, and a registered listener runs after that. -/
theorem onPush_cases {body : Buffer} (pushed : state.onPush width body inCallback = some next) :
    (state.pushListener = none ∧
      next.statics channelListener = {state.statics channelListener with messageId := state.messageId + 1}) ∨
    (state.pushListener ≠ none ∧
      Notifies channelListener {state with messageId := state.messageId + 1} inCallback next) := by
  rw [onPush] at pushed
  obtain ⟨⟨msg, created⟩, constructed, pushed⟩ := Option.bind_eq_some_iff.mp pushed
  obtain ⟨message, live, pushed⟩ := Option.bind_eq_some_iff.mp pushed
  rw [newImMessage] at constructed
  obtain ⟨encoded, written, same⟩ := Option.bind_eq_some_iff.mp constructed
  obtain ⟨rfl, rfl⟩ := Prod.mk.inj (Option.some.inj same)
  have valid : message.isValid = some true := by
    rw [Heap.read_alloc_self] at live
    obtain rfl := Option.some.inj live
    rw [ImMessage.ofData_eq] at written
    split at written
    next admitted =>
      obtain rfl := Option.some.inj written
      refine (framed_fields width state.messageId _ ?_).1
      rw [List.length_take]
      omega
    · cases written
  split at pushed
  next unheard =>
    obtain rfl := eq_of_deleteImMessage pushed
    exact Or.inl ⟨unheard, rfl⟩
  next listener heard =>
    obtain ⟨flag, read, pushed⟩ := Option.bind_eq_some_iff.mp pushed
    obtain rfl := Option.some.inj (valid.symm.trans read)
    rw [if_pos rfl] at pushed
    obtain ⟨data, _, pushed⟩ := Option.bind_eq_some_iff.mp pushed
    obtain ⟨returned, told, pushed⟩ := Option.bind_eq_some_iff.mp pushed
    obtain rfl := eq_of_deleteImMessage pushed
    refine Or.inr ⟨?_, _, returned, told, rfl, rfl, rfl⟩
    rw [show state.pushListener = some listener from heard]
    exact Option.some_ne_none listener

/-- A response runs the listener of its task, or changes nothing. -/
theorem buf2Resp_cases {inbuffer : Buffer} {code : Int}
    (answered : state.buf2Resp width taskid inbuffer inCallback = some (code, next)) :
    (state.respCallback taskid = none ∧ next = state) ∨
    (state.respCallback taskid ≠ none ∧ (∃ ctx, state.getTaskConext taskid = some ctx) ∧
      Notifies channelListener state inCallback next) := by
  rw [buf2Resp] at answered
  cases key : state.getTaskConext taskid with
  | none =>
      rw [key] at answered
      obtain ⟨_, rfl⟩ := Prod.mk.inj (Option.some.inj answered)
      exact Or.inl ⟨respCallback_of_none key, rfl⟩
  | some ctx =>
      rw [key] at answered
      obtain ⟨context, live, answered⟩ := Option.bind_eq_some_iff.mp answered
      rw [respCallback_of_live key live]
      cases listening : context.respCallback with
      | none =>
          rw [listening] at answered
          obtain ⟨_, rfl⟩ := Prod.mk.inj (Option.some.inj answered)
          exact Or.inl ⟨rfl, rfl⟩
      | some listener =>
          rw [listening] at answered
          obtain ⟨parsed, _, answered⟩ := Option.bind_eq_some_iff.mp answered
          obtain ⟨message, _, answered⟩ := Option.bind_eq_some_iff.mp answered
          obtain ⟨data, _, answered⟩ := Option.bind_eq_some_iff.mp answered
          obtain ⟨returned, told, answered⟩ := Option.bind_eq_some_iff.mp answered
          obtain ⟨deleted, released, answered⟩ := Option.bind_eq_some_iff.mp answered
          obtain ⟨_, rfl⟩ := Prod.mk.inj (Option.some.inj answered)
          obtain rfl := eq_of_deleteImMessage released
          exact Or.inr ⟨Option.some_ne_none listener, ⟨ctx, rfl⟩, _, returned, told, rfl, rfl, rfl⟩

/-- The end of a stored task runs its listener, if it has one, and then removes the task. -/
theorem onTaskEnd_cases {errorType errorCode code : Int}
    (ended : state.onTaskEnd taskid errorType errorCode inCallback = some (code, next)) :
    (state.getTaskConext taskid = none ∧ next = state) ∨
    (∃ ctx, state.getTaskConext taskid = some ctx) ∧
      ((state.respCallback taskid = none ∧ state.removeTaskContext taskid = some next) ∨
        (state.respCallback taskid ≠ none ∧ ∃ returned, Notifies channelListener state inCallback returned ∧
          returned.removeTaskContext taskid = some next)) := by
  rw [onTaskEnd] at ended
  cases key : state.getTaskConext taskid with
  | none =>
      rw [key] at ended
      obtain ⟨_, rfl⟩ := Prod.mk.inj (Option.some.inj ended)
      exact Or.inl ⟨rfl, rfl⟩
  | some ctx =>
      rw [key] at ended
      obtain ⟨context, live, ended⟩ := Option.bind_eq_some_iff.mp ended
      rw [respCallback_of_live key live]
      have closing {returned : State}
          (removed : (returned.removeTaskContext taskid).bind (fun next => some ((0 : Int), next)) = some (code, next)) :
          returned.removeTaskContext taskid = some next := by
        obtain ⟨result, gone, same⟩ := Option.bind_eq_some_iff.mp removed
        obtain ⟨_, rfl⟩ := Prod.mk.inj (Option.some.inj same)
        exact gone
      refine Or.inr ⟨⟨ctx, rfl⟩, ?_⟩
      split at ended
      next unheard => exact Or.inl ⟨unheard, closing ended⟩
      next listener heard =>
        right
        rw [heard]
        refine ⟨Option.some_ne_none listener, ?_⟩
        split at ended
        · obtain ⟨returned, told, ended⟩ := Option.bind_eq_some_iff.mp ended
          exact ⟨returned, ⟨_, returned, told, rfl, rfl, rfl⟩, closing ended⟩
        · obtain ⟨returned, told, ended⟩ := Option.bind_eq_some_iff.mp ended
          exact ⟨returned, ⟨_, returned, told, rfl, rfl, rfl⟩, closing ended⟩

/-- A changed key of a state is a changed key of the variables. -/
theorem map_update (keys : UInt32 → Option Nat) (value : Option Nat) :
    Function.update (fun other => (keys other).map some) taskid (value.map some) =
      fun other => (Function.update keys taskid value other).map some :=
  (Function.comp_update (Option.map some) keys taskid value).symm

/-- A removal erases its key, if it is there. -/
theorem alone_removeTaskContext (removed : state.removeTaskContext taskid = some next) {rest : StaticProgram} :
    (StaticProgram.removeTaskContext taskid rest).alone (state.statics channelListener) =
      rest.alone (next.statics channelListener) := by
  obtain ⟨absent, rfl⟩ | ⟨ctx, messages, contexts, key, rfl⟩ := removeTaskContext_cases removed
  · rw [StaticProgram.removeTaskContext, StaticProgram.alone_getTaskConext_of_none (congrArg (Option.map some) absent)]
  · rw [StaticProgram.alone_removeTaskContext_of_some (congrArg (Option.map some) key), StaticProgram.erase, statics,
      statics]
    exact congrArg (fun keys => rest.alone ⟨_, keys, _, _⟩) (map_update state.taskId2TaskCtx none)

/-- A send takes an id and stores a context with the next address under it. -/
theorem alone_sendMessage {request : SendRequest} {code : Int}
    (sent : state.sendMessage width request = some (code, next)) {rest : StaticProgram} :
    (StaticProgram.sendMessage state.contexts.next rest).alone (state.statics channelListener) =
      rest.alone (next.statics channelListener) ∧ next.contexts.next = state.contexts.next + 1 := by
  obtain ⟨message, rfl⟩ := sendMessage_frame sent
  refine ⟨?_, rfl⟩
  rw [StaticProgram.sendMessage, StaticProgram.alone_newMessageId, StaticProgram.alone_storeContext,
    StaticProgram.insert, statics]
  exact congrArg (fun keys => rest.alone ⟨_, keys, _, _⟩) (map_update state.taskId2TaskCtx (some state.contexts.next))

/-- A listener that sends messages changes the variables as its sends do. -/
theorem alone_sendAll {sends : List SendRequest} (sent : state.sendAll width sends = some next)
    {rest : StaticProgram} :
    (listenerProgram (sendCalls state.contexts.next sends) rest).alone (state.statics channelListener) =
      rest.alone (next.statics channelListener) := by
  induction sends generalizing state with
  | nil =>
      obtain rfl := Option.some.inj sent
      rfl
  | cons request later ih =>
      rw [sendAll, List.foldlM_cons] at sent
      obtain ⟨middle, first, rest⟩ := Option.bind_eq_some_iff.mp sent
      obtain ⟨⟨code, reached⟩, own, rfl⟩ := Option.map_eq_some_iff.mp first
      obtain ⟨stored, address⟩ := alone_sendMessage channelListener own
      rw [sendCalls, ← address]
      exact stored.trans (ih rest)

/-- The calls of a notified listener change the variables as the sends inside the handler do. -/
theorem Notifies.alone {sends : List SendRequest}
    (notifies : Notifies channelListener state (fun current => State.sendAll width current sends) next)
    {rest : StaticProgram} :
    (listenerProgram (sendCalls state.contexts.next sends) rest).alone (state.statics channelListener) =
      rest.alone (next.statics channelListener) := by
  obtain ⟨notified, returned, sent, before, contexts, after⟩ := notifies
  rw [← before, ← contexts, alone_sendAll channelListener sent, after]

/-- A call of one thread changes the static variables exactly as the turn of the sequential model does. -/
theorem alone_callOf {turn : Turn Buffer} (stepped : state.next width turn = some next) {rest : StaticProgram} :
    ((state.callOf turn).program rest).alone (state.statics channelListener) =
      rest.alone (next.statics channelListener) := by
  obtain ⟨⟨answer, result⟩, took, rfl⟩ := Option.map_eq_some_iff.mp stepped
  obtain ⟨event, sends⟩ := turn
  rw [step] at took
  cases event with
  | sendMessage request =>
      obtain ⟨⟨code, reached⟩, sent, same⟩ := Option.bind_eq_some_iff.mp took
      obtain ⟨_, rfl⟩ := Prod.mk.inj (Option.some.inj same)
      exact (alone_sendMessage channelListener sent).1
  | registerPushListener listener =>
      obtain ⟨_, rfl⟩ := Prod.mk.inj (Option.some.inj took)
      rfl
  | onPush body =>
      obtain ⟨pushed, reached, same⟩ := Option.bind_eq_some_iff.mp took
      obtain ⟨_, rfl⟩ := Prod.mk.inj (Option.some.inj same)
      rw [callOf, ApiCall.program, StaticProgram.alone_newMessageId]
      obtain ⟨unheard, reads⟩ | ⟨heard, notifies⟩ := onPush_cases channelListener reached
      · rw [reads]
        simp only [StaticProgram.read, ThreadProgram.alone, statics, unheard, id]
      · obtain ⟨listener, heard⟩ := Option.ne_none_iff_exists'.mp heard
        simp only [StaticProgram.read, ThreadProgram.alone, statics, heard, id]
        have told : (listenerProgram (sendCalls state.contexts.next sends) rest).alone _ = _ :=
          notifies.alone channelListener
        simp only [statics, heard] at told
        exact told
  | req2Buf taskid outbuffer =>
      obtain ⟨_, _, same⟩ := Option.bind_eq_some_iff.mp took
      obtain ⟨_, rfl⟩ := Prod.mk.inj (Option.some.inj same)
      rw [callOf, ApiCall.program, StaticProgram.alone_getTaskConext]
  | buf2Resp taskid inbuffer =>
      obtain ⟨⟨code, answered⟩, reached, same⟩ := Option.bind_eq_some_iff.mp took
      obtain ⟨_, rfl⟩ := Prod.mk.inj (Option.some.inj same)
      rw [callOf, ApiCall.program, listenerCalls]
      obtain ⟨unheard, same⟩ | ⟨heard, ⟨ctx, key⟩, notifies⟩ := buf2Resp_cases channelListener reached
      · rw [unheard, same]
        cases key : state.taskId2TaskCtx taskid with
        | none => rw [StaticProgram.alone_getTaskConext_of_none (congrArg (Option.map some) key)]
        | some ctx =>
            rw [StaticProgram.alone_getTaskConext_of_some (congrArg (Option.map some) key)]
            rfl
      · obtain ⟨listener, heard⟩ := Option.ne_none_iff_exists'.mp heard
        rw [heard, StaticProgram.alone_getTaskConext_of_some (congrArg (Option.map some) key)]
        exact notifies.alone channelListener
  | onTaskEnd taskid errorType errorCode =>
      obtain ⟨⟨code, ended⟩, reached, same⟩ := Option.bind_eq_some_iff.mp took
      obtain ⟨_, rfl⟩ := Prod.mk.inj (Option.some.inj same)
      rw [callOf, ApiCall.program, listenerCalls]
      obtain ⟨absent, same⟩ | ⟨⟨ctx, key⟩, ⟨unheard, removed⟩ | ⟨heard, returned, notifies, removed⟩⟩ :=
        onTaskEnd_cases channelListener reached
      · rw [StaticProgram.alone_getTaskConext_of_none (congrArg (Option.map some) absent), same]
      · rw [unheard, StaticProgram.alone_getTaskConext_of_some (congrArg (Option.map some) key)]
        exact alone_removeTaskContext channelListener removed
      · obtain ⟨listener, heard⟩ := Option.ne_none_iff_exists'.mp heard
        rw [heard, StaticProgram.alone_getTaskConext_of_some (congrArg (Option.map some) key)]
        exact (notifies.alone channelListener).trans (alone_removeTaskContext channelListener removed)

end Statics

/-- The calls of one thread compute what the sequential model computes. -/
theorem alone_callsOf (channelListener : Option Listener) {turns : List (Turn Buffer)} {final : State}
    (ran : state.run width turns = some final) :
    (threadProgram (callsOf width state turns)).alone (state.statics channelListener) =
      final.statics channelListener := by
  induction turns generalizing state with
  | nil =>
      obtain rfl := Option.some.inj ran
      rfl
  | cons turn turns ih =>
      obtain ⟨next, stepped, ran⟩ := Option.bind_eq_some_iff.mp ran
      rw [callsOf, stepped]
      exact (alone_callOf channelListener stepped).trans (ih ran)

end State

/-- When one thread makes all calls, with the sends of their listeners inside, every schedule that finishes them ends
with the variables of the sequential run. -/
theorem oneThread {Thread Buffer : Type} [DecidableEq Thread] [AutoBufferApi Buffer] {width : SizeT} {thread : Thread}
    {calls : Thread → List ApiCall} {turns : List (Turn Buffer)} {final : State} {schedule : List Thread}
    {reached : MutexThreads Thread Statics StaticVar}
    (ran : State.initial.run width turns = some final)
    (own : calls thread = State.callsOf width State.initial turns) (others : ∀ other, other ≠ thread → calls other = [])
    (scheduled : run MutexThreads.step (threadsOf calls) schedule = some reached)
    (ended : reached.program thread = .done) : reached.shared = final.statics none := by
  have only (other : Thread) (different : other ≠ thread) : (threadsOf calls).program other = .done := by
    change threadProgram (calls other) = .done
    rw [others other different]
    rfl
  rw [MutexThreads.shared_of_only only scheduled ended]
  change (threadProgram (calls thread)).alone Statics.initial = _
  rw [own]
  exact State.alone_callsOf none ran

/-- A message is sent, and its listener sends another one when its task ends. -/
def sendAtEnd : List (Turn ByteBuffer) :=
  [⟨.sendMessage ⟨[104], 1, some 7⟩, []⟩, ⟨.onTaskEnd 10000 0 0, [⟨[105], 1, none⟩]⟩]

def sendAndEnd (_ : Unit) : List ApiCall := [.app (.sendMessage 0), .onTaskEnd 10000 [.sendMessage 1]]

/-- Only the second message is still stored under its id. -/
theorem oneThread_sendAndEnd :
    ∃ reached, run MutexThreads.step (threadsOf sendAndEnd) (List.replicate 21 ()) = some reached ∧
      reached.shared.messageId = 10002 ∧ reached.shared.taskId2TaskCtx 10000 = none ∧
      reached.shared.taskId2TaskCtx 10001 = some (some 1) := by
  have ran : State.initial.run .bits64 sendAtEnd = some _ := rfl
  have scheduled : run MutexThreads.step (threadsOf sendAndEnd) (List.replicate 21 ()) = some _ := rfl
  have own : sendAndEnd () = State.callsOf .bits64 State.initial sendAtEnd := rfl
  have same := oneThread ran own nofun scheduled rfl
  refine ⟨_, scheduled, ?_⟩
  rw [same]
  exact ⟨rfl, rfl, rfl⟩

end MarsWrapper
