import MarsWrapper.Model.Turn

namespace MarsWrapper

open Foundation AutoBufferApi

/-- An entry holds by value what the wrapper keeps behind two pointers. -/
structure Entry where
  context : Nat
  message : ImMessage
  size : UInt32
  respCallback : Option Listener
  deriving DecidableEq

/-- The ledger maps each task directly to its entry and has no heap. -/
structure Ledger where
  messageId : UInt32
  tasks : UInt32 → Option Entry
  nextContext : Nat
  pushListener : Option Listener
  constructed : Nat
  stored : List StoredTask
  started : List Task
  calls : List Call
  pushes : List (Listener × List UInt8)

namespace Ledger

def initial : Ledger where
  messageId := 10000
  tasks := fun _ => none
  nextContext := 0
  pushListener := none
  constructed := 0
  stored := []
  started := []
  calls := []
  pushes := []

/-- Every constructed message takes one id. -/
def takeId (ledger : Ledger) : Ledger :=
  {ledger with messageId := ledger.messageId + 1, constructed := ledger.constructed + 1}

/-- A pushed message takes an id, and the push listener hears its data. -/
def pushed (ledger : Ledger) (listener : Listener) (data : List UInt8) : Ledger :=
  {ledger.takeId with pushes := ledger.pushes ++ [(listener, data)]}

/-- A stored task replaces the entry of its id. -/
def store (width : SizeT) (ledger : Ledger) (message : ImMessage) (taskid : UInt32)
    (request : SendRequest) : Ledger :=
  { ledger with
    tasks := Function.update ledger.tasks taskid
      (some
        { context := ledger.nextContext
          message := message
          size := UInt32.ofNat (width.wrap (request.size.toNat + MessageFormat.size))
          respCallback := request.callback })
    nextContext := ledger.nextContext + 1
    stored := ledger.stored ++ [⟨taskid, request.callback, (ledger.tasks taskid).map Entry.context⟩] }

def startTask (ledger : Ledger) (taskid : UInt32) : Ledger :=
  {ledger with started := ledger.started ++ [messageTask taskid]}

def remove (ledger : Ledger) (taskid : UInt32) : Ledger :=
  {ledger with tasks := Function.update ledger.tasks taskid none}

section Tasks

variable (width : SizeT) (ledger : Ledger) (message : ImMessage) (request : SendRequest) {taskid other : UInt32}

@[simp] theorem tasks_store_self :
    (ledger.store width message taskid request).tasks taskid =
      some ⟨ledger.nextContext, message, UInt32.ofNat (width.wrap (request.size.toNat + MessageFormat.size)),
        request.callback⟩ := Function.update_self ..

theorem tasks_store_of_ne (different : other ≠ taskid) :
    (ledger.store width message taskid request).tasks other = ledger.tasks other :=
  Function.update_of_ne different ..

@[simp] theorem tasks_remove_self : (ledger.remove taskid).tasks taskid = none := Function.update_self ..

theorem remove_of_none (absent : ledger.tasks taskid = none) : ledger.remove taskid = ledger := by
  rw [remove, ← absent, Function.update_eq_self]

theorem tasks_remove_of_ne (different : other ≠ taskid) : (ledger.remove taskid).tasks other = ledger.tasks other :=
  Function.update_of_ne different ..

end Tasks

def sendMessage (width : SizeT) (ledger : Ledger) (request : SendRequest) : Option Ledger := do
  let message ← ImMessage.ofData width ledger.messageId request.body (toInt request.size.toNat)
  let taskid ← message.getMessageId
  return (ledger.takeId.store width message taskid request).startTask taskid

def sendAll (width : SizeT) (ledger : Ledger) (requests : List SendRequest) : Option Ledger :=
  PartialRun.run (sendMessage width) ledger requests

def notify (ledger : Ledger) (call : Call) (inCallback : Ledger → Option Ledger) : Option Ledger :=
  inCallback {ledger with calls := ledger.calls ++ [call]}

variable {Buffer : Type} [AutoBufferApi Buffer]

def onPush (width : SizeT) (ledger : Ledger) (body : Buffer) (inCallback : Ledger → Option Ledger) :
    Option Ledger := do
  let message ← ImMessage.ofData width ledger.messageId (content body) (toInt (length body))
  match ledger.pushListener with
  | none => some ledger.takeId
  | some pushListener => do
    if ← message.isValid then
      let data ← message.getData
      inCallback (ledger.pushed pushListener data)
    else some ledger.takeId

/-- After the construction of its message the push handler looks for its listener. -/
theorem onPush_of_encoded {width : SizeT} {ledger : Ledger} {body : Buffer} {inCallback : Ledger → Option Ledger}
    {message : ImMessage}
    (encoded : ImMessage.ofData width ledger.messageId (content body) (toInt (length body)) = some message) :
    ledger.onPush width body inCallback =
      (match ledger.pushListener with
      | none => some ledger.takeId
      | some pushListener => do
        if ← message.isValid then
          let data ← message.getData
          inCallback (ledger.pushed pushListener data)
        else some ledger.takeId) := by
  unfold onPush
  rw [encoded]
  rfl

def req2Buf (width : SizeT) (ledger : Ledger) (taskid : UInt32) (outbuffer : Buffer) : Option (Bool × Buffer) :=
  match ledger.tasks taskid with
  | none => some (false, outbuffer)
  | some entry => do
    let outbuffer ← buildEchatTcpMsg width entry.message outbuffer
    return (true, outbuffer)

def buf2Resp (width : SizeT) (ledger : Ledger) (taskid : UInt32) (inbuffer : Buffer)
    (inCallback : Ledger → Option Ledger) : Option (Int × Ledger) :=
  match ledger.tasks taskid with
  | none => some (-1, ledger)
  | some entry =>
    match entry.respCallback with
    | none => some (-1, ledger)
    | some callback => do
      let (_, parsed) ← ImMessage.empty.parse width (content inbuffer) (toInt (length inbuffer))
      let data ← parsed.getData
      let ledger ← ledger.notify ⟨entry.context, taskid, callback, .onResponse data⟩ inCallback
      return (0, ledger)

/-- The end of a task is reported to its listener as this call. -/
def endCall (errorType errorCode : Int) : ListenerCall :=
  if errorType = kEctOK then .onSuccess else .onError errorCode "request failed."

def onTaskEnd (ledger : Ledger) (taskid : UInt32) (errorType errorCode : Int)
    (inCallback : Ledger → Option Ledger) : Option (Int × Ledger) :=
  match ledger.tasks taskid with
  | none => some (0, ledger)
  | some entry => do
    let ledger ← match entry.respCallback with
      | none => some ledger
      | some callback => ledger.notify ⟨entry.context, taskid, callback, endCall errorType errorCode⟩ inCallback
    return (0, ledger.remove taskid)

/-- One turn gives the same answers as the wrapper. -/
def step (width : SizeT) (ledger : Ledger) (turn : Turn Buffer) : Option (Answer Buffer × Ledger) :=
  let inCallback := fun current => Ledger.sendAll width current turn.sends
  match turn.event with
  | .sendMessage request => do
    let ledger ← ledger.sendMessage width request
    return (.sendMessage 0, ledger)
  | .registerPushListener listener => some (.registerPushListener, {ledger with pushListener := listener})
  | .onPush body => do
    let ledger ← ledger.onPush width body inCallback
    return (.onPush, ledger)
  | .req2Buf taskid outbuffer => do
    let (done, outbuffer) ← ledger.req2Buf width taskid outbuffer
    return (.req2Buf done outbuffer, ledger)
  | .buf2Resp taskid inbuffer => do
    let (code, ledger) ← ledger.buf2Resp width taskid inbuffer inCallback
    return (.buf2Resp code, ledger)
  | .onTaskEnd taskid errorType errorCode => do
    let (code, ledger) ← ledger.onTaskEnd taskid errorType errorCode inCallback
    return (.onTaskEnd code, ledger)

def next (width : SizeT) (ledger : Ledger) (turn : Turn Buffer) : Option Ledger :=
  (ledger.step width turn).map Prod.snd

section NextEquations

variable (width : SizeT) (ledger : Ledger) (sends : List SendRequest)

theorem next_sendMessage (request : SendRequest) :
    ledger.next width (⟨.sendMessage request, sends⟩ : Turn Buffer) = ledger.sendMessage width request := by
  simp only [next, step, Option.bind_eq_bind, Option.map_bind]
  exact Option.bind_fun_some _

theorem next_onPush (body : Buffer) :
    ledger.next width ⟨.onPush body, sends⟩ =
      ledger.onPush width body fun current => Ledger.sendAll width current sends := by
  simp only [next, step, Option.bind_eq_bind, Option.map_bind]
  exact Option.bind_fun_some _

theorem next_req2Buf (taskid : UInt32) (outbuffer : Buffer) :
    ledger.next width ⟨.req2Buf taskid outbuffer, sends⟩ =
      (ledger.req2Buf width taskid outbuffer).map fun _ => ledger := by
  simp only [next, step, Option.bind_eq_bind, Option.map_bind]
  exact Option.map_eq_bind.symm

theorem next_buf2Resp (taskid : UInt32) (inbuffer : Buffer) :
    ledger.next width ⟨.buf2Resp taskid inbuffer, sends⟩ =
      (ledger.buf2Resp width taskid inbuffer fun current => Ledger.sendAll width current sends).map Prod.snd := by
  simp only [next, step, Option.bind_eq_bind, Option.map_bind]
  exact Option.map_eq_bind.symm

theorem next_onTaskEnd (taskid : UInt32) (errorType errorCode : Int) :
    ledger.next width (⟨.onTaskEnd taskid errorType errorCode, sends⟩ : Turn Buffer) =
      (ledger.onTaskEnd taskid errorType errorCode fun current => Ledger.sendAll width current sends).map
        Prod.snd := by
  simp only [next, step, Option.bind_eq_bind, Option.map_bind]
  exact Option.map_eq_bind.symm

end NextEquations

def run (width : SizeT) (ledger : Ledger) (turns : List (Turn Buffer)) : Option Ledger :=
  PartialRun.run (Ledger.next width) ledger turns

end Ledger

end MarsWrapper
