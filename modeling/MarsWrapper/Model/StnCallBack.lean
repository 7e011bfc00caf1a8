import MarsWrapper.Model.LonglinkPacker
import MarsWrapper.Model.MarsPlus

namespace MarsWrapper

open Foundation AutoBufferApi

variable {Buffer : Type} [AutoBufferApi Buffer]

/-- The log line reads the id and the data before the bytes are written. -/
def buildEchatTcpMsg (width : SizeT) (msg : ImMessage) (outbuffer : Buffer) : Option Buffer := do
  let _ ← msg.getMessageId
  let _ ← msg.getData
  let size ← msg.getMessageSize width
  return write outbuffer (← Block.load (← msg.getMessage) 0 size.toNat)

namespace State

/-- The listener runs its own code inside the call. -/
def notify (state : State) (call : Call) (inCallback : State → Option State) : Option State :=
  inCallback {state with calls := state.calls ++ [call]}

/-- The push handler wraps the received bytes in a temporary message of its own. -/
def onPush (width : SizeT) (state : State) (body : Buffer) (inCallback : State → Option State) : Option State := do
  let (pushMessage, state) ← state.newImMessage width (content body) (toInt (length body))
  let message ← state.messages.read pushMessage
  let state ← match state.pushListener with
    | none => some state
    | some pushListener => do
      if ← message.isValid then
        let data ← message.getData
        inCallback {state with pushes := state.pushes ++ [(pushListener, data)]}
      else some state
  state.deleteImMessage pushMessage

/-- The request handler writes the stored message of the task. -/
def req2Buf (width : SizeT) (state : State) (taskid : UInt32) (outbuffer : Buffer) : Option (Bool × Buffer) :=
  match state.getTaskConext taskid with
  | none => some (false, outbuffer)
  | some ctx => do
    let context ← state.contexts.read ctx
    match context.msg with
    | none => some (false, outbuffer)
    | some msg => do
      let outbuffer ← buildEchatTcpMsg width (← state.messages.read msg) outbuffer
      return (true, outbuffer)

/-- The response handler ignores the verdict of the parser. -/
def buf2Resp (width : SizeT) (state : State) (taskid : UInt32) (inbuffer : Buffer)
    (inCallback : State → Option State) : Option (Int × State) :=
  match state.getTaskConext taskid with
  | none => some (-1, state)
  | some ctx => do
    let context ← state.contexts.read ctx
    match context.respCallback with
    | none => some (-1, state)
    | some callback => do
      let (_, parsed) ← ImMessage.empty.parse width (content inbuffer) (toInt (length inbuffer))
      let message := state.messages.next
      let state := {state with messages := state.messages.alloc parsed}
      let data ← (← state.messages.read message).getData
      let state ← state.notify ⟨ctx, taskid, callback, .onResponse data⟩ inCallback
      let state ← state.deleteImMessage message
      return (0, state)

/-- The end handler notifies the listener before it removes the context. -/
def onTaskEnd (state : State) (taskid : UInt32) (errorType errorCode : Int)
    (inCallback : State → Option State) : Option (Int × State) :=
  match state.getTaskConext taskid with
  | none => some (0, state)
  | some ctx => do
    let context ← state.contexts.read ctx
    let state ← match context.respCallback with
      | none => some state
      | some callback =>
        if errorType = kEctOK then state.notify ⟨ctx, taskid, callback, .onSuccess⟩ inCallback
        else state.notify ⟨ctx, taskid, callback, .onError errorCode "request failed."⟩ inCallback
    let state ← state.removeTaskContext taskid
    return (0, state)

end State

end MarsWrapper
