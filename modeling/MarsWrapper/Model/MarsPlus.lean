import MarsWrapper.Model.MarsTaskProxy

namespace MarsWrapper

open Foundation

/-- The caller gives the body bytes, their declared number and a listener. -/
structure SendRequest where
  body : List UInt8
  size : UInt32
  callback : Option Listener
  deriving DecidableEq

/-- Every message is a task of the long connection. -/
def messageTask (taskid : UInt32) : Task where
  taskid := taskid
  cmdid := 55
  channelSelect := Task.kChannelLong
  needAuthed := false
  priority := Task.kTaskPriorityNormal

namespace State

/-- The first step of `sendMessage` constructs the message and reads its id. -/
def constructMessage (width : SizeT) (state : State) (request : SendRequest) :
    Option ((Nat × UInt32) × State) := do
  let (msg, state) ← state.newImMessage width request.body (toInt request.size.toNat)
  let taskid ← (← state.messages.read msg).getMessageId
  return ((msg, taskid), state)

/-- The second step stores a new context under the id. -/
def storeMessage (width : SizeT) (state : State) (msg : Nat) (taskid : UInt32) (request : SendRequest) : State :=
  let ctx := state.contexts.next
  let context : TaskContext :=
    { msg := some msg
      size := UInt32.ofNat (width.wrap (request.size.toNat + MessageFormat.size))
      respCallback := request.callback }
  let stored := state.stored ++ [⟨taskid, request.callback, state.getTaskConext taskid⟩]
  {{state with contexts := state.contexts.alloc context}.storeContext taskid ctx with stored := stored}

/-- The last step hands the task to Mars, which runs it later. -/
def startTask (state : State) (taskid : UInt32) : State :=
  {state with started := state.started ++ [messageTask taskid]}

def sendMessage (width : SizeT) (state : State) (request : SendRequest) : Option (Int × State) := do
  let ((msg, taskid), state) ← state.constructMessage width request
  let state := state.storeMessage width msg taskid request
  return (0, state.startTask taskid)

/-- A listener can send any number of messages from inside its callback. -/
def sendAll (width : SizeT) (state : State) (requests : List SendRequest) : Option State :=
  requests.foldlM (fun state request => (state.sendMessage width request).map Prod.snd) state

def registerPushListener (state : State) (listener : Option Listener) : State :=
  {state with pushListener := listener}

end State

end MarsWrapper
