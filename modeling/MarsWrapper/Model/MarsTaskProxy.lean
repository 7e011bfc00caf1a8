import MarsWrapper.Foundation.OwnedHeap
import MarsWrapper.Model.ImMessage
import MarsWrapper.Model.Stn

namespace MarsWrapper

open Foundation

/-- A listener pointer is an opaque handle, and `none` is the null pointer. -/
abbrev Listener := Nat

/-- The pointers of a context are heap addresses. -/
structure TaskContext where
  msg : Option Nat
  size : UInt32
  respCallback : Option Listener
  deriving DecidableEq

/-- These are the methods of `ResponseListener`. -/
inductive ListenerCall where
  | onResponse (message : List UInt8)
  | onError (err : Int) (errMsg : String)
  | onSuccess
  deriving DecidableEq

/-- A recorded call keeps the context and the task for which the listener was called. -/
structure Call where
  context : Nat
  task : UInt32
  listener : Listener
  call : ListenerCall
  deriving DecidableEq

/-- A stored task keeps the context that its key had before. -/
structure StoredTask where
  taskid : UInt32
  callback : Option Listener
  replaced : Option Nat
  deriving DecidableEq

/-- The first five fields are the variables of the program. The other fields record its history:
the number of ids taken, the stored tasks, the started tasks, and the calls of both listener kinds. -/
structure State where
  messageId : UInt32
  taskId2TaskCtx : UInt32 → Option Nat
  contexts : Heap TaskContext
  messages : Heap ImMessage
  pushListener : Option Listener
  constructed : Nat
  stored : List StoredTask
  started : List Task
  calls : List Call
  pushes : List (Listener × List UInt8)

namespace State

/-- The counter starts at ten thousand, and every other variable starts empty. -/
def initial : State where
  messageId := 10000
  taskId2TaskCtx := fun _ => none
  contexts := Heap.empty
  messages := Heap.empty
  pushListener := none
  constructed := 0
  stored := []
  started := []
  calls := []
  pushes := []

/-- The encoding constructor takes the next id and places its message on the heap. -/
def newImMessage (width : SizeT) (state : State) (data : List UInt8) (size : Int) : Option (Nat × State) := do
  let message ← ImMessage.ofData width state.messageId data size
  return (state.messages.next,
    { state with
      messageId := state.messageId + 1
      constructed := state.constructed + 1
      messages := state.messages.alloc message })

/-- The destructor releases the message. -/
def deleteImMessage (state : State) (msg : Nat) : Option State := do
  let messages ← state.messages.release msg
  return {state with messages := messages}

def getTaskConext (state : State) (msgId : UInt32) : Option Nat := state.taskId2TaskCtx msgId

def storeContext (state : State) (taskId : UInt32) (ctx : Nat) : State :=
  {state with taskId2TaskCtx := Function.update state.taskId2TaskCtx taskId (some ctx)}

/-- The removal deletes the message, erases the key and deletes the context. -/
def removeTaskContext (state : State) (msgId : UInt32) : Option State :=
  match state.getTaskConext msgId with
  | none => some state
  | some ctx => do
    let context ← state.contexts.read ctx
    let state ← match context.msg with
      | some msg => state.deleteImMessage msg
      | none => some state
    let state := {state with taskId2TaskCtx := Function.update state.taskId2TaskCtx msgId none}
    let contexts ← state.contexts.release ctx
    return {state with contexts := contexts}

end State

end MarsWrapper
