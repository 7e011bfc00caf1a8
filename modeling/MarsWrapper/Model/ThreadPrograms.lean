import MarsWrapper.Foundation.MutexThreads
import MarsWrapper.Model.Turn

namespace MarsWrapper

open Foundation

/-- These are the static variables that the threads of a process share. A key of the map holds a context pointer,
which can be null. -/
structure Statics where
  messageId : UInt32
  taskId2TaskCtx : UInt32 → Option (Option Nat)
  pushListener : Option Listener
  channelListener : Option Listener

inductive StaticVar where
  | messageId
  | taskId2TaskCtx
  | pushListener
  | channelListener
  deriving DecidableEq

/-- The mutex is `taskId2TaskCtxMutex`. -/
abbrev StaticProgram := ThreadProgram Statics StaticVar

namespace StaticProgram

def read (var : StaticVar) (rest : Statics → StaticProgram) : StaticProgram := .access var false id rest

def write (var : StaticVar) (effect : Statics → Statics) (rest : StaticProgram) : StaticProgram :=
  .access var true effect fun _ => rest

/-- The post-increment loads the counter and then stores it. -/
def newMessageId (rest : UInt32 → StaticProgram) : StaticProgram :=
  read .messageId fun statics =>
    write .messageId (fun later => {later with messageId := statics.messageId + 1}) (rest statics.messageId)

def insert (taskId : UInt32) (ctx : Option Nat) (statics : Statics) : Statics :=
  {statics with taskId2TaskCtx := Function.update statics.taskId2TaskCtx taskId (some ctx)}

def erase (taskId : UInt32) (statics : Statics) : Statics :=
  {statics with taskId2TaskCtx := Function.update statics.taskId2TaskCtx taskId none}

/-- The index operator of the map inserts a null pointer under a key that is not there. -/
def index (msgId : UInt32) (rest : Option Nat → StaticProgram) : StaticProgram :=
  read .taskId2TaskCtx fun statics =>
    match statics.taskId2TaskCtx msgId with
    | some ctx => rest ctx
    | none => write .taskId2TaskCtx (insert msgId none) (rest none)

/-- The lookup first searches for the key and then indexes the map. -/
def getTaskConext (msgId : UInt32) (rest : Option Nat → StaticProgram) : StaticProgram :=
  read .taskId2TaskCtx fun statics =>
    match statics.taskId2TaskCtx msgId with
    | none => rest none
    | some _ => index msgId rest

/-- The store checks its own insertion before it unlocks. -/
def storeContext (taskId : UInt32) (ctx : Nat) (rest : StaticProgram) : StaticProgram :=
  .lock (write .taskId2TaskCtx (insert taskId (some ctx)) (getTaskConext taskId fun _ => .unlock rest))

/-- The removal looks the key up before it locks. -/
def removeTaskContext (msgId : UInt32) (rest : StaticProgram) : StaticProgram :=
  getTaskConext msgId fun ctx =>
    match ctx with
    | none => rest
    | some _ => .lock (write .taskId2TaskCtx (erase msgId) (.unlock rest))

/-- The allocator gives the address of the new context. -/
def sendMessage (ctx : Nat) (rest : StaticProgram) : StaticProgram :=
  newMessageId fun taskid => storeContext taskid ctx rest

end StaticProgram

/-- The application makes these calls, also from inside its listeners. -/
inductive AppCall where
  | sendMessage (ctx : Nat)
  | registerPushListener (listener : Option Listener)
  | registerChannelListener (listener : Option Listener)

def AppCall.program : AppCall → StaticProgram → StaticProgram
  | .sendMessage ctx, rest => StaticProgram.sendMessage ctx rest
  | .registerPushListener listener, rest =>
    StaticProgram.write .pushListener (fun statics => {statics with pushListener := listener}) rest
  | .registerChannelListener listener, rest =>
    StaticProgram.write .channelListener (fun statics => {statics with channelListener := listener}) rest

/-- A listener makes its calls one after the other. -/
def listenerProgram (inListener : List AppCall) (rest : StaticProgram) : StaticProgram :=
  inListener.foldr AppCall.program rest

/-- A thread enters the wrapper through these calls, each with the calls that a notified listener makes.
A context without a listener is one whose listener makes no call. -/
inductive ApiCall where
  | app (call : AppCall)
  | onPush (inListener : List AppCall)
  | req2Buf (taskid : UInt32)
  | buf2Resp (taskid : UInt32) (inListener : List AppCall)
  | onTaskEnd (taskid : UInt32) (inListener : List AppCall)
  | reportConnectStatus (inListener : List AppCall)

/-- The temporary message of a push has just been encoded and is always valid. -/
def ApiCall.program : ApiCall → StaticProgram → StaticProgram
  | .app call, rest => call.program rest
  | .onPush inListener, rest =>
    StaticProgram.newMessageId fun _ =>
      StaticProgram.read .pushListener fun statics =>
        match statics.pushListener with
        | none => rest
        | some _ => listenerProgram inListener rest
  | .req2Buf taskid, rest => StaticProgram.getTaskConext taskid fun _ => rest
  | .buf2Resp taskid inListener, rest =>
    StaticProgram.getTaskConext taskid fun ctx =>
      match ctx with
      | none => rest
      | some _ => listenerProgram inListener rest
  | .onTaskEnd taskid inListener, rest =>
    StaticProgram.getTaskConext taskid fun ctx =>
      match ctx with
      | none => rest
      | some _ => listenerProgram inListener (StaticProgram.removeTaskContext taskid rest)
  | .reportConnectStatus inListener, rest =>
    StaticProgram.read .channelListener fun statics =>
      match statics.channelListener with
      | none => rest
      | some _ => listenerProgram inListener rest

/-- A thread makes its calls one after the other. -/
def threadProgram (calls : List ApiCall) : StaticProgram := calls.foldr ApiCall.program .done

/-- The counter starts at ten thousand, the map is empty, and no listener is registered. -/
def Statics.initial : Statics := ⟨10000, fun _ => none, none, none⟩

end MarsWrapper
