import MarsWrapper.Foundation.PartialRun
import MarsWrapper.Model.StnCallBack

namespace MarsWrapper

open Foundation

/-- The application and the engine enter the wrapper through these calls. -/
inductive Event (Buffer : Type) where
  | sendMessage (request : SendRequest)
  | registerPushListener (listener : Option Listener)
  | onPush (body : Buffer)
  | req2Buf (taskid : UInt32) (outbuffer : Buffer)
  | buf2Resp (taskid : UInt32) (inbuffer : Buffer)
  | onTaskEnd (taskid : UInt32) (errorType errorCode : Int)

/-- A turn is one call and the messages that a listener sends while the call notifies it. -/
structure Turn (Buffer : Type) where
  event : Event Buffer
  sends : List SendRequest

/-- No listener sends a message inside a quiet turn. -/
def Event.quiet {Buffer : Type} (event : Event Buffer) : Turn Buffer := ⟨event, []⟩

/-- This is what the caller gets back. -/
inductive Answer (Buffer : Type) where
  | sendMessage (code : Int)
  | registerPushListener
  | onPush
  | req2Buf (done : Bool) (outbuffer : Buffer)
  | buf2Resp (code : Int)
  | onTaskEnd (code : Int)

namespace State

variable {Buffer : Type} [AutoBufferApi Buffer]

/-- One turn gives an answer and the next state, or undefined behaviour. -/
def step (width : SizeT) (state : State) (turn : Turn Buffer) : Option (Answer Buffer × State) :=
  let inCallback := fun current => State.sendAll width current turn.sends
  match turn.event with
  | .sendMessage request => do
    let (code, state) ← state.sendMessage width request
    return (.sendMessage code, state)
  | .registerPushListener listener => some (.registerPushListener, state.registerPushListener listener)
  | .onPush body => do
    let state ← state.onPush width body inCallback
    return (.onPush, state)
  | .req2Buf taskid outbuffer => do
    let (done, outbuffer) ← state.req2Buf width taskid outbuffer
    return (.req2Buf done outbuffer, state)
  | .buf2Resp taskid inbuffer => do
    let (code, state) ← state.buf2Resp width taskid inbuffer inCallback
    return (.buf2Resp code, state)
  | .onTaskEnd taskid errorType errorCode => do
    let (code, state) ← state.onTaskEnd taskid errorType errorCode inCallback
    return (.onTaskEnd code, state)

def next (width : SizeT) (state : State) (turn : Turn Buffer) : Option State :=
  (state.step width turn).map Prod.snd

def run (width : SizeT) (state : State) (turns : List (Turn Buffer)) : Option State :=
  PartialRun.run (State.next width) state turns

/-- A state is reachable when some run from the initial state ends there. -/
def Reachable (Buffer : Type) [AutoBufferApi Buffer] (width : SizeT) (state : State) : Prop :=
  ∃ turns : List (Turn Buffer), State.initial.run width turns = some state

end State

end MarsWrapper
