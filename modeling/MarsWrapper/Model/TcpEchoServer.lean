import MarsWrapper.Foundation.Block
import MarsWrapper.Foundation.OwnedHeap
import MarsWrapper.Foundation.PartialRun

namespace MarsWrapper

open Foundation

def EPOLLIN : UInt32 := 0x001
def EPOLLOUT : UInt32 := 0x004
def EPOLLERR : UInt32 := 0x008
def EPOLLHUP : UInt32 := 0x010

/-- The counter has no value before the first reception, and the thousand cells of the buffer have old values. -/
structure EchoHandler where
  m_fd : Int
  m_received : Option Int
  m_buffer : List UInt8

/-- A handler is the one of the listening socket or an allocated one. -/
inductive Handler where
  | server (m_fd : Int)
  | echo (address : Nat)
  deriving DecidableEq

/-- This is one reported event with what the system calls of its handler give: the accepted descriptor, the old
memory of a new handler, the received bytes if there is no error, and the result of the send. -/
structure Ready where
  fd : Int
  events : UInt32
  accepted : Int
  memory : List UInt8
  recv : Option (List UInt8)
  send : Int

/-- The interest list belongs to the kernel. The last two fields record what each descriptor received and sent. -/
structure SocketsListener where
  m_socketHandlers : Int → Option Handler
  echoHandlers : Heap EchoHandler
  interest : Int → Option UInt32
  received : Int → List UInt8
  sent : Int → List UInt8

namespace SocketsListener

def MAX_EVENTS : Nat := 5

/-- A descriptor is added to the interest list once, and a second addition fails. -/
def epollCtlAdd (interest : Int → Option UInt32) (fd : Int) (events : UInt32) : Int → Option UInt32 :=
  match interest fd with
  | none => Function.update interest fd (some events)
  | some _ => interest

/-- The mask of a descriptor can be modified when the descriptor is on the interest list. -/
def epollCtlMod (interest : Int → Option UInt32) (fd : Int) (events : UInt32) : Int → Option UInt32 :=
  match interest fd with
  | none => interest
  | some _ => Function.update interest fd (some events)

def addSocketHandler (listener : SocketsListener) (fd : Int) (events : UInt32) (handler : Handler) :
    SocketsListener :=
  { listener with
    m_socketHandlers := Function.update listener.m_socketHandlers fd (some handler)
    interest := epollCtlAdd listener.interest fd events }

/-- The removal erases the handler from the map and nothing else. -/
def removeSocket (listener : SocketsListener) (fd : Int) : SocketsListener :=
  {listener with m_socketHandlers := Function.update listener.m_socketHandlers fd none}

def updateSocket (listener : SocketsListener) (fd : Int) (events : UInt32) : SocketsListener :=
  {listener with interest := epollCtlMod listener.interest fd events}

/-- The members of a live handler are overwritten. -/
def assign (listener : SocketsListener) (address : Nat) (handler : EchoHandler) : Option SocketsListener := do
  let echoHandlers ← listener.echoHandlers.write address handler
  return {listener with echoHandlers := echoHandlers}

end SocketsListener

/-- The constructor and `main` register the listening socket. -/
def SocketsListener.initial (fd : Int) : SocketsListener :=
  SocketsListener.addSocketHandler
    { m_socketHandlers := fun _ => none
      echoHandlers := Heap.empty
      interest := fun _ => none
      received := fun _ => []
      sent := fun _ => [] } fd EPOLLIN (.server fd)

/-- The listening socket accepts one client and gives it a new handler. -/
def ServerHandler.handle (listener : SocketsListener) (e : Ready) : SocketsListener :=
  let client := e.accepted
  if client < 0 then listener
  else
    let handler := listener.echoHandlers.next
    let listener :=
      {listener with echoHandlers := listener.echoHandlers.alloc ⟨client, none, e.memory⟩}
    listener.addSocketHandler client EPOLLIN (.echo handler)

namespace EchoHandler

/-- The output branch sends the bytes of the counter, and clears the counter whatever was sent. -/
def output (listener : SocketsListener) (this : Nat) (e : Ready) : Option SocketsListener := do
  let handler ← listener.echoHandlers.read this
  let fd := handler.m_fd
  let m_received ← handler.m_received
  let listener ←
    if 0 < m_received then do
      let bytes ← Block.load handler.m_buffer 0 m_received.toNat
      some
        { listener with
          sent := Function.update listener.sent fd (listener.sent fd ++ bytes.take e.send.toNat) }
    else some listener
  let listener ← listener.assign this {handler with m_received := some 0}
  return listener.updateSocket fd EPOLLIN

/-- The input branch terminates the received bytes with a zero, and removes the socket when there are none. -/
def input (listener : SocketsListener) (this : Nat) (e : Ready) : Option SocketsListener := do
  let handler ← listener.echoHandlers.read this
  let fd := handler.m_fd
  match e.recv with
  | none => do
    let listener ← listener.assign this {handler with m_received := some (-1)}
    return listener.removeSocket fd
  | some bytes => do
    let m_received := bytes.length
    let m_buffer ← Block.store handler.m_buffer 0 bytes
    if 0 < m_received then do
      let m_buffer ← Block.store m_buffer m_received [0]
      let listener ← listener.assign this {handler with m_received := some m_received, m_buffer := m_buffer}
      return SocketsListener.updateSocket
        {listener with received := Function.update listener.received fd (listener.received fd ++ bytes)} fd EPOLLOUT
    else do
      let listener ← listener.assign this {handler with m_received := some 0, m_buffer := m_buffer}
      return listener.removeSocket fd

/-- A hang-up comes first, an error does nothing, and the output comes before the input. -/
def handle (listener : SocketsListener) (this : Nat) (e : Ready) : Option SocketsListener := do
  let handler ← listener.echoHandlers.read this
  if e.events &&& EPOLLHUP ≠ 0 then return listener.removeSocket handler.m_fd
  else if e.events &&& EPOLLERR ≠ 0 then return listener
  else do
    let listener ← if e.events &&& EPOLLOUT ≠ 0 then output listener this e else some listener
    if e.events &&& EPOLLIN ≠ 0 then input listener this e else some listener

end EchoHandler

namespace SocketsListener

/-- An event without a handler is ignored. -/
def dispatch (listener : SocketsListener) (e : Ready) : Option SocketsListener :=
  match listener.m_socketHandlers e.fd with
  | none => some listener
  | some (.server _) => some (ServerHandler.handle listener e)
  | some (.echo address) => EchoHandler.handle listener address e

/-- One turn of the loop handles the events of one wait in their order. -/
def turn (listener : SocketsListener) (events : List Ready) : Option SocketsListener :=
  PartialRun.run dispatch listener events

def run (listener : SocketsListener) (turns : List (List Ready)) : Option SocketsListener :=
  PartialRun.run turn listener turns

/-- The kernel reports a descriptor of the interest list, with input or output only where it was asked for. It accepts
no open descriptor, and it receives at most as many bytes as the buffer has. -/
structure Reported (listener : SocketsListener) (e : Ready) : Prop where
  registered : ∃ mask, listener.interest e.fd = some mask ∧
    ∀ flag ∈ [EPOLLIN, EPOLLOUT], e.events &&& flag ≠ 0 → mask &&& flag ≠ 0
  accepted : ∀ own, listener.m_socketHandlers e.fd = some (.server own) → 0 ≤ e.accepted →
    listener.interest e.accepted = none
  memory : e.memory.length = 1000
  recv : ∀ bytes, e.recv = some bytes → bytes.length ≤ 1000

/-- One wait reports at most five events, and no descriptor twice. -/
structure Waited (listener : SocketsListener) (events : List Ready) : Prop where
  few : events.length ≤ MAX_EVENTS
  distinct : (events.map Ready.fd).Nodup
  reported : ∀ e ∈ events, listener.Reported e

end SocketsListener

end MarsWrapper
