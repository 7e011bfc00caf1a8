import MarsWrapper.Foundation.Components
import MarsWrapper.Foundation.GuardedRun
import MarsWrapper.Model.TcpEchoServer

namespace MarsWrapper.Echo

open Foundation

/-- A connection waits for input, or it has bytes to give back, or it is removed for good. -/
inductive Phase where
  | reading
  | writing (pending : List UInt8)
  | removed
  deriving DecidableEq

/-- A connection knows what it received and what it sent. -/
structure Connection where
  phase : Phase
  received : List UInt8
  sent : List UInt8
  deriving DecidableEq

namespace Connection

def opened : Connection := ⟨.reading, [], []⟩

/-- These bytes were received and not yet given back. -/
def pending (connection : Connection) : List UInt8 :=
  match connection.phase with
  | .writing pending => pending
  | .reading | .removed => []

/-- A received block is kept when it leaves room for a terminating zero, and an empty one removes the connection. -/
def receive (connection : Connection) (recv : Option (List UInt8)) : Option Connection :=
  match recv with
  | none => some {connection with phase := .removed}
  | some bytes =>
    if bytes = [] then some {connection with phase := .removed}
    else if bytes.length < 1000 then
      some {connection with phase := .writing bytes, received := connection.received ++ bytes}
    else none

/-- A send gives back some of the pending bytes and forgets the others. -/
def giveBack (connection : Connection) (pending : List UInt8) (send : Int) : Connection :=
  {connection with phase := .reading, sent := connection.sent ++ pending.take send.toNat}

/-- A connection that has bytes to give back receives none, and a removed connection does nothing. -/
def handle (connection : Connection) (e : Ready) : Option Connection :=
  match connection.phase with
  | .removed => some connection
  | .reading =>
    if e.events &&& EPOLLHUP ≠ 0 then some {connection with phase := .removed}
    else if e.events &&& EPOLLERR ≠ 0 then some connection
    else if e.events &&& EPOLLIN ≠ 0 then connection.receive e.recv
    else some connection
  | .writing pending =>
    if e.events &&& EPOLLHUP ≠ 0 then some {connection with phase := .removed}
    else if e.events &&& EPOLLERR ≠ 0 then some connection
    else if e.events &&& EPOLLOUT ≠ 0 then some (connection.giveBack pending e.send)
    else some connection

/-- A handled event has one of these effects. -/
inductive Effect (connection : Connection) (e : Ready) : Connection → Prop where
  | stay : Effect connection e connection
  | remove (live : connection.phase ≠ .removed) : Effect connection e {connection with phase := .removed}
  | receive {bytes : List UInt8} (reading : connection.phase = .reading) (received : e.recv = some bytes)
      (some_ : bytes ≠ []) (room : bytes.length < 1000) :
      Effect connection e {connection with phase := .writing bytes, received := connection.received ++ bytes}
  | giveBack {pending : List UInt8} (writing : connection.phase = .writing pending) :
      Effect connection e (connection.giveBack pending e.send)

/-- The connection takes a full block, and its terminating zero has no room. -/
structure Overruns (connection : Connection) (e : Ready) : Prop where
  reading : connection.phase = .reading
  up : e.events &&& EPOLLHUP = 0
  sane : e.events &&& EPOLLERR = 0
  readable : e.events &&& EPOLLIN ≠ 0
  full : ∃ bytes, e.recv = some bytes ∧ 1000 ≤ bytes.length

variable {connection next : Connection} {e : Ready}

theorem effect_of_handle (handled : connection.handle e = some next) : Effect connection e next := by
  rw [handle] at handled
  cases phase : connection.phase with
  | removed =>
      simp only [phase] at handled
      obtain rfl := Option.some.inj handled
      exact .stay
  | reading =>
      have live : connection.phase ≠ .removed := by rw [phase]; nofun
      simp only [phase] at handled
      split at handled
      · obtain rfl := Option.some.inj handled
        exact .remove live
      · split at handled
        · obtain rfl := Option.some.inj handled
          exact .stay
        · split at handled
          · unfold Connection.receive at handled
            split at handled
            · obtain rfl := Option.some.inj handled
              exact .remove live
            · next bytes received =>
              split at handled
              · obtain rfl := Option.some.inj handled
                exact .remove live
              · next some_ =>
                split at handled
                · next room =>
                  obtain rfl := Option.some.inj handled
                  exact .receive phase received some_ room
                · cases handled
          · obtain rfl := Option.some.inj handled
            exact .stay
  | writing pending =>
      simp only [phase] at handled
      split at handled
      · obtain rfl := Option.some.inj handled
        exact .remove (by rw [phase]; nofun)
      · split at handled
        · obtain rfl := Option.some.inj handled
          exact .stay
        · split at handled
          · obtain rfl := Option.some.inj handled
            exact .giveBack phase
          · obtain rfl := Option.some.inj handled
            exact .stay

/-- An event has no result exactly when it overruns the buffer. -/
theorem handle_eq_none_iff : connection.handle e = none ↔ connection.Overruns e := by
  constructor
  · intro failed
    rw [handle] at failed
    split at failed
    · cases failed
    · next reading =>
      split at failed
      · cases failed
      · next up =>
        split at failed
        · cases failed
        · next sane =>
          split at failed
          · next readable =>
            unfold Connection.receive at failed
            split at failed
            · cases failed
            · next bytes received =>
              split at failed
              · cases failed
              · split at failed
                · cases failed
                · next full =>
                  exact ⟨reading, not_not.mp up, not_not.mp sane, readable, bytes, received, Nat.not_lt.mp full⟩
          · cases failed
    · split at failed
      · cases failed
      · split at failed
        · cases failed
        · split at failed
          · cases failed
          · cases failed
  · intro overruns
    obtain ⟨reading, up, sane, readable, bytes, received, full⟩ := overruns
    rw [handle, reading]
    simp only
    have some_ : bytes ≠ [] := by
      rintro rfl
      exact absurd full (by decide)
    rw [if_neg (not_not.mpr up), if_neg (not_not.mpr sane), if_pos readable, received]
    unfold Connection.receive
    simp only
    rw [if_neg some_, if_neg (Nat.not_lt.mpr full)]

/-- What was sent and what is pending are a part of what was received, in its order. -/
def Faithful (connection : Connection) : Prop := (connection.sent ++ connection.pending).Sublist connection.received

/-- Nothing is lost before the removal, and only the end can be lost with it. -/
structure Exact (connection : Connection) : Prop where
  starts : connection.sent ++ connection.pending <+: connection.received
  whole : connection.phase ≠ .removed → connection.sent ++ connection.pending = connection.received

/-- A send is complete when it takes all pending bytes. -/
def Completes (connection : Connection) (e : Ready) : Prop := (connection.pending.length : Int) ≤ e.send

theorem pending_of_writing {pending : List UInt8} (writing : connection.phase = .writing pending) :
    connection.pending = pending := by
  rw [Connection.pending, writing]

theorem pending_of_reading (reading : connection.phase = .reading) : connection.pending = [] := by
  rw [Connection.pending, reading]

theorem Faithful.opened : opened.Faithful := List.Sublist.refl _

theorem Exact.opened : opened.Exact := ⟨List.prefix_rfl, fun _ => rfl⟩

/-- Every event keeps the order of the bytes. -/
theorem Faithful.handle (faithful : connection.Faithful) (handled : connection.handle e = some next) :
    next.Faithful := by
  rw [Faithful] at faithful ⊢
  cases effect_of_handle handled with
  | stay => exact faithful
  | remove live =>
      change (connection.sent ++ []).Sublist connection.received
      rw [List.append_nil]
      exact (List.sublist_append_left _ _).trans faithful
  | @receive bytes reading received some_ room =>
      change (connection.sent ++ bytes).Sublist (connection.received ++ bytes)
      rw [pending_of_reading reading, List.append_nil] at faithful
      exact faithful.append (List.Sublist.refl bytes)
  | @giveBack pending writing =>
      change (connection.sent ++ pending.take e.send.toNat ++ []).Sublist connection.received
      rw [pending_of_writing writing] at faithful
      rw [List.append_nil]
      exact ((List.Sublist.refl _).append (List.take_sublist _ _)).trans faithful

/-- With complete sends every event keeps all bytes of a live connection. -/
theorem Exact.handle (exact_ : connection.Exact) (completes : connection.Completes e)
    (handled : connection.handle e = some next) : next.Exact := by
  obtain ⟨starts, whole⟩ := exact_
  cases effect_of_handle handled with
  | stay => exact ⟨starts, whole⟩
  | remove live =>
      refine ⟨?_, fun gone => absurd rfl gone⟩
      change connection.sent ++ [] <+: connection.received
      rw [List.append_nil]
      exact (List.prefix_append _ _).trans starts
  | @receive bytes reading received some_ room =>
      have before := whole (by rw [reading]; nofun)
      rw [pending_of_reading reading, List.append_nil] at before
      have after : connection.sent ++ bytes = connection.received ++ bytes := by rw [before]
      exact ⟨after ▸ List.prefix_rfl, fun _ => after⟩
  | @giveBack pending writing =>
      have before := whole (by rw [writing]; nofun)
      rw [Completes, pending_of_writing writing] at completes
      rw [pending_of_writing writing] at before
      have after : connection.sent ++ pending.take e.send.toNat ++ [] = connection.received := by
        rw [List.take_of_length_le (by omega), List.append_nil, before]
      exact ⟨after ▸ List.prefix_rfl, fun _ => after⟩

/-- A removed connection stays as it is. -/
theorem handle_of_removed (removed : connection.phase = .removed) : connection.handle e = some connection := by
  rw [handle, removed]

end Connection

/-- Each descriptor has at most one connection during the life of the server. -/
abbrev Connections : Type := Int → Option Connection

/-- An accepted client opens its connection, and every other event concerns the connection of its descriptor. -/
def handle (listening : Int) (connection : Option Connection) (e : Ready) : Option (Option Connection) :=
  if e.fd = listening then some (if e.accepted < 0 then connection else some .opened)
  else
    match connection with
    | none => some none
    | some connection => (connection.handle e).map some

theorem handle_listening {listening : Int} {e : Ready} (listens : e.fd = listening) (connection : Option Connection) :
    handle listening connection e = some (if e.accepted < 0 then connection else some .opened) := by
  unfold handle
  rw [if_pos listens]

theorem handle_some {listening : Int} {e : Ready} (different : e.fd ≠ listening) (connection : Connection) :
    handle listening (some connection) e = (connection.handle e).map some := by
  rw [handle, if_neg different]

/-- A handled event opens a connection, leaves it alone, or is an event of its own. -/
theorem handle_cases {listening : Int} {e : Ready} {connection next : Option Connection}
    (handled : handle listening connection e = some next) :
    next = connection ∨ e.fd = listening ∧ 0 ≤ e.accepted ∧ next = some .opened ∨
      ∃ live live', e.fd ≠ listening ∧ connection = some live ∧ live.handle e = some live' ∧ next = some live' := by
  by_cases listens : e.fd = listening
  · rw [handle_listening listens] at handled
    obtain rfl := Option.some.inj handled
    by_cases refused : e.accepted < 0
    · exact Or.inl (if_pos refused)
    · exact Or.inr (Or.inl ⟨listens, Int.not_lt.mp refused, if_neg refused⟩)
  · cases connection with
    | none =>
        rw [handle, if_neg listens] at handled
        exact Or.inl (Option.some.inj handled).symm
    | some live =>
        rw [handle_some listens] at handled
        obtain ⟨live', reached, rfl⟩ := Option.map_eq_some_iff.mp handled
        exact Or.inr (Or.inr ⟨live, live', listens, rfl, reached, rfl⟩)

/-- A send on the connection itself takes all its pending bytes. -/
def Completes (listening : Int) (connection : Option Connection) (e : Ready) : Prop :=
  e.fd ≠ listening → ∀ live, connection = some live → live.Completes e

/-- Through every run a connection keeps the order of its bytes. -/
theorem faithful_of_run {listening : Int} {events : List Ready} {connection : Connection}
    (ran : PartialRun.run (handle listening) none events = some (some connection)) : connection.Faithful := by
  have keeps (current : Option Connection) (e : Ready) (next : Option Connection)
      (faithful : ∀ live, current = some live → live.Faithful) (handled : handle listening current e = some next) :
      ∀ live, next = some live → live.Faithful := by
    intro live same
    obtain rfl | ⟨_, _, rfl⟩ | ⟨before, after, _, rfl, reached, rfl⟩ := handle_cases handled
    · exact faithful live same
    · obtain rfl := Option.some.inj same
      exact Connection.Faithful.opened
    · obtain rfl := Option.some.inj same
      exact (faithful before rfl).handle reached
  exact PartialRun.run_invariant keeps (fun _ unopened => by cases unopened) ran connection rfl

/-- Through every run of complete sends a connection keeps all its bytes. -/
theorem exact_of_run {listening : Int} {events : List Ready} {connection : Connection}
    (guarded : PartialRun.Guarded (Completes listening) (handle listening) none events)
    (ran : PartialRun.run (handle listening) none events = some (some connection)) : connection.Exact := by
  have keeps (current : Option Connection) (e : Ready) (next : Option Connection)
      (exact_ : ∀ live, current = some live → live.Exact) (completes : Completes listening current e)
      (handled : handle listening current e = some next) : ∀ live, next = some live → live.Exact := by
    intro live same
    obtain rfl | ⟨_, _, rfl⟩ | ⟨before, after, different, rfl, reached, rfl⟩ := handle_cases handled
    · exact exact_ live same
    · obtain rfl := Option.some.inj same
      exact Connection.Exact.opened
    · obtain rfl := Option.some.inj same
      exact (exact_ before rfl).handle (completes different before rfl) reached
  exact guarded.run_invariant keeps (fun _ unopened => by cases unopened) ran connection rfl

/-- An event of the listening socket concerns the accepted descriptor. -/
def concerned (listening : Int) (e : Ready) : Int := if e.fd = listening then e.accepted else e.fd

/-- The connections are independent components. -/
def dispatch (listening : Int) (connections : Connections) (e : Ready) : Option Connections :=
  Components.step (concerned listening) (handle listening) connections e

end MarsWrapper.Echo
