import MarsWrapper.Echo.Connection

namespace MarsWrapper

open Foundation Echo

/-- A handler waits for input, or for the output of the bytes at the start of its buffer. -/
inductive EchoHandler.Armed (handler : EchoHandler) : UInt32 → Phase → Prop where
  | input : Armed handler EPOLLIN .reading
  | output {pending : List UInt8} (counted : handler.m_received = some (pending.length : Int)) (some_ : pending ≠ [])
      (kept : handler.m_buffer.take pending.length = pending) : Armed handler EPOLLOUT (.writing pending)

namespace SocketsListener

/-- The handler of a descriptor and its mask say what the connection does next. -/
def phase (listener : SocketsListener) (fd : Int) (mask : UInt32) : Phase :=
  match listener.m_socketHandlers fd with
  | some (.echo address) =>
    match listener.echoHandlers.read address with
    | some handler =>
      if mask = EPOLLOUT then .writing (handler.m_buffer.take (handler.m_received.getD 0).toNat) else .reading
    | none => .removed
  | some (.server _) | none => .removed

/-- Every descriptor on the interest list but the listening one is a connection. -/
def connections (listening : Int) (listener : SocketsListener) : Connections := fun fd =>
  if fd = listening then none
  else (listener.interest fd).map fun mask => ⟨listener.phase fd mask, listener.received fd, listener.sent fd⟩

/-- The descriptor leads to a live handler of its own that is armed. -/
structure Plugged (listener : SocketsListener) (fd : Int) (address : Nat) (handler : EchoHandler) (mask : UInt32)
    (phase : Phase) : Prop where
  handled : listener.m_socketHandlers fd = some (.echo address)
  live : listener.echoHandlers.read address = some handler
  own : handler.m_fd = fd
  size : handler.m_buffer.length = 1000
  watched : listener.interest fd = some mask
  armed : handler.Armed mask phase

/-- Only the listening socket has the server handler, every other handler is plugged into one descriptor, and a
descriptor that is not on the interest list was never used. -/
structure Sound (listening : Int) (listener : SocketsListener) : Prop where
  server : listener.m_socketHandlers listening = some (.server listening)
  listens : listener.interest listening = some EPOLLIN
  only : ∀ fd own, listener.m_socketHandlers fd = some (.server own) → fd = listening
  plugged : ∀ fd address, listener.m_socketHandlers fd = some (.echo address) →
    ∃ handler mask phase, listener.Plugged fd address handler mask phase
  apart : ∀ fd fd' address, listener.m_socketHandlers fd = some (.echo address) →
    listener.m_socketHandlers fd' = some (.echo address) → fd = fd'
  unknown : ∀ fd, listener.interest fd = none →
    listener.m_socketHandlers fd = none ∧ listener.received fd = [] ∧ listener.sent fd = []

/-- The two listeners agree about every other descriptor and every other handler. -/
structure Elsewhere (fd : Int) (address : Nat) (listener next : SocketsListener) : Prop where
  handlers : ∀ other, other ≠ fd → next.m_socketHandlers other = listener.m_socketHandlers other
  cells : ∀ other, other ≠ address → next.echoHandlers.read other = listener.echoHandlers.read other
  interest : ∀ other, other ≠ fd → next.interest other = listener.interest other
  received : ∀ other, other ≠ fd → next.received other = listener.received other
  sent : ∀ other, other ≠ fd → next.sent other = listener.sent other

variable {listening fd : Int} {listener next : SocketsListener} {address : Nat} {handler : EchoHandler}
  {mask : UInt32} {phase : Phase} {e : Ready}

theorem Elsewhere.refl : Elsewhere fd address listener listener :=
  ⟨fun _ _ => rfl, fun _ _ => rfl, fun _ _ => rfl, fun _ _ => rfl, fun _ _ => rfl⟩

/-- A plugged descriptor shows its phase and its history. -/
theorem Plugged.connection (plugged : listener.Plugged fd address handler mask phase) (different : fd ≠ listening) :
    listener.connections listening fd = some ⟨phase, listener.received fd, listener.sent fd⟩ := by
  have shows : listener.phase fd mask = phase := by
    rw [SocketsListener.phase, plugged.handled]
    simp only [plugged.live]
    cases plugged.armed with
    | input => exact if_neg (by decide)
    | @output pending counted some_ kept =>
        rw [if_pos rfl, counted, Option.getD_some, Int.toNat_natCast, kept]
  rw [connections, if_neg different, plugged.watched, Option.map_some, shows]

/-- A descriptor without a handler is a removed connection. -/
theorem connection_of_none (different : fd ≠ listening) (watched : listener.interest fd = some mask)
    (unhandled : listener.m_socketHandlers fd = none) :
    listener.connections listening fd = some ⟨.removed, listener.received fd, listener.sent fd⟩ := by
  rw [connections, if_neg different, watched, Option.map_some, SocketsListener.phase, unhandled]

theorem Plugged.elsewhere (plugged : listener.Plugged fd address handler mask phase) {other : Int} {address' : Nat}
    (elsewhere : Elsewhere other address' listener next) (different : fd ≠ other) (apart : address ≠ address') :
    next.Plugged fd address handler mask phase where
  handled := (elsewhere.handlers fd different).trans plugged.handled
  live := (elsewhere.cells address apart).trans plugged.live
  own := plugged.own
  size := plugged.size
  watched := (elsewhere.interest fd different).trans plugged.watched
  armed := plugged.armed

namespace Sound

variable (sound : Sound listening listener)
include sound

theorem ne_listening (handled : listener.m_socketHandlers fd = some (.echo address)) : fd ≠ listening := by
  rintro rfl
  cases sound.server.symm.trans handled

/-- A change of one descriptor and one handler keeps the invariant and all other connections. -/
theorem changed (different : fd ≠ listening)
    (unused : ∀ other, other ≠ fd → listener.m_socketHandlers other ≠ some (.echo address))
    (elsewhere : Elsewhere fd address listener next) (watched : next.interest fd ≠ none)
    (after : next.m_socketHandlers fd = none ∨ ∃ handler mask phase, next.Plugged fd address handler mask phase) :
    Sound listening next ∧
      next.connections listening =
        Function.update (listener.connections listening) fd (next.connections listening fd) := by
  have still (other : Int) (address' : Nat) (away : other ≠ fd)
      (handled : next.m_socketHandlers other = some (.echo address')) :
      listener.m_socketHandlers other = some (.echo address') ∧ address' ≠ address := by
    rw [elsewhere.handlers other away] at handled
    refine ⟨handled, ?_⟩
    rintro rfl
    exact unused other away handled
  have here (address' : Nat) (handled : next.m_socketHandlers fd = some (.echo address')) : address' = address := by
    obtain gone | ⟨_, _, _, plugged⟩ := after
    · cases gone.symm.trans handled
    · exact Handler.echo.inj (Option.some.inj (handled.symm.trans plugged.handled))
  have kept : Sound listening next := by
    refine ⟨?_, ?_, ?_, ?_, ?_, ?_⟩
    · rw [elsewhere.handlers listening different.symm]
      exact sound.server
    · rw [elsewhere.interest listening different.symm]
      exact sound.listens
    · intro other own handled
      by_cases same : other = fd
      · subst same
        obtain gone | ⟨_, _, _, plugged⟩ := after
        · cases gone.symm.trans handled
        · cases plugged.handled.symm.trans handled
      · rw [elsewhere.handlers other same] at handled
        exact sound.only other own handled
    · intro other address' handled
      by_cases same : other = fd
      · subst same
        obtain rfl := here address' handled
        obtain gone | plugged := after
        · cases gone.symm.trans handled
        · exact plugged
      · obtain ⟨before, apart⟩ := still other address' same handled
        obtain ⟨handler, mask, phase, plugged⟩ := sound.plugged other address' before
        exact ⟨handler, mask, phase, plugged.elsewhere elsewhere same apart⟩
    · intro other other' address' handled handled'
      by_cases same : other = fd
      · by_cases same' : other' = fd
        · rw [same, same']
        · exact absurd (here address' (same ▸ handled)) (still other' address' same' handled').2
      · by_cases same' : other' = fd
        · exact absurd (here address' (same' ▸ handled')) (still other address' same handled).2
        · exact sound.apart other other' address' (still other address' same handled).1
            (still other' address' same' handled').1
    · intro other unwatched
      by_cases same : other = fd
      · exact absurd (same ▸ unwatched) watched
      · rw [elsewhere.interest other same] at unwatched
        rw [elsewhere.handlers other same, elsewhere.received other same, elsewhere.sent other same]
        exact sound.unknown other unwatched
  refine ⟨kept, ?_⟩
  funext other
  by_cases same : other = fd
  · rw [same, Function.update_self]
  · rw [Function.update_of_ne same, connections, connections, elsewhere.interest other same,
      elsewhere.received other same, elsewhere.sent other same]
    have shown : next.phase other = listener.phase other := by
      funext mask
      rw [SocketsListener.phase, SocketsListener.phase, elsewhere.handlers other same]
      cases handled : listener.m_socketHandlers other with
      | none => rfl
      | some found =>
          cases found with
          | server own => rfl
          | echo address' =>
              have apart : address' ≠ address := by
                rintro rfl
                exact unused other same handled
              simp only [elsewhere.cells address' apart]
    rw [shown]

end Sound

/-- The handler changed its own descriptor and itself, and it gave up neither of them. -/
structure Moves (fd : Int) (address : Nat) (listener next : SocketsListener) : Prop
    extends Elsewhere fd address listener next where
  watched : next.interest fd ≠ none
  allocated : next.echoHandlers.read address ≠ none
  after : next.m_socketHandlers fd = none ∨ ∃ handler mask phase, next.Plugged fd address handler mask phase

/-- The handler does to its descriptor what the connection does. -/
abbrev Follows (listening fd : Int) (address : Nat) (listener : SocketsListener) :
    Option SocketsListener → Option Connection → Prop := fun result connection =>
  Simulates (fun next => next.connections listening fd) (Moves fd address listener) result (connection.map some)

namespace Plugged

variable (plugged : listener.Plugged fd address handler mask phase) (different : fd ≠ listening)
include plugged

/-- The members of a plugged handler can be assigned, also when the histories have changed. -/
theorem assign (changed : EchoHandler) :
    ∃ cells, cells.read address = some changed ∧
      (∀ other, other ≠ address → cells.read other = listener.echoHandlers.read other) ∧
      ∀ current : SocketsListener, current.echoHandlers = listener.echoHandlers →
        current.assign address changed = some {current with echoHandlers := cells} := by
  obtain ⟨cells, written, _, read, others⟩ := Heap.write_of_read plugged.live
  refine ⟨cells, read, others, ?_⟩
  intro current same
  rw [SocketsListener.assign, same, written]
  rfl

theorem epollCtlMod (events : UInt32) :
    SocketsListener.epollCtlMod listener.interest fd events = Function.update listener.interest fd (some events) := by
  simp only [SocketsListener.epollCtlMod, plugged.watched]

include different

theorem stay : Follows listening fd address listener (some listener) (some ⟨phase, listener.received fd, listener.sent fd⟩) :=
  Simulates.result
    { toElsewhere := Elsewhere.refl
      watched := by rw [plugged.watched]; nofun
      allocated := by rw [plugged.live]; nofun
      after := Or.inr ⟨handler, mask, phase, plugged⟩ } (plugged.connection different)

/-- A removal takes the handler out of the map, whatever its members became. -/
theorem remove (cells : Heap EchoHandler) (allocated : cells.read address ≠ none)
    (others : ∀ other, other ≠ address → cells.read other = listener.echoHandlers.read other) :
    Follows listening fd address listener (some (removeSocket {listener with echoHandlers := cells} fd))
      (some ⟨.removed, listener.received fd, listener.sent fd⟩) := by
  let next : SocketsListener := removeSocket {listener with echoHandlers := cells} fd
  have gone : next.m_socketHandlers fd = none := Function.update_self ..
  have watched : next.interest fd = some mask := plugged.watched
  have moves : Moves fd address listener next :=
    { handlers := fun other away => Function.update_of_ne away ..
      cells := others
      interest := fun _ _ => rfl
      received := fun _ _ => rfl
      sent := fun _ _ => rfl
      watched := by rw [watched]; nofun
      allocated := allocated
      after := Or.inl gone }
  exact Simulates.result moves (connection_of_none different watched gone)

end Plugged

/-- The output branch gives the pending bytes back and waits for input again. -/
theorem Plugged.output {pending : List UInt8} (plugged : listener.Plugged fd address handler EPOLLOUT (.writing pending))
    (different : fd ≠ listening) :
    Follows listening fd address listener (EchoHandler.output listener address e)
      (some (Connection.giveBack ⟨.writing pending, listener.received fd, listener.sent fd⟩ pending e.send)) := by
  obtain rfl := plugged.own
  cases plugged.armed with
  | output counted some_ kept =>
      obtain ⟨cells, live, others, assigned⟩ := plugged.assign {handler with m_received := some 0}
      have positive : (0 : Int) < pending.length := by
        have length := List.length_pos_iff.mpr some_
        omega
      have inside : 0 + pending.length ≤ handler.m_buffer.length := by
        have length := congrArg List.length kept
        rw [List.length_take] at length
        omega
      let history := Function.update listener.sent handler.m_fd
        (listener.sent handler.m_fd ++ pending.take e.send.toNat)
      let next : SocketsListener :=
        { listener with
          echoHandlers := cells
          interest := Function.update listener.interest handler.m_fd (some EPOLLIN)
          sent := history }
      have reached : EchoHandler.output listener address e = some next := by
        rw [EchoHandler.output, plugged.live]
        simp only [Option.bind_eq_bind, Option.bind_some, counted, if_pos positive, Int.toNat_natCast,
          Block.load_eq_some inside, List.drop_zero, kept]
        rw [assigned {listener with sent := history} rfl, Option.bind_some, updateSocket]
        simp only [plugged.epollCtlMod]
        rfl
      have replugged : next.Plugged handler.m_fd address {handler with m_received := some 0} EPOLLIN .reading :=
        ⟨plugged.handled, live, rfl, plugged.size, Function.update_self .., .input⟩
      have moves : Moves handler.m_fd address listener next :=
        { handlers := fun _ _ => rfl
          cells := others
          interest := fun other away => Function.update_of_ne away ..
          received := fun _ _ => rfl
          sent := fun other away => Function.update_of_ne away ..
          watched := by rw [replugged.watched]; nofun
          allocated := by rw [replugged.live]; nofun
          after := Or.inr ⟨_, _, _, replugged⟩ }
      have shown := replugged.connection different
      have sent : next.sent handler.m_fd = listener.sent handler.m_fd ++ pending.take e.send.toNat :=
        Function.update_self ..
      rw [sent] at shown
      rw [reached]
      exact Simulates.result moves shown

/-- The input branch keeps a short block, removes the socket of an empty one, and cannot terminate a full one. -/
theorem Plugged.input (plugged : listener.Plugged fd address handler EPOLLIN .reading) (different : fd ≠ listening)
    (fits : ∀ bytes, e.recv = some bytes → bytes.length ≤ 1000) :
    Follows listening fd address listener (EchoHandler.input listener address e)
      (Connection.receive ⟨.reading, listener.received fd, listener.sent fd⟩ e.recv) := by
  obtain rfl := plugged.own
  rw [EchoHandler.input, plugged.live]
  simp only [Option.bind_eq_bind, Option.bind_some]
  unfold Connection.receive
  cases received : e.recv with
  | none =>
      obtain ⟨cells, live, others, assigned⟩ := plugged.assign {handler with m_received := some (-1)}
      simp only [assigned listener rfl, Option.bind_some]
      exact plugged.remove different cells (by rw [live]; nofun) others
  | some bytes =>
      have short := fits bytes received
      have stored := Block.store_start (show bytes.length ≤ handler.m_buffer.length by rw [plugged.size]; exact short)
      simp only [stored, Option.bind_some]
      by_cases empty : bytes = []
      · obtain rfl := empty
        obtain ⟨cells, live, others, assigned⟩ := plugged.assign
          {handler with m_received := some 0, m_buffer := [] ++ handler.m_buffer.drop ([] : List UInt8).length}
        simp only [List.length_nil, Nat.lt_irrefl, if_true, if_false] at assigned ⊢
        rw [assigned listener rfl]
        exact plugged.remove different cells (by rw [live]; nofun) others
      · rw [if_neg empty, if_pos (List.length_pos_iff.mpr empty)]
        by_cases room : bytes.length < 1000
        · rw [if_pos room]
          have size : (bytes ++ handler.m_buffer.drop bytes.length).length = 1000 := by
            rw [List.length_append, List.length_drop, plugged.size]
            omega
          obtain ⟨m_buffer, terminated⟩ := @Block.exists_store _ (bytes ++ handler.m_buffer.drop bytes.length) [0]
            bytes.length (by rw [size, List.length_singleton]; omega)
          have kept : m_buffer.take bytes.length = bytes := by
            rw [Block.take_of_store terminated, List.take_left]
          have size' : m_buffer.length = 1000 := (Block.length_of_store terminated).trans size
          obtain ⟨cells, live, others, assigned⟩ := plugged.assign
            {handler with m_received := some bytes.length, m_buffer := m_buffer}
          let next : SocketsListener :=
            { listener with
              echoHandlers := cells
              interest := Function.update listener.interest handler.m_fd (some EPOLLOUT)
              received :=
                Function.update listener.received handler.m_fd (listener.received handler.m_fd ++ bytes) }
          have replugged : next.Plugged handler.m_fd address
              {handler with m_received := some bytes.length, m_buffer := m_buffer} EPOLLOUT (.writing bytes) :=
            ⟨plugged.handled, live, rfl, size', Function.update_self .., .output rfl empty kept⟩
          have moves : Moves handler.m_fd address listener next :=
            { handlers := fun _ _ => rfl
              cells := others
              interest := fun other away => Function.update_of_ne away ..
              received := fun other away => Function.update_of_ne away ..
              sent := fun _ _ => rfl
              watched := by rw [replugged.watched]; nofun
              allocated := by rw [replugged.live]; nofun
              after := Or.inr ⟨_, _, _, replugged⟩ }
          have shown := replugged.connection different
          have history : next.received handler.m_fd = listener.received handler.m_fd ++ bytes :=
            Function.update_self ..
          rw [history] at shown
          simp only [terminated, Option.bind_some, assigned listener rfl]
          rw [updateSocket]
          simp only [plugged.epollCtlMod]
          exact Simulates.result moves shown
        · rw [if_neg room]
          have full : Block.store (bytes ++ handler.m_buffer.drop bytes.length) bytes.length [0] = none := by
            apply Block.store_eq_none
            rw [List.length_append, List.length_drop, plugged.size, List.length_singleton]
            omega
          rw [full]
          exact Simulates.failure

/-- Input and output are reported only where they were asked for. -/
theorem Reported.silent (reported : listener.Reported e) (watched : listener.interest e.fd = some mask) (flag : UInt32)
    (member : flag ∈ [EPOLLIN, EPOLLOUT]) (unasked : mask &&& flag = 0) : e.events &&& flag = 0 := by
  obtain ⟨mask', watched', asked⟩ := reported.registered
  obtain rfl := Option.some.inj (watched.symm.trans watched')
  by_contra raised
  exact asked flag member raised unasked

/-- The whole handler does what the connection does. -/
theorem Plugged.handle (plugged : listener.Plugged e.fd address handler mask phase) (different : e.fd ≠ listening)
    (reported : listener.Reported e) :
    Follows listening e.fd address listener (EchoHandler.handle listener address e)
      (Connection.handle ⟨phase, listener.received e.fd, listener.sent e.fd⟩ e) := by
  have removed := plugged.remove different listener.echoHandlers (by rw [plugged.live]; nofun) fun _ _ => rfl
  have stays := plugged.stay different
  have own := plugged.own
  rw [EchoHandler.handle, plugged.live]
  simp only [Option.bind_eq_bind, Option.bind_some, own]
  cases plugged.armed with
  | input =>
      have quiet := reported.silent plugged.watched EPOLLOUT (by decide) (by decide)
      rw [Connection.handle]
      simp only [quiet, ne_eq, not_true_eq_false, if_false]
      split
      · exact removed
      · split
        · exact stays
        · split
          · exact plugged.input different reported.recv
          · exact stays
  | @output pending counted some_ kept =>
      have quiet := reported.silent plugged.watched EPOLLIN (by decide) (by decide)
      rw [Connection.handle]
      simp only [quiet, ne_eq, not_true_eq_false, if_false]
      split
      · exact removed
      · split
        · exact stays
        · split
          · rw [Option.bind_fun_some]
            exact plugged.output different
          · exact stays

namespace Sound

variable (sound : Sound listening listener)
include sound

/-- A handler that follows its connection changes the server as its connection changes all connections. -/
theorem follow (plugged : listener.Plugged fd address handler mask phase) {result : Option SocketsListener}
    {connection : Option Connection} (follows : Follows listening fd address listener result connection) :
    Simulates (connections listening) (Sound listening) result
      (connection.map fun next => Function.update (listener.connections listening) fd (some next)) := by
  have different := sound.ne_listening plugged.handled
  have unused (other : Int) (away : other ≠ fd) : listener.m_socketHandlers other ≠ some (.echo address) :=
    fun handled => away (sound.apart other fd address handled plugged.handled)
  have same : (connection.map fun next => Function.update (listener.connections listening) fd (some next)) =
      (connection.map some).map (Function.update (listener.connections listening) fd) := by
    rw [Option.map_map]
    rfl
  obtain ⟨view, moves⟩ := follows
  rw [same, ← view]
  cases result with
  | none => exact Simulates.failure
  | some next =>
      have moved := moves next rfl
      obtain ⟨kept, shown⟩ := sound.changed different unused moved.toElsewhere moved.watched moved.after
      exact Simulates.result kept shown

/-- An accepted client gets a plugged handler of its own. -/
theorem accept (reported : listener.Reported e) (listens : e.fd = listening) (accepted : 0 ≤ e.accepted) :
    Moves e.accepted listener.echoHandlers.next listener (ServerHandler.handle listener e) ∧
      Sound listening (ServerHandler.handle listener e) ∧
      (ServerHandler.handle listener e).connections listening =
        Function.update (listener.connections listening) e.accepted (some .opened) := by
  have unwatched := reported.accepted listening (listens ▸ sound.server) accepted
  obtain ⟨unhandled, received, sent⟩ := sound.unknown e.accepted unwatched
  have different : e.accepted ≠ listening := by
    intro same
    rw [same, sound.listens] at unwatched
    cases unwatched
  have unused (other : Int) (_ : other ≠ e.accepted) :
      listener.m_socketHandlers other ≠ some (.echo listener.echoHandlers.next) := by
    intro handled
    obtain ⟨handler, mask, phase, plugged⟩ := sound.plugged other _ handled
    exact Nat.lt_irrefl _ (Heap.lt_next_of_read plugged.live)
  let next : SocketsListener :=
    { listener with
      m_socketHandlers :=
        Function.update listener.m_socketHandlers e.accepted (some (.echo listener.echoHandlers.next))
      echoHandlers := listener.echoHandlers.alloc ⟨e.accepted, none, e.memory⟩
      interest := Function.update listener.interest e.accepted (some EPOLLIN) }
  have reached : ServerHandler.handle listener e = next := by
    simp only [ServerHandler.handle, if_neg (Int.not_lt.mpr accepted), addSocketHandler, epollCtlAdd, unwatched]
    rfl
  have plugged : next.Plugged e.accepted listener.echoHandlers.next ⟨e.accepted, none, e.memory⟩ EPOLLIN .reading :=
    ⟨Function.update_self .., Heap.read_alloc_self, rfl, reported.memory, Function.update_self .., .input⟩
  have moves : Moves e.accepted listener.echoHandlers.next listener next :=
    { handlers := fun other away => Function.update_of_ne away ..
      cells := fun other away => Heap.read_alloc_of_ne away
      interest := fun other away => Function.update_of_ne away ..
      received := fun _ _ => rfl
      sent := fun _ _ => rfl
      watched := by rw [plugged.watched]; nofun
      allocated := by rw [plugged.live]; nofun
      after := Or.inr ⟨_, _, _, plugged⟩ }
  obtain ⟨kept, shown⟩ := sound.changed different unused moves.toElsewhere moves.watched moves.after
  rw [plugged.connection different, show next.received e.accepted = [] from received,
    show next.sent e.accepted = [] from sent] at shown
  rw [reached]
  exact ⟨moves, kept, shown⟩

/-- One event does to the server what it does to the connections. -/
theorem dispatch_simulates (reported : listener.Reported e) :
    Simulates (connections listening) (Sound listening) (listener.dispatch e)
      (Echo.dispatch listening (listener.connections listening) e) := by
  rw [SocketsListener.dispatch, Echo.dispatch, Components.step, concerned]
  by_cases listens : e.fd = listening
  · rw [if_pos listens, listens, sound.server, handle_listening listens, Option.map_some]
    by_cases refused : e.accepted < 0
    · rw [if_pos refused, Function.update_eq_self]
      have unchanged : ServerHandler.handle listener e = listener := if_pos refused
      simp only [unchanged]
      exact Simulates.result sound rfl
    · rw [if_neg refused]
      obtain ⟨_, kept, shown⟩ := sound.accept reported listens (Int.not_lt.mp refused)
      exact Simulates.result kept shown
  · rw [if_neg listens]
    obtain ⟨mask, watched, _⟩ := reported.registered
    cases handled : listener.m_socketHandlers e.fd with
    | none =>
        have removed := connection_of_none listens watched handled
        rw [removed, handle_some listens, Connection.handle_of_removed rfl, Option.map_some, Option.map_some, ← removed,
          Function.update_eq_self]
        exact Simulates.result sound rfl
    | some found =>
        cases found with
        | server own => exact (listens (sound.only e.fd own handled)).elim
        | echo address =>
            obtain ⟨handler, mask, phase, plugged⟩ := sound.plugged e.fd address handled
            have followed := sound.follow plugged (plugged.handle listens reported)
            rw [plugged.connection listens, handle_some listens, Option.map_map]
            exact followed

end Sound

end SocketsListener

end MarsWrapper
