import MarsWrapper.Echo.Refinement

namespace MarsWrapper.SocketsListener

open Foundation Foundation.PartialRun Echo

variable {listening fd : Int} {listener next final : SocketsListener} {e : Ready} {events : List Ready}
  {turns later : List (List Ready)}

namespace Sound

/-- The server starts with its listening socket and without connections. -/
theorem initial : Sound listening (initial listening) where
  server := Function.update_self ..
  listens := Function.update_self ..
  only := by
    intro fd own handled
    by_contra different
    cases (Function.update_of_ne different ..).symm.trans handled
  plugged := by
    intro fd address handled
    by_cases same : fd = listening
    · subst same
      cases (Function.update_self ..).symm.trans handled
    · cases (Function.update_of_ne same ..).symm.trans handled
  apart := by
    intro fd fd' address handled
    by_cases same : fd = listening
    · subst same
      cases (Function.update_self ..).symm.trans handled
    · cases (Function.update_of_ne same ..).symm.trans handled
  unknown := by
    intro fd unwatched
    have different : fd ≠ listening := by
      rintro rfl
      cases (Function.update_self ..).symm.trans unwatched
    exact ⟨Function.update_of_ne different .., rfl, rfl⟩

variable (sound : Sound listening listener)
include sound

/-- An event changes its own descriptor, or the accepted one when the listening socket is reported. -/
theorem dispatch_moves (reported : listener.Reported e) (dispatched : listener.dispatch e = some next) :
    next = listener ∨
      ∃ fd address, Moves fd address listener next ∧
        (fd = e.fd ∨ e.fd = listening ∧ listener.interest fd = none) := by
  rw [SocketsListener.dispatch] at dispatched
  cases handled : listener.m_socketHandlers e.fd with
  | none =>
      rw [handled] at dispatched
      exact Or.inl (Option.some.inj dispatched).symm
  | some found =>
      rw [handled] at dispatched
      cases found with
      | server own =>
          obtain rfl := Option.some.inj dispatched
          have listens := sound.only e.fd own handled
          by_cases refused : e.accepted < 0
          · exact Or.inl (if_pos refused)
          · have accepted := Int.not_lt.mp refused
            exact Or.inr ⟨e.accepted, _, (sound.accept reported listens accepted).1,
              Or.inr ⟨listens, reported.accepted own handled accepted⟩⟩
      | echo address =>
          obtain ⟨handler, mask, phase, plugged⟩ := sound.plugged e.fd address handled
          have moves := (plugged.handle (sound.ne_listening handled) reported).kept next dispatched
          exact Or.inr ⟨e.fd, address, moves, Or.inl rfl⟩

/-- What was reported about another descriptor in the same wait still holds after an event. -/
theorem reported_dispatch {other : Ready} (reported : listener.Reported e) (reported' : listener.Reported other)
    (apart : other.fd ≠ e.fd) (dispatched : listener.dispatch e = some next) : next.Reported other := by
  obtain rfl | ⟨fd, address, moves, own⟩ := sound.dispatch_moves reported dispatched
  · exact reported'
  · obtain ⟨mask, watched, asked⟩ := reported'.registered
    have away : other.fd ≠ fd := by
      rintro rfl
      obtain same | ⟨_, unwatched⟩ := own
      · exact apart same
      · cases watched.symm.trans unwatched
    refine ⟨⟨mask, (moves.interest other.fd away).trans watched, asked⟩, ?_, reported'.memory, reported'.recv⟩
    intro server handled accepted
    rw [moves.handlers other.fd away] at handled
    have unwatched := reported'.accepted server handled accepted
    have away' : other.accepted ≠ fd := by
      rintro rfl
      obtain same | ⟨listens, _⟩ := own
      · obtain ⟨mask', watched', _⟩ := reported.registered
        rw [same, watched'] at unwatched
        cases unwatched
      · exact apart ((sound.only other.fd server handled).trans listens.symm)
    exact (moves.interest other.accepted away').trans unwatched

/-- Every event of one wait is still true when its turn comes. -/
theorem guarded_turn (distinct : (events.map Ready.fd).Nodup) (reported : ∀ e ∈ events, listener.Reported e) :
    Guarded Reported dispatch listener events := by
  induction events generalizing listener with
  | nil => exact trivial
  | cons e events ih =>
      rw [List.map_cons, List.nodup_cons] at distinct
      have own := reported e List.mem_cons_self
      refine ⟨own, ?_⟩
      intro next dispatched
      apply ih ((sound.dispatch_simulates own).kept next dispatched) distinct.2
      intro other member
      have apart : other.fd ≠ e.fd := by
        intro same
        exact distinct.1 (same ▸ List.mem_map_of_mem member)
      exact sound.reported_dispatch own (reported other (List.mem_cons_of_mem e member)) apart dispatched

theorem turn_simulates (waited : listener.Waited events) :
    Simulates (connections listening) (Sound listening) (listener.turn events)
      (PartialRun.run (Echo.dispatch listening) (listener.connections listening) events) :=
  (sound.guarded_turn waited.distinct waited.reported).simulates
    (fun _ _ holds reported => holds.dispatch_simulates reported) sound

/-- In a run of waits every event is reported in the state that it meets. -/
theorem guarded_dispatch (guarded : Guarded Waited turn listener turns) :
    Guarded Reported dispatch listener turns.flatten := by
  induction turns generalizing listener with
  | nil => exact trivial
  | cons events turns ih =>
      obtain ⟨waited, rest⟩ := guarded
      rw [List.flatten_cons, Guarded.append_iff]
      refine ⟨sound.guarded_turn waited.distinct waited.reported, ?_⟩
      intro next ran
      exact ih ((sound.turn_simulates waited).kept next ran) (rest next ran)

/-- The server is a refinement of its independent connections on every run of waits. -/
theorem run_simulates (guarded : Guarded Waited turn listener turns) :
    Simulates (connections listening) (Sound listening) (listener.run turns)
      (PartialRun.run (Echo.dispatch listening) (listener.connections listening) turns.flatten) := by
  have ran := (sound.guarded_dispatch guarded).simulates (fun _ _ holds reported => holds.dispatch_simulates reported) sound
  rw [SocketsListener.run, show SocketsListener.turn = PartialRun.run dispatch from rfl, run_rounds]
  exact ran

end Sound

theorem connections_initial : (initial listening).connections listening = fun _ => none := by
  funext fd
  rw [connections]
  by_cases same : fd = listening
  · rw [if_pos same]
  · have unwatched : (initial listening).interest fd = none := Function.update_of_ne same ..
    rw [if_neg same, unwatched, Option.map_none]

namespace Sound

variable (sound : Sound listening listener) {connection : Connection}
  (shown : listener.connections listening fd = some connection)
include sound shown

/-- A live connection has one of the two masks, and its phase says which. -/
theorem mask_of_connection :
    (connection.phase = .reading → listener.interest fd = some EPOLLIN) ∧
      (connection.phase = .writing connection.pending → listener.interest fd = some EPOLLOUT) := by
  have different : fd ≠ listening := by
    intro same
    rw [connections, if_pos same] at shown
    cases shown
  cases handled : listener.m_socketHandlers fd with
  | none =>
      rw [connections, if_neg different] at shown
      obtain ⟨mask, watched, rfl⟩ := Option.map_eq_some_iff.mp shown
      simp only [SocketsListener.phase, handled]
      exact ⟨(fun reading => by cases reading), fun writing => by cases writing⟩
  | some found =>
      cases found with
      | server own => exact (different (sound.only fd own handled)).elim
      | echo address =>
          obtain ⟨handler, mask, phase, plugged⟩ := sound.plugged fd address handled
          obtain rfl := Option.some.inj ((plugged.connection different).symm.trans shown)
          cases plugged.armed with
          | input => exact ⟨fun _ => plugged.watched, fun writing => by cases writing⟩
          | output counted some_ kept => exact ⟨(fun reading => by cases reading), fun _ => plugged.watched⟩

/-- The kernel may report what the connection waits for. -/
theorem reported_of_connection (own : e.fd = fd) (input : e.events &&& EPOLLIN ≠ 0 → connection.phase = .reading)
    (output : e.events &&& EPOLLOUT ≠ 0 → connection.phase = .writing connection.pending)
    (memory : e.memory.length = 1000) (recv : ∀ bytes, e.recv = some bytes → bytes.length ≤ 1000) :
    listener.Reported e := by
  obtain ⟨reading, writing⟩ := sound.mask_of_connection shown
  have different : fd ≠ listening := by
    intro same
    rw [connections, if_pos same] at shown
    cases shown
  subst own
  refine ⟨?_, ?_, memory, recv⟩
  · cases watched : listener.interest e.fd with
    | none =>
        rw [connections, if_neg different, watched] at shown
        cases shown
    | some mask =>
        refine ⟨mask, rfl, ?_⟩
        intro flag member raised
        rw [List.mem_cons, List.mem_singleton] at member
        obtain rfl | rfl := member
        · rw [← Option.some.inj ((reading (input raised)).symm.trans watched)]
          decide
        · rw [← Option.some.inj ((writing (output raised)).symm.trans watched)]
          decide
  · intro server handled
    exact (different (sound.only e.fd server handled)).elim

end Sound

/-- The kernel may report this event to a server with these connections. -/
structure Fits (listening : Int) (connections : Connections) (e : Ready) : Prop where
  memory : e.memory.length = 1000
  recv : ∀ bytes, e.recv = some bytes → bytes.length ≤ 1000
  asked : (e.fd = listening ∧ e.events &&& EPOLLOUT = 0 ∧ e.accepted ≠ listening ∧ connections e.accepted = none) ∨
    ∃ connection, connections e.fd = some connection ∧
      (e.events &&& EPOLLIN ≠ 0 → connection.phase = .reading) ∧
      (e.events &&& EPOLLOUT ≠ 0 → connection.phase = .writing connection.pending)

/-- A fitting event is a wait of its own. -/
theorem Sound.waited (sound : Sound listening listener) (fits : Fits listening (listener.connections listening) e) :
    listener.Waited [e] := by
  have reported : listener.Reported e := by
    obtain ⟨memory, recv, ⟨listens, quiet, different, unopened⟩ | ⟨connection, shown, input, output⟩⟩ := fits
    · refine ⟨⟨EPOLLIN, listens ▸ sound.listens, ?_⟩, ?_, memory, recv⟩
      · intro flag member raised
        rw [List.mem_cons, List.mem_singleton] at member
        obtain rfl | rfl := member
        · decide
        · exact (raised quiet).elim
      · intro _ _ _
        rw [connections, if_neg different, Option.map_eq_none_iff] at unopened
        exact unopened
    · exact sound.reported_of_connection shown rfl input output memory recv
  refine ⟨show 1 ≤ 5 by decide, List.nodup_singleton _, ?_⟩
  intro other member
  rwa [List.mem_singleton.mp member]

/-- Every run of the connections with fitting events is a run of the server. -/
theorem Sound.exists_run (sound : Sound listening listener) {connections' : Connections}
    (fits : Guarded (Fits listening) (Echo.dispatch listening) (listener.connections listening) events)
    (ran : PartialRun.run (Echo.dispatch listening) (listener.connections listening) events = some connections') :
    Guarded Waited turn listener (events.map fun e => [e]) ∧
      ∃ final, listener.run (events.map fun e => [e]) = some final ∧ final.connections listening = connections' := by
  induction events generalizing listener with
  | nil => exact ⟨trivial, listener, rfl, Option.some.inj ran⟩
  | cons e events ih =>
      have waited := sound.waited fits.1
      have simulated := sound.turn_simulates waited
      obtain ⟨middle, stepped, ran⟩ := Option.bind_eq_some_iff.mp ran
      rw [run_cons, stepped, Option.bind_some, run_nil] at simulated
      obtain ⟨next, turned, sound', rfl⟩ := simulated.exists_result
      obtain ⟨guarded, final, ran', same⟩ := ih sound' (fits.2 _ stepped) ran
      refine ⟨Guarded.cons waited turned guarded, final, ?_, same⟩
      rw [List.map_cons, SocketsListener.run, run_cons, turned, Option.bind_some]
      exact ran'

/-- The listening socket accepts a client. -/
def accepts (listening client : Int) : Ready := ⟨listening, EPOLLIN, client, List.replicate 1000 0, none, 0⟩

/-- A client sends bytes. -/
def reads (client : Int) (bytes : List UInt8) : Ready := ⟨client, EPOLLIN, -1, List.replicate 1000 0, some bytes, 0⟩

/-- A client takes some of its bytes back. -/
def writes (client : Int) (count : Int) : Ready := ⟨client, EPOLLOUT, -1, List.replicate 1000 0, none, count⟩

/-- A client hangs up. -/
def hangsUp (client : Int) : Ready := ⟨client, EPOLLHUP, -1, List.replicate 1000 0, none, 0⟩

section Samples

variable {client count : Int} {connections : Connections} {connection : Connection}

theorem fits_accepts (different : client ≠ listening) (unopened : connections client = none) :
    Fits listening connections (accepts listening client) :=
  ⟨List.length_replicate, nofun, Or.inl ⟨rfl, show EPOLLIN &&& EPOLLOUT = 0 by decide, different, unopened⟩⟩

variable (shown : connections client = some connection)
include shown

theorem fits_reads {bytes : List UInt8} (reading : connection.phase = .reading) (short : bytes.length ≤ 1000) :
    Fits listening connections (reads client bytes) :=
  ⟨List.length_replicate, fun _ same => Option.some.inj same ▸ short,
    Or.inr ⟨connection, shown, fun _ => reading, fun raised => (raised (show EPOLLIN &&& EPOLLOUT = 0 by decide)).elim⟩⟩

theorem fits_writes (writing : connection.phase = .writing connection.pending) :
    Fits listening connections (writes client count) :=
  ⟨List.length_replicate, nofun,
    Or.inr ⟨connection, shown, fun raised => (raised (show EPOLLOUT &&& EPOLLIN = 0 by decide)).elim, fun _ => writing⟩⟩

theorem fits_hangsUp : Fits listening connections (hangsUp client) :=
  ⟨List.length_replicate, nofun,
    Or.inr ⟨connection, shown, fun raised => (raised (show EPOLLHUP &&& EPOLLIN = 0 by decide)).elim,
      fun raised => (raised (show EPOLLHUP &&& EPOLLOUT = 0 by decide)).elim⟩⟩

end Samples

/-- The send of this event takes all bytes that its connection has to give back. -/
def CompletesIn (connections : Connections) (e : Ready) : Prop :=
  ∀ connection, connections e.fd = some connection → connection.Completes e

theorem completesIn_of_connection {connections : Connections} {connection : Connection}
    (shown : connections e.fd = some connection) (completes : connection.Completes e) : CompletesIn connections e := by
  intro other shown'
  rwa [Option.some.inj (shown'.symm.trans shown)]

def Completes (listening : Int) (listener : SocketsListener) (e : Ready) : Prop :=
  CompletesIn (listener.connections listening) e

section Runs

variable (guarded : Guarded Waited turn (initial listening) turns) (ran : (initial listening).run turns = some listener)
include guarded ran

/-- Every connection is what its own events made of it. -/
theorem own_run (fd : Int) :
    PartialRun.run (Echo.handle listening) none (Components.own (concerned listening) fd turns.flatten) =
      some (listener.connections listening fd) := by
  have simulated := (Sound.initial.run_simulates guarded).view_eq
  rw [ran, connections_initial] at simulated
  exact Components.run_own simulated.symm fd

theorem own_guarded (complete : Guarded (Completes listening) dispatch (initial listening) turns.flatten) (fd : Int) :
    Guarded (Echo.Completes listening) (Echo.handle listening) none
      (Components.own (concerned listening) fd turns.flatten) := by
  have simulated := (Sound.initial.run_simulates guarded).view_eq
  rw [ran, connections_initial] at simulated
  have carries (current : SocketsListener) (e : Ready) (_ : Sound listening current)
      (permitted : current.Reported e ∧ current.Completes listening e) :
      Echo.Completes listening (current.connections listening (concerned listening e)) e := by
    intro different live shown
    rw [concerned, if_neg different] at shown
    exact permitted.2 live shown
  have carried : Guarded (fun current e => Echo.Completes listening (current (concerned listening e)) e)
      (Echo.dispatch listening) ((initial listening).connections listening) turns.flatten :=
    ((Sound.initial.guarded_dispatch guarded).and complete).of_simulates
      (fun _ _ sound permitted => sound.dispatch_simulates permitted.1) carries Sound.initial
  rw [connections_initial] at carried
  exact Components.guarded_own carried simulated.symm fd

end Runs

/-- The history of a connection is the history of its descriptor. -/
theorem history_of_connection {connection : Connection}
    (shown : listener.connections listening fd = some connection) :
    connection.sent = listener.sent fd ∧ connection.received = listener.received fd := by
  rw [connections] at shown
  split at shown
  · cases shown
  · obtain ⟨mask, _, rfl⟩ := Option.map_eq_some_iff.mp shown
    exact ⟨rfl, rfl⟩

/-- A connection gives back what it received, in order and without additions. With complete sends it loses nothing
before its removal. -/
theorem gives_back (guarded : Guarded Waited turn (initial listening) turns)
    (ran : (initial listening).run turns = some listener) {connection : Connection}
    (shown : listener.connections listening fd = some connection) :
    (listener.sent fd ++ connection.pending).Sublist (listener.received fd) ∧
      (Guarded (Completes listening) dispatch (initial listening) turns.flatten →
        listener.sent fd ++ connection.pending <+: listener.received fd ∧
          (connection.phase ≠ .removed → listener.sent fd ++ connection.pending = listener.received fd)) := by
  obtain ⟨sent, received⟩ := history_of_connection shown
  have own := own_run guarded ran fd
  rw [shown] at own
  rw [← sent, ← received]
  refine ⟨faithful_of_run own, ?_⟩
  intro complete
  obtain ⟨starts, whole⟩ := exact_of_run (own_guarded guarded ran complete fd) own
  exact ⟨starts, whole⟩

/-- A client gets its two bytes back and hangs up. -/
theorem session_fits :
    Guarded (Fits 3) (Echo.dispatch 3) ((initial 3).connections 3)
      [accepts 3 5, reads 5 [1, 2], writes 5 2, hangsUp 5] := by
  rw [connections_initial]
  apply Guarded.cons (fits_accepts (by decide) rfl) rfl
  apply Guarded.cons (fits_reads rfl rfl (by decide)) rfl
  apply Guarded.cons (fits_writes rfl rfl) rfl
  apply Guarded.cons (fits_hangsUp rfl) rfl
  trivial

/-- The server sends exactly the two bytes that it received. -/
theorem gives_back_session :
    ∃ listener, (initial 3).run [[accepts 3 5], [reads 5 [1, 2]], [writes 5 2], [hangsUp 5]] = some listener ∧
      (listener.sent 5).Sublist (listener.received 5) ∧ listener.sent 5 <+: listener.received 5 ∧
        listener.received 5 = [1, 2] := by
  obtain ⟨guarded, listener, ran, same⟩ := Sound.initial.exists_run session_fits (by rw [connections_initial]; rfl)
  have shown : listener.connections 3 5 = some ⟨.removed, [1, 2], [1, 2]⟩ := by
    rw [same]
    rfl
  have completes : Guarded CompletesIn (Echo.dispatch 3) ((initial 3).connections 3)
      [accepts 3 5, reads 5 [1, 2], writes 5 2, hangsUp 5] := by
    rw [connections_initial]
    apply Guarded.cons (fun _ unopened => by cases unopened) rfl
    apply Guarded.cons (completesIn_of_connection rfl (by change (0 : Int) ≤ 0; decide)) rfl
    apply Guarded.cons (completesIn_of_connection rfl (by change (2 : Int) ≤ 2; decide)) rfl
    apply Guarded.cons (completesIn_of_connection rfl (by change (0 : Int) ≤ 0; decide)) rfl
    trivial
  have complete := (Sound.initial.guarded_dispatch guarded).reflect
    (fun _ _ holds reported => holds.dispatch_simulates reported) Sound.initial completes
  obtain ⟨sublist, exact_⟩ := gives_back guarded ran shown
  rw [Connection.pending, List.append_nil] at sublist exact_
  exact ⟨listener, ran, sublist, (exact_ complete).1, (history_of_connection shown).2.symm⟩

/-- The order in which the events of different descriptors are handled does not matter. -/
theorem order_free {others : List (List Ready)} (guarded : Guarded Waited turn (initial listening) turns)
    (guarded' : Guarded Waited turn (initial listening) others)
    (same : ∀ fd, Components.own (concerned listening) fd turns.flatten =
      Components.own (concerned listening) fd others.flatten) :
    ((initial listening).run turns).map (connections listening) =
      ((initial listening).run others).map (connections listening) := by
  rw [(Sound.initial.run_simulates guarded).view_eq, (Sound.initial.run_simulates guarded').view_eq]
  exact Components.run_eq_of_own same

/-- Two clients can be served in both orders. -/
theorem order_free_session :
    ((initial 3).run [[accepts 3 5], [accepts 3 6], [reads 5 [1]], [reads 6 [2]]]).map (connections 3) =
      ((initial 3).run [[accepts 3 5], [accepts 3 6], [reads 6 [2]], [reads 5 [1]]]).map (connections 3) := by
  have first : Guarded (Fits 3) (Echo.dispatch 3) ((initial 3).connections 3)
      [accepts 3 5, accepts 3 6, reads 5 [1], reads 6 [2]] := by
    rw [connections_initial]
    apply Guarded.cons (fits_accepts (by decide) rfl) rfl
    apply Guarded.cons (fits_accepts (by decide) rfl) rfl
    apply Guarded.cons (fits_reads rfl rfl (by decide)) rfl
    apply Guarded.cons (fits_reads rfl rfl (by decide)) rfl
    trivial
  have second : Guarded (Fits 3) (Echo.dispatch 3) ((initial 3).connections 3)
      [accepts 3 5, accepts 3 6, reads 6 [2], reads 5 [1]] := by
    rw [connections_initial]
    apply Guarded.cons (fits_accepts (by decide) rfl) rfl
    apply Guarded.cons (fits_accepts (by decide) rfl) rfl
    apply Guarded.cons (fits_reads rfl rfl (by decide)) rfl
    apply Guarded.cons (fits_reads rfl rfl (by decide)) rfl
    trivial
  have guarded := (Sound.initial.exists_run first (by rw [connections_initial]; rfl)).1
  have guarded' := (Sound.initial.exists_run second (by rw [connections_initial]; rfl)).1
  apply order_free guarded guarded'
  intro fd
  by_cases five : 5 = fd
  · subst five
    rfl
  · by_cases six : 6 = fd
    · subst six
      rfl
    · change Components.own _ fd [accepts 3 5, accepts 3 6, reads 5 [1], reads 6 [2]] =
        Components.own _ fd [accepts 3 5, accepts 3 6, reads 6 [2], reads 5 [1]]
      have away : fd ≠ concerned 3 (accepts 3 5) ∧ fd ≠ concerned 3 (reads 5 [1]) := ⟨Ne.symm five, Ne.symm five⟩
      have away' : fd ≠ concerned 3 (accepts 3 6) ∧ fd ≠ concerned 3 (reads 6 [2]) := ⟨Ne.symm six, Ne.symm six⟩
      rw [Components.own_cons_of_ne away.1, Components.own_cons_of_ne away'.1, Components.own_cons_of_ne away.2,
        Components.own_cons_of_ne away'.2, Components.own_cons_of_ne away.1, Components.own_cons_of_ne away'.1,
        Components.own_cons_of_ne away'.2, Components.own_cons_of_ne away.2]

/-- The event makes its connection read a full block. -/
def Overruns (listening : Int) (listener : SocketsListener) (e : Ready) : Prop :=
  e.fd ≠ listening ∧ ∃ connection, listener.connections listening e.fd = some connection ∧ connection.Overruns e

namespace Sound

variable (sound : Sound listening listener)
include sound

/-- An event has no result exactly when its connection reads a full block. -/
theorem dispatch_eq_none_iff (reported : listener.Reported e) :
    listener.dispatch e = none ↔ listener.Overruns listening e := by
  have same := (sound.dispatch_simulates reported).view_eq
  have refused : listener.dispatch e = none ↔
      Echo.handle listening (listener.connections listening (concerned listening e)) e = none := by
    rw [← Option.map_eq_none_iff, same, Echo.dispatch, Components.step, Option.map_eq_none_iff]
  rw [refused]
  by_cases listens : e.fd = listening
  · rw [handle_listening listens]
    constructor
    · intro failed
      cases failed
    · intro overruns
      exact (overruns.1 listens).elim
  · rw [concerned, if_neg listens]
    cases shown : listener.connections listening e.fd with
    | none =>
        rw [Echo.handle, if_neg listens]
        constructor
        · intro failed
          cases failed
        · intro overruns
          obtain ⟨_, connection, shown', _⟩ := overruns
          cases shown.symm.trans shown'
    | some connection =>
        rw [handle_some listens, Option.map_eq_none_iff, Connection.handle_eq_none_iff]
        constructor
        · intro overruns
          exact ⟨listens, connection, shown, overruns⟩
        · intro overruns
          obtain ⟨_, connection', shown', overruns⟩ := overruns
          rwa [Option.some.inj (shown.symm.trans shown')]

/-- An event changes no other reported connection. -/
theorem connections_dispatch {other : Ready} (reported : listener.Reported e) (reported' : listener.Reported other)
    (apart : other.fd ≠ e.fd) (dispatched : listener.dispatch e = some next) :
    next.connections listening other.fd = listener.connections listening other.fd := by
  have view := (sound.dispatch_simulates reported).view_eq
  rw [dispatched] at view
  obtain ⟨value, handled, same⟩ := Option.map_eq_some_iff.mp view.symm
  rw [← same]
  by_cases key : other.fd = concerned listening e
  · rw [key, Function.update_self]
    by_cases listens : e.fd = listening
    · rw [handle_listening listens] at handled
      rw [concerned, if_pos listens] at key
      have refused : e.accepted < 0 := by
        by_contra accepted
        have unwatched := reported.accepted listening (listens ▸ sound.server) (Int.not_lt.mp accepted)
        obtain ⟨mask, watched, _⟩ := reported'.registered
        rw [key, unwatched] at watched
        cases watched
      rw [if_pos refused] at handled
      exact (Option.some.inj handled).symm
    · rw [concerned, if_neg listens] at key
      exact (apart key).elim
  · exact Function.update_of_ne key ..

/-- A wait has no result exactly when one of its events makes a connection read a full block. -/
theorem turn_eq_none_iff (distinct : (events.map Ready.fd).Nodup) (reported : ∀ e ∈ events, listener.Reported e) :
    listener.turn events = none ↔ ∃ e ∈ events, listener.Overruns listening e := by
  induction events generalizing listener with
  | nil =>
      constructor
      · intro failed
        cases failed
      · intro overrun
        obtain ⟨e, member, _⟩ := overrun
        cases member
  | cons e events ih =>
      rw [List.map_cons, List.nodup_cons] at distinct
      have own := reported e List.mem_cons_self
      have apart : ∀ other ∈ events, other.fd ≠ e.fd := by
        intro other member same
        exact distinct.1 (same ▸ List.mem_map_of_mem member)
      rw [SocketsListener.turn, run_cons]
      cases dispatched : listener.dispatch e with
      | none =>
          have overruns := (sound.dispatch_eq_none_iff own).mp dispatched
          exact ⟨fun _ => ⟨e, List.mem_cons_self, overruns⟩, fun _ => rfl⟩
      | some next =>
          have fine : ¬ listener.Overruns listening e := by
            intro overruns
            cases dispatched.symm.trans ((sound.dispatch_eq_none_iff own).mpr overruns)
          have later := ih ((sound.dispatch_simulates own).kept next dispatched) distinct.2 fun other member =>
            sound.reported_dispatch own (reported other (List.mem_cons_of_mem e member)) (apart other member) dispatched
          have same : ∀ other ∈ events, next.Overruns listening other ↔ listener.Overruns listening other := by
            intro other member
            rw [Overruns, Overruns, sound.connections_dispatch own (reported other (List.mem_cons_of_mem e member))
              (apart other member) dispatched]
          rw [Option.bind_some]
          refine later.trans ?_
          constructor
          · intro overrun
            obtain ⟨other, member, overruns⟩ := overrun
            exact ⟨other, List.mem_cons_of_mem e member, (same other member).mp overruns⟩
          · intro overrun
            obtain ⟨other, member, overruns⟩ := overrun
            obtain rfl | member := List.mem_cons.mp member
            · exact (fine overruns).elim
            · exact ⟨other, member, (same other member).mpr overruns⟩

end Sound

/-- In every state that the server reaches, a wait is undefined exactly when a connection reads a full block. -/
theorem undefined_iff (guarded : Guarded Waited turn (initial listening) turns)
    (ran : (initial listening).run turns = some listener) (waited : listener.Waited events) :
    listener.turn events = none ↔ ∃ e ∈ events, listener.Overruns listening e :=
  ((Sound.initial.run_simulates guarded).kept listener ran).turn_eq_none_iff waited.distinct waited.reported

/-- When every read is shorter than the block, the run is defined. -/
theorem exists_final (guarded : Guarded Waited turn (initial listening) turns)
    (short : ∀ e ∈ turns.flatten, ∀ bytes, e.recv = some bytes → bytes.length < 1000) :
    ∃ final, (initial listening).run turns = some final := by
  have shortTurns : ∀ events ∈ turns, ∀ e ∈ events, ∀ bytes, e.recv = some bytes → bytes.length < 1000 :=
    fun events listed e member => short e (List.mem_flatten_of_mem listed member)
  refine (guarded.and (Guarded.of_forall shortTurns)).exists_run ?_ Sound.initial
  rintro current events sound ⟨waited, reads⟩
  cases turned : current.turn events with
  | some next => exact ⟨next, rfl, (sound.turn_simulates waited).kept next turned⟩
  | none =>
      obtain ⟨e, member, _, connection, _, overruns⟩ :=
        (sound.turn_eq_none_iff waited.distinct waited.reported).mp turned
      obtain ⟨_, _, _, _, bytes, received, full⟩ := overruns
      exact absurd (reads e member bytes received) (Nat.not_lt.mpr full)

/-- A client that sends a full block at once makes the server write behind its buffer. -/
theorem undefined_session :
    ∃ listener, (initial 3).run [[accepts 3 5]] = some listener ∧
      listener.turn [reads 5 (List.replicate 1000 7)] = none := by
  have fits : Guarded (Fits 3) (Echo.dispatch 3) ((initial 3).connections 3) [accepts 3 5] := by
    rw [connections_initial]
    apply Guarded.cons (fits_accepts (by decide) rfl) rfl
    trivial
  obtain ⟨guarded, listener, ran, same⟩ := Sound.initial.exists_run fits (by rw [connections_initial]; rfl)
  have shown : listener.connections 3 5 = some .opened := by
    rw [same]
    rfl
  have sound := (Sound.initial.run_simulates guarded).kept listener ran
  have full : (List.replicate 1000 (7 : UInt8)).length = 1000 := List.length_replicate
  have waited : listener.Waited [reads 5 (List.replicate 1000 7)] := sound.waited (fits_reads shown rfl full.le)
  refine ⟨listener, ran, (undefined_iff guarded ran waited).mpr ⟨_, List.mem_singleton_self _, by decide, _, shown, ?_⟩⟩
  exact ⟨rfl, by decide, by decide, by decide, _, rfl, full.ge⟩

/-- This connection is removed, and these descriptors and handlers are in use. -/
structure Retired (listening : Int) (before : SocketsListener) (fd : Int) (connection : Connection)
    (listener : SocketsListener) : Prop where
  sound : Sound listening listener
  shown : listener.connections listening fd = some connection
  watched : ∀ other, before.interest other ≠ none → listener.interest other ≠ none
  allocated : ∀ address, before.echoHandlers.read address ≠ none → listener.echoHandlers.read address ≠ none

/-- An event leaves a removed connection alone and gives up no descriptor and no handler. -/
theorem Retired.dispatch {before : SocketsListener} {connection : Connection}
    (retired : Retired listening before fd connection listener) (removed : connection.phase = .removed)
    (reported : listener.Reported e) (dispatched : listener.dispatch e = some next) :
    Retired listening before fd connection next := by
  obtain ⟨sound, shown, watched, allocated⟩ := retired
  have simulated := sound.dispatch_simulates reported
  refine ⟨simulated.kept next dispatched, ?_, ?_, ?_⟩
  · have view := simulated.view_eq
    rw [dispatched] at view
    obtain ⟨value, handled, same⟩ := Option.map_eq_some_iff.mp view.symm
    rw [← same]
    by_cases key : fd = concerned listening e
    · subst key
      rw [Function.update_self]
      rw [shown] at handled
      obtain rfl | ⟨listens, accepted, rfl⟩ | ⟨live, live', _, equal, reached, rfl⟩ := handle_cases handled
      · rfl
      · have unwatched := reported.accepted listening (listens ▸ sound.server) accepted
        rw [concerned, if_pos listens, connections, unwatched, Option.map_none] at shown
        split at shown <;> cases shown
      · obtain rfl := Option.some.inj equal
        rw [Connection.handle_of_removed removed] at reached
        exact reached.symm
    · rw [Function.update_of_ne key, shown]
  · intro other inUse
    obtain rfl | ⟨changed, address, moves, _⟩ := sound.dispatch_moves reported dispatched
    · exact watched other inUse
    · by_cases same : other = changed
      · exact same ▸ moves.watched
      · rw [moves.interest other same]
        exact watched other inUse
  · intro address inUse
    obtain rfl | ⟨changed, address', moves, _⟩ := sound.dispatch_moves reported dispatched
    · exact allocated address inUse
    · by_cases same : address = address'
      · exact same ▸ moves.allocated
      · rw [moves.cells address same]
        exact allocated address inUse

/-- After its removal a connection never receives or sends again, and the server never gives up a descriptor or a
handler. -/
theorem removed_forever (guarded : Guarded Waited turn (initial listening) turns)
    (ran : (initial listening).run turns = some listener) (guarded' : Guarded Waited turn listener later)
    (ran' : listener.run later = some final) {connection : Connection}
    (shown : listener.connections listening fd = some connection) (removed : connection.phase = .removed) :
    final.connections listening fd = some connection ∧
      (∀ other, listener.interest other ≠ none → final.interest other ≠ none) ∧
      ∀ address, listener.echoHandlers.read address ≠ none → final.echoHandlers.read address ≠ none := by
  have sound := (Sound.initial.run_simulates guarded).kept listener ran
  have start : Retired listening listener fd connection listener := ⟨sound, shown, fun _ => id, fun _ => id⟩
  rw [SocketsListener.run, show turn = PartialRun.run dispatch from rfl, run_rounds] at ran'
  obtain ⟨_, shown', watched, allocated⟩ := (sound.guarded_dispatch guarded').run_invariant
    (fun _ _ _ retired reported dispatched => retired.dispatch removed reported dispatched) start ran'
  exact ⟨shown', watched, allocated⟩

/-- After a hang-up the descriptor is reported again and ignored. -/
theorem removed_forever_session :
    ∃ listener final, (initial 3).run [[accepts 3 5], [reads 5 [1, 2]], [writes 5 2], [hangsUp 5]] = some listener ∧
      listener.run [[hangsUp 5]] = some final ∧ final.connections 3 5 = some ⟨.removed, [1, 2], [1, 2]⟩ := by
  obtain ⟨guarded, listener, ran, same⟩ := Sound.initial.exists_run session_fits (by rw [connections_initial]; rfl)
  have shown : listener.connections 3 5 = some ⟨.removed, [1, 2], [1, 2]⟩ := by
    rw [same]
    rfl
  have sound := (Sound.initial.run_simulates guarded).kept listener ran
  have fits : Guarded (Fits 3) (Echo.dispatch 3) (listener.connections 3) [hangsUp 5] := by
    rw [same]
    apply Guarded.cons (fits_hangsUp rfl) rfl
    trivial
  obtain ⟨guarded', final, ran', _⟩ := sound.exists_run fits (by rw [same]; rfl)
  exact ⟨listener, final, ran, ran', (removed_forever guarded ran guarded' ran' shown rfl).1⟩

end MarsWrapper.SocketsListener
