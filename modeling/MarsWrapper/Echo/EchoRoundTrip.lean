import MarsWrapper.Echo.EchoRuns
import MarsWrapper.Stream.Fragmentation
import MarsWrapper.Tasks.RoundTrip

namespace MarsWrapper

open Foundation Foundation.StreamLoop AutoBufferApi

variable {Buffer S : Type} [AutoBuffer Buffer] (width : SizeT)

/-- The handler of a whole frame turns what holds before the frame into what holds behind it. -/
def HandlesFrames (handle : S → Buffer → Unpacked Buffer → S) (holds : S → List Frame → Prop) : Prop :=
  ∀ state frame later packed tail, holds state (frame :: later) → content packed = frame.bytes ++ tail →
    length packed < 2 ^ 31 →
    holds (handle state packed ⟨0, frame.messageId, frame.size, writeCur empty (content packed)⟩) later

section Handlers

variable {handle : S → Buffer → Unpacked Buffer → S} {holds : S → List Frame → Prop}
  (handles : HandlesFrames handle holds)

/-- A buffer that holds a whole frame starts with its bytes, and the others follow. -/
theorem split_frame {packed : Buffer} {frame : Frame} {later : List Frame} {tail : List UInt8}
    (begun : content packed ++ tail = framesBytes (frame :: later)) (complete : frame.size ≤ length packed) :
    ∃ behind, content packed = frame.bytes ++ behind ∧ content (move packed frame.size) = behind ∧
      behind ++ tail = framesBytes later := by
  rw [framesBytes_cons] at begun
  obtain ⟨behind, whole, rest⟩ | ⟨missing, whole, rest⟩ := List.append_eq_append_iff.mp begun
  · have long := congrArg List.length whole
    rw [frame.length_bytes, List.length_append, AutoBuffer.length_content] at long
    obtain rfl : behind = [] := List.length_eq_zero_iff.mp (by omega)
    rw [List.append_nil] at whole
    refine ⟨[], by rw [List.append_nil, whole], ?_, ?_⟩
    · rw [AutoBuffer.content_move, ← whole, ← frame.length_bytes, List.drop_length]
    · rw [List.nil_append, rest, List.nil_append]
  · refine ⟨missing, whole, ?_, rest.symm⟩
    rw [AutoBuffer.content_move, whole, ← frame.length_bytes, List.drop_left]

include handles

/-- The loop hands every complete frame to the handler. -/
theorem settle_handles (frames : List Frame) (packed : Buffer) (tail : List UInt8) (state : S)
    (begun : content packed ++ tail = framesBytes frames) (short : length packed < 2 ^ 31)
    (start : holds state frames) :
    ∃ packets, Consumes nonEmpty (unpackVerdict width) packed packets (settle packed frames).1 ∧
      packets.length + length (settle packed frames).1 ≤ length packed ∧
      holds (handleAll handle state packets) (settle packed frames).2 := by
  induction frames generalizing packed state with
  | nil => exact ⟨[], .nil packed, by simp [settle], start⟩
  | cons frame later ih =>
      by_cases complete : frame.size ≤ length packed
      · obtain ⟨behind, whole, moved, rest⟩ := split_frame begun complete
        have positive : 12 ≤ frame.size := Nat.le_add_right _ _
        have shorter : length (move packed frame.size) = length packed - frame.size := by
          rw [← AutoBuffer.length_content, AutoBuffer.content_move, List.length_drop, AutoBuffer.length_content]
        have open_ : nonEmpty packed = true := bne_iff_ne.mpr (by omega)
        have step : settle packed (frame :: later) = settle (move packed frame.size) later := by
          rw [settle, if_pos complete]
        obtain ⟨packets, consumed, spent, kept⟩ := ih (move packed frame.size)
          (handle state packed ⟨0, frame.messageId, frame.size, writeCur empty (content packed)⟩) (moved ▸ rest)
          (by omega) (handles state frame later packed behind start whole short)
        rw [step]
        refine ⟨_ :: packets, .cons open_ (unpackVerdict_frame width packed frame behind whole) consumed, ?_, kept⟩
        rw [List.length_cons]
        omega
      · have stay : settle packed (frame :: later) = (packed, frame :: later) := by
          rw [settle, if_neg complete]
        rw [stay]
        exact ⟨[], .nil packed, by simp, start⟩

omit handles in
/-- The loop stops behind the complete frames when their residue is harmless. -/
theorem settle_stops (frames : List Frame) (packed : Buffer) (tail : List UInt8)
    (begun : content packed ++ tail = framesBytes frames) (harmless : ResidueHarmless width (settle packed frames).1) :
    nonEmpty (settle packed frames).1 = false ∨
      nonEmpty (settle packed frames).1 = true ∧ unpackVerdict width (settle packed frames).1 = .wait := by
  obtain ⟨_, _, _, _, _, _, remains, settled⟩ := settle_consumes width frames packed tail begun
  by_cases bare : length (settle packed frames).1 = 0
  · exact Or.inl (bne_eq_false_iff_eq.mpr bare)
  · refine Or.inr ⟨bne_iff_ne.mpr bare, ?_⟩
    by_cases short : length (settle packed frames).1 < 12
    · exact unpackVerdict_short width _ short bare harmless
    · obtain none_ | ⟨frame, later, next, missing⟩ := settled
      · rw [none_, framesBytes_nil, List.append_eq_nil_iff, AutoBuffer.content_eq_nil_iff] at remains
        exact (bare remains.1).elim
      · rw [next] at remains
        exact unpackVerdict_partial width _ frame (framesBytes later) tail remains (by omega) missing

/-- One read handles its complete frames and stops at a harmless residue. -/
theorem drain_handles (frames : List Frame) (packed : Buffer) (tail : List UInt8) (state : S)
    (begun : content packed ++ tail = framesBytes frames) (short : length packed < 2 ^ 31)
    (harmless : ResidueHarmless width (settle packed frames).1) (start : holds state frames) :
    ∃ next stop, (stop = .idle ∨ stop = .wait) ∧ holds next (settle packed frames).2 ∧
      drain nonEmpty (unpackVerdict width) handle (length packed) state packed =
        ⟨next, (settle packed frames).1, stop⟩ := by
  obtain ⟨packets, consumed, spent, kept⟩ := settle_handles width handles frames packed tail state begun short start
  obtain ⟨fuel, budget⟩ : ∃ fuel, length packed = packets.length + (length (settle packed frames).1 + fuel) :=
    ⟨length packed - packets.length - length (settle packed frames).1, by omega⟩
  rw [budget, drain_consumes consumed]
  obtain closed | ⟨open_, waits⟩ := settle_stops width frames packed tail begun harmless
  · exact ⟨_, .idle, Or.inl rfl, kept, drain_idle _ _ _ closed⟩
  · have more : length (settle packed frames).1 ≠ 0 := bne_iff_ne.mp open_
    refine ⟨_, .wait, Or.inr rfl, kept, ?_⟩
    rw [show length (settle packed frames).1 + fuel = length (settle packed frames).1 - 1 + fuel + 1 by omega]
    exact drain_wait _ _ _ open_ waits

/-- From any settled buffer the loop handles all frames through all harmless reads. -/
theorem receiveAll_handles (reads : List (List UInt8)) (frames : List Frame) (packed : Buffer) (state : S)
    (cut : content packed ++ reads.flatten = framesBytes frames) (short : (framesBytes frames).length < 2 ^ 31)
    (harmless : CutsHarmless width packed frames reads) (start : holds state frames)
    (settled : frames = [] ∨ ∃ frame later, frames = frame :: later ∧ length packed < frame.size) :
    let outcome := receiveAll nonEmpty (unpackVerdict width) handle state packed reads
    (outcome.stop ≠ .reject ∧ outcome.stop ≠ .stuck) ∧ content outcome.rest = [] ∧ holds outcome.state [] := by
  induction reads generalizing frames packed state with
  | nil =>
      rw [List.flatten_nil, List.append_nil] at cut
      obtain rfl | ⟨frame, later, rfl, missing⟩ := settled
      · have closed : nonEmpty packed = false := (nonEmpty_eq_false_iff packed).mpr cut
        simp only [receiveAll, closed]
        exact ⟨by decide, cut, start⟩
      · have long := congrArg List.length cut
        rw [AutoBuffer.length_content, framesBytes_cons, List.length_append, Frame.length_bytes] at long
        omega
  | cons read reads ih =>
      have begun : content (receive packed read) ++ reads.flatten = framesBytes frames := by
        rw [AutoBuffer.content_receive, List.append_assoc, ← List.flatten_cons, cut]
      have fuel : (StreamBuffer.bytes (receive packed read)).length = length (receive packed read) := by
        rw [AutoBuffer.bytes_eq_content, AutoBuffer.length_content]
      have bounded : length (receive packed read) < 2 ^ 31 := by
        rw [← begun, List.length_append, AutoBuffer.length_content] at short
        omega
      obtain ⟨cutHarmless, laterHarmless⟩ := harmless
      obtain ⟨next, stop, open_, kept, drained⟩ := drain_handles width handles frames (receive packed read)
        reads.flatten state begun bounded cutHarmless start
      obtain ⟨done, _, parts, _, _, _, remains, resettled⟩ := settle_consumes width frames (receive packed read) _ begun
      have smaller : (framesBytes (settle (receive packed read) frames).2).length < 2 ^ 31 := by
        rw [parts, framesBytes, List.map_append, List.flatten_append, List.length_append] at short
        rw [framesBytes]
        omega
      rw [← fuel] at drained
      intro outcome
      have continued : outcome = _ := receiveAll_continue drained open_
      rw [continued]
      exact ih _ _ next remains smaller laterHarmless kept resettled

end Handlers

/-- The remaining frames settle their tasks one after another until this ledger is reached. -/
def Settling (target : Ledger) (state : Option State) (remaining : List Frame) : Prop :=
  ∃ current, state = some current ∧ Owned current [] ∧ (remaining.map Frame.messageId).Nodup ∧
    (∀ frame ∈ remaining, current.ledger.listenerOf frame.messageId ≠ none) ∧
    remaining.foldl Ledger.settle current.ledger = target

/-- The delivery of a frame settles its task and no other. -/
theorem deliver_handles (target : Ledger) :
    HandlesFrames (deliver width : Option State → Buffer → Unpacked Buffer → Option State) (Settling target) := by
  intro state frame later packed tail settling whole short
  obtain ⟨current, rfl, owned, distinct, listening, reaches⟩ := settling
  rw [List.map_cons, List.nodup_cons] at distinct
  have copied : content (writeCur (empty : Buffer) (content packed)) = frame.bytes ++ tail := by
    rw [AutoBuffer.content_writeCur_empty, whole]
  have copiedShort : length (writeCur (empty : Buffer) (content packed)) < 2 ^ 31 := by
    rwa [← AutoBuffer.length_content, AutoBuffer.content_writeCur_empty, AutoBuffer.length_content]
  obtain ⟨next, delivered, nextOwned, nextLedger⟩ := deliver_frame width owned frame tail packed
    ⟨0, frame.messageId, frame.size, writeCur empty (content packed)⟩ rfl copied copiedShort
    (listening frame List.mem_cons_self)
  refine ⟨next, delivered, nextOwned, distinct.2, ?_, ?_⟩
  · intro other member
    have different : other.messageId ≠ frame.messageId := fun same =>
      distinct.1 (same ▸ List.mem_map_of_mem member)
    rw [nextLedger, Ledger.listenerOf, Ledger.tasks_settle_of_ne _ _ different]
    exact listening other (List.mem_cons_of_mem _ member)
  · rw [nextLedger]
    exact reaches

/-- Each started task has its own frame, and the frame has its own listener. -/
structure SentFrames (state sent : State) (messages : List Outgoing) (tasks : List Task) (frames : List Frame) :
    Prop where
  owned : Owned sent []
  started : sent.started = state.started ++ tasks
  ids : tasks.map Task.taskid = frames.map Frame.messageId
  calls : sent.ledger.calls = state.ledger.calls
  others : ∀ taskid, taskid ∉ frames.map Frame.messageId → sent.ledger.tasks taskid = state.ledger.tasks taskid
  awaits : List.Forall₂ sent.ledger.Awaits frames messages
  distinct : (frames.map Frame.messageId).Nodup
  fresh : ∀ frame ∈ frames, frame.messageId ≠ Task.kNoopTaskID ∧ ¬state.ledger.Taken frame.messageId

/-- The sends of outgoing messages give their frames. -/
theorem exists_sentFrames {state : State} (reachable : State.Reachable Buffer width state) (messages : List Outgoing)
    (room : ∀ index < messages.length, 10000 + (state.constructed + index) < 0xFFFFFFFD) :
    ∃ sent tasks, State.sendAll width state (messages.map Outgoing.request) = some sent ∧
      SentFrames state sent messages tasks (framesFrom state.constructed messages) := by
  obtain ⟨owned, numbered⟩ := reachable.owned
  have roomy (index : Nat) (inside : index < messages.length) : state.ledger.constructed + index < 2 ^ 32 := by
    have below := room index inside
    change state.constructed + index < 2 ^ 32
    omega
  obtain ⟨⟨tasks, started, ids⟩, calls, others, entries⟩ :=
    Ledger.sentAll_outgoing width messages state.ledger numbered roomy
  obtain ⟨sent, sentAll, sentOwned, sentLedger⟩ := owned.sendAll_outgoing width messages
  rw [← sentLedger] at started calls others entries
  exact ⟨sent, tasks, sentAll, sentOwned, started, ids, calls, others,
    entries, framesFrom_nodup state.ledger.constructed messages roomy, fun _ member => fresh_of_mem_framesFrom room member⟩

namespace SentFrames

variable {width} {state sent : State} {messages : List Outgoing} {tasks : List Task} {frames order : List Frame}
  (sentFrames : SentFrames state sent messages tasks frames)
include sentFrames

theorem exists_awaits : ∀ frame ∈ frames, ∃ message, sent.ledger.Awaits frame message :=
  ((List.forall₂_and_left _ _).mp
    (sentFrames.awaits.imp fun _ message awaits => ⟨⟨message, awaits⟩, awaits⟩)).1

/-- The request handler and the packer give the frames as packets. -/
theorem packets (cmdid : UInt32) :
    ∃ packets : List Buffer, tasks.mapM (outgoingPacket width cmdid sent) = some packets ∧
      packets.map content = frames.map Frame.bytes := by
  refine outgoingPackets_frames width cmdid sentFrames.owned frames tasks sentFrames.ids ?_
  intro frame member
  obtain ⟨message, awaits⟩ := sentFrames.exists_awaits frame member
  obtain ⟨entry, found, framed, _⟩ := awaits.entry
  exact ⟨(sentFrames.fresh frame member).1, entry, found, framed⟩

/-- Before its answers arrive the state settles all frames in any order. -/
theorem settling (same : order.Perm frames) :
    Settling (order.foldl Ledger.settle sent.ledger) (some sent) order := by
  refine ⟨sent, rfl, sentFrames.owned, ((same.map Frame.messageId).nodup_iff).mpr sentFrames.distinct, ?_, rfl⟩
  intro frame member
  obtain ⟨message, awaits⟩ := sentFrames.exists_awaits frame (same.mem_iff.mp member)
  rw [awaits.listening]
  nofun

/-- After all answers every listener heard its own message, and the store is as it was before. -/
theorem settled (owned : Owned state []) (numbered : state.ledger.Numbered) (same : order.Perm frames) {final : State}
    (finalOwned : Owned final []) (reached : final.ledger = order.foldl Ledger.settle sent.ledger) :
    List.Forall₂ (fun task message => callsFor final.calls task.taskid =
        [(message.listener, .onResponse message.body), (message.listener, .onSuccess)]) tasks messages ∧
      final.taskId2TaskCtx = state.taskId2TaskCtx ∧ final.entry = state.entry := by
  have distinct : (order.map Frame.messageId).Nodup := ((same.map Frame.messageId).nodup_iff).mpr sentFrames.distinct
  have store : final.entry = state.entry := by
    funext taskid
    have settled := tasks_settle_all numbered distinct same (fun frame member => (sentFrames.fresh frame member).2)
      sentFrames.others taskid
    rw [← reached] at settled
    exact settled
  have notified : List.Forall₂ (fun taskid (message : Outgoing) => callsFor final.ledger.calls taskid =
      [(message.listener, .onResponse message.body), (message.listener, .onSuccess)])
      (frames.map Frame.messageId) messages := by
    apply List.forall₂_map_left_iff.mpr
    apply ((List.forall₂_and_left _ _).mpr ⟨fun _ member => member, sentFrames.awaits⟩).imp
    intro frame message paired
    rw [reached]
    exact callsFor_settle_all numbered distinct sentFrames.calls (same.mem_iff.mpr paired.1)
      (sentFrames.fresh frame paired.1).2 paired.2
  refine ⟨?_, ?_, store⟩
  · rw [← sentFrames.ids] at notified
    exact List.forall₂_map_left_iff.mp notified
  · funext taskid
    have keys := finalOwned.context_of_entry taskid
    rw [store, owned.context_of_entry taskid] at keys
    exact keys.symm

end SentFrames

/-- The client's bytes reach the server on this connection in reads shorter than a block, every send takes all that it
is given, and in the end the connection is open and has nothing left to give back. -/
structure Echoed (listening fd : Int) (turns : List (List Ready)) (bytes : List UInt8) : Prop where
  guarded : PartialRun.Guarded SocketsListener.Waited SocketsListener.turn (SocketsListener.initial listening) turns
  short : ∀ e ∈ turns.flatten, ∀ read, e.recv = some read → read.length < 1000
  complete : PartialRun.Guarded (SocketsListener.Completes listening) SocketsListener.dispatch
    (SocketsListener.initial listening) turns.flatten
  idle : ∀ server, (SocketsListener.initial listening).run turns = some server →
    ∃ connection, server.connections listening fd = some connection ∧ connection.phase = .reading
  received : ∀ server, (SocketsListener.initial listening).run turns = some server → server.received fd = bytes

/-- The run of such a server is defined and gives all bytes back. -/
theorem Echoed.exists_server {listening fd : Int} {turns : List (List Ready)} {bytes : List UInt8}
    (echoed : Echoed listening fd turns bytes) :
    ∃ server, (SocketsListener.initial listening).run turns = some server ∧ server.sent fd = bytes := by
  obtain ⟨server, ran⟩ := SocketsListener.exists_final echoed.guarded echoed.short
  obtain ⟨connection, shown, reading⟩ := echoed.idle server ran
  obtain ⟨sent, received⟩ := SocketsListener.history_of_connection shown
  have own := SocketsListener.own_run echoed.guarded ran fd
  rw [shown] at own
  have whole := (Echo.exact_of_run
    (SocketsListener.own_guarded echoed.guarded ran echoed.complete fd) own).whole (by rw [reading]; nofun)
  rw [Echo.Connection.pending_of_reading reading, List.append_nil, sent, received, echoed.received server ran] at whole
  exact ⟨server, ran, whole⟩

/-- The wrapper sends messages to the echo server, whose run is defined, and reads its answers in any harmless pieces.
Then every message comes back to its own listener, in whatever order the packets were sent, and the store is as it was
before. -/
theorem echoRoundTrip (cmdid : UInt32) (state : State) (reachable : State.Reachable Buffer width state)
    (messages : List Outgoing)
    (room : ∀ index < messages.length, 10000 + (state.constructed + index) < 0xFFFFFFFD) :
    ∃ (sent : State) (tasks : List Task) (packets : List Buffer),
      State.sendAll width state (messages.map Outgoing.request) = some sent ∧
      sent.started = state.started ++ tasks ∧
      tasks.mapM (outgoingPacket width cmdid sent) = some packets ∧
      packets.map content = (framesFrom state.constructed messages).map Frame.bytes ∧
      ∀ (listening fd : Int) (turns : List (List Ready)) (order : List Frame),
        order.Perm (framesFrom state.constructed messages) → Echoed listening fd turns (framesBytes order) →
        ∃ server, (SocketsListener.initial listening).run turns = some server ∧
          ∀ (packed : Buffer) (reads : List (List UInt8)), content packed = [] → reads.flatten = server.sent fd →
            (framesBytes order).length < 2 ^ 31 → CutsHarmless width packed order reads →
            let outcome := receiveAll nonEmpty (unpackVerdict width) (deliver width) (some sent) packed reads
            (outcome.stop ≠ .reject ∧ outcome.stop ≠ .stuck) ∧ content outcome.rest = [] ∧
              ∃ final, outcome.state = some final ∧
                List.Forall₂ (fun task message => callsFor final.calls task.taskid =
                  [(message.listener, .onResponse message.body), (message.listener, .onSuccess)]) tasks messages ∧
                final.taskId2TaskCtx = state.taskId2TaskCtx ∧ final.entry = state.entry := by
  obtain ⟨owned, numbered⟩ := reachable.owned
  obtain ⟨sent, tasks, sentAll, sentFrames⟩ := exists_sentFrames width reachable messages room
  obtain ⟨packets, packing, contents⟩ : ∃ packets : List Buffer, _ ∧ _ := sentFrames.packets cmdid
  refine ⟨sent, tasks, packets, sentAll, sentFrames.started, packing, contents, ?_⟩
  intro listening fd turns order same echoed
  obtain ⟨server, ran, gave⟩ := echoed.exists_server
  refine ⟨server, ran, ?_⟩
  intro packed reads bare arrives short harmless outcome
  have cut : content packed ++ reads.flatten = framesBytes order := by
    rw [bare, List.nil_append, arrives, gave]
  have settled : order = [] ∨ ∃ frame later, order = frame :: later ∧ length packed < frame.size := by
    cases order with
    | nil => exact Or.inl rfl
    | cons frame later =>
        refine Or.inr ⟨frame, later, rfl, ?_⟩
        rw [(AutoBuffer.content_eq_nil_iff packed).mp bare, Frame.size]
        omega
  obtain ⟨open_, rest, final, reached, finalOwned, _, _, ledger⟩ := receiveAll_handles width (deliver_handles width _)
    reads order packed (some sent) cut short harmless (sentFrames.settling same) settled
  exact ⟨open_, rest, final, reached, sentFrames.settled owned numbered same finalOwned ledger⟩

/-- A client sends thirteen bytes and takes them back. -/
def smallSession : List Ready :=
  [SocketsListener.accepts 3 5,
    SocketsListener.reads 5 [0xaf, 0xbe, 0xad, 0xde, 16, 39, 0, 0, 1, 0, 0, 0, 104],
    SocketsListener.writes 5 13]

/-- The server gets the thirteen bytes of a small frame and gives them back. -/
theorem exists_echoed :
    ∃ turns, Echoed 3 5 turns [0xaf, 0xbe, 0xad, 0xde, 16, 39, 0, 0, 1, 0, 0, 0, 104] := by
  have fits : PartialRun.Guarded (SocketsListener.Fits 3) (Echo.dispatch 3)
      ((SocketsListener.initial 3).connections 3) smallSession := by
    rw [SocketsListener.connections_initial]
    apply PartialRun.Guarded.cons (SocketsListener.fits_accepts (by decide) rfl) rfl
    apply PartialRun.Guarded.cons (SocketsListener.fits_reads rfl rfl (by decide)) rfl
    apply PartialRun.Guarded.cons (SocketsListener.fits_writes rfl rfl) rfl
    trivial
  have completes : PartialRun.Guarded SocketsListener.CompletesIn (Echo.dispatch 3)
      ((SocketsListener.initial 3).connections 3) smallSession := by
    rw [SocketsListener.connections_initial]
    apply PartialRun.Guarded.cons (fun _ unopened => by cases unopened) rfl
    apply PartialRun.Guarded.cons (SocketsListener.completesIn_of_connection rfl (by change (0 : Int) ≤ 0; decide)) rfl
    apply PartialRun.Guarded.cons (SocketsListener.completesIn_of_connection rfl (by change (13 : Int) ≤ 13; decide)) rfl
    trivial
  obtain ⟨guarded, server, ran, same⟩ := SocketsListener.Sound.initial.exists_run fits
    (by rw [SocketsListener.connections_initial]; rfl)
  have shown : server.connections 3 5 =
      some ⟨.reading, [0xaf, 0xbe, 0xad, 0xde, 16, 39, 0, 0, 1, 0, 0, 0, 104],
        [0xaf, 0xbe, 0xad, 0xde, 16, 39, 0, 0, 1, 0, 0, 0, 104]⟩ := by
    rw [same]
    rfl
  have complete := (SocketsListener.Sound.initial.guarded_dispatch guarded).reflect
    (fun _ _ holds reported => holds.dispatch_simulates reported) SocketsListener.Sound.initial completes
  refine ⟨_, guarded, ?_, complete, ?_, ?_⟩
  · intro e member read received
    have listed : e ∈ smallSession := by simpa using member
    rw [smallSession, List.mem_cons, List.mem_cons, List.mem_singleton] at listed
    obtain rfl | rfl | rfl := listed
    · cases received
    · obtain rfl := Option.some.inj received
      decide
    · cases received
  · intro other ran'
    obtain rfl := Option.some.inj (ran.symm.trans ran')
    exact ⟨_, shown, rfl⟩
  · intro other ran'
    obtain rfl := Option.some.inj (ran.symm.trans ran')
    exact (SocketsListener.history_of_connection shown).2.symm

/-- One message goes to the echo server and comes back to its listener. -/
theorem echoRoundTrip_single :
    ∃ (sent final : State) (turns : List (List Ready)) (server : SocketsListener) (task : Task),
      State.initial.sendAll .bits64 [⟨[104], 1, some 7⟩] = some sent ∧
      (SocketsListener.initial 3).run turns = some server ∧
      (receiveAll nonEmpty (unpackVerdict .bits64) (deliver .bits64) (some sent) (empty : ByteBuffer)
        [server.sent 5]).state = some final ∧
      callsFor final.calls task.taskid = [(7, .onResponse [104]), (7, .onSuccess)] ∧
      final.taskId2TaskCtx = fun _ => none := by
  obtain ⟨sent, _, _, sends, _, _, _, received⟩ := @echoRoundTrip ByteBuffer _ .bits64 55 State.initial
    ⟨[], rfl⟩ [⟨[104], 7, by decide⟩] (by decide)
  obtain ⟨turns, echoed⟩ := exists_echoed
  have framed : framesBytes [(⟨10000, [104], by decide⟩ : Frame)] =
      [0xaf, 0xbe, 0xad, 0xde, 16, 39, 0, 0, 1, 0, 0, 0, 104] := by decide
  rw [← framed] at echoed
  obtain ⟨server, ran, answered⟩ := received 3 5 turns [⟨10000, [104], by decide⟩] (List.Perm.refl _) echoed
  obtain ⟨server', ran', gave⟩ := echoed.exists_server
  obtain rfl := Option.some.inj (ran.symm.trans ran')
  obtain ⟨_, _, final, reached, heard, store, _⟩ := answered empty [server.sent 5] rfl (List.append_nil _)
    (by rw [framed]; decide) ⟨Or.inl (by rw [gave]; decide), trivial⟩
  cases heard with
  | cons own rest => exact ⟨sent, final, turns, server, _, sends, ran, reached, own, store⟩

end MarsWrapper
