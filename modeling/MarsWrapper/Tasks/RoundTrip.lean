import MarsWrapper.Model.ReceiveLoop
import MarsWrapper.Tasks.ListenerProtocol

namespace MarsWrapper

open Foundation Foundation.StreamLoop AutoBufferApi

section Loop

variable {Buffer : Type} [AutoBufferApi Buffer]

/-- Mars hands an accepted packet to the response handler and ends the task when the answer is zero. -/
def deliver (width : SizeT) (state : Option State) (_packed : Buffer) (out : Unpacked Buffer) : Option State := do
  let (code, state) ← (← state).buf2Resp width out.seq out.body some
  if code = 0 then
    let (_, state) ← state.onTaskEnd out.seq kEctOK 0 some
    return state
  else return state

/-- The request of a task goes through the request handler and the packer. -/
def outgoingPacket (width : SizeT) (cmdid : UInt32) (state : State) (task : Task) : Option Buffer := do
  let (done, outbuffer) ← state.req2Buf width task.taskid empty
  if done then return longlinkPack cmdid task.taskid outbuffer empty else none

end Loop

/-- The receive loop runs until it stops on the given buffer. -/
def receiveResponses {Buffer : Type} [AutoBuffer Buffer] (width : SizeT) (state : State) (packed : Buffer) :
    Outcome (Option State) Buffer :=
  drain nonEmpty (unpackVerdict width) (deliver width) (length packed) (some state) packed

namespace Ledger

/-- An answered frame notifies its listener twice and ends its task. -/
def settle (ledger : Ledger) (frame : Frame) : Ledger :=
  { ledger with
    calls := ledger.calls ++ ledger.notices frame.messageId (.onResponse frame.body) ++
      ledger.notices frame.messageId .onSuccess }.remove frame.messageId

theorem tasks_settle_self (ledger : Ledger) (frame : Frame) : (ledger.settle frame).tasks frame.messageId = none :=
  tasks_remove_self _

theorem tasks_settle_of_ne (ledger : Ledger) (frame : Frame) {taskid : UInt32} (different : taskid ≠ frame.messageId) :
    (ledger.settle frame).tasks taskid = ledger.tasks taskid := tasks_remove_of_ne _ different

theorem callsFor_settle (ledger : Ledger) (frame : Frame) (taskid : UInt32) :
    callsFor (ledger.settle frame).calls taskid = callsFor ledger.calls taskid ++
      if frame.messageId = taskid then hears (ledger.listenerOf taskid) [.onResponse frame.body, .onSuccess] else [] := by
  change callsFor (ledger.calls ++ ledger.notices frame.messageId _ ++ ledger.notices frame.messageId _) taskid = _
  rw [callsFor_append, callsFor_append, callsFor_notices, callsFor_notices, List.append_assoc]
  split
  · cases ledger.listenerOf taskid <;> rfl
  · rfl

/-- Frames with different ids settle exactly their own tasks. -/
theorem settle_all (frames : List Frame) (ledger : Ledger) (distinct : (frames.map Frame.messageId).Nodup) :
    (∀ taskid, (frames.foldl settle ledger).tasks taskid =
      if taskid ∈ frames.map Frame.messageId then none else ledger.tasks taskid) ∧
    (∀ taskid, taskid ∉ frames.map Frame.messageId →
      callsFor (frames.foldl settle ledger).calls taskid = callsFor ledger.calls taskid) ∧
    ∀ frame ∈ frames, callsFor (frames.foldl settle ledger).calls frame.messageId =
      callsFor ledger.calls frame.messageId ++
        hears (ledger.listenerOf frame.messageId) [.onResponse frame.body, .onSuccess] := by
  induction frames generalizing ledger with
  | nil => exact ⟨fun _ => rfl, fun _ _ => rfl, nofun⟩
  | cons first later ih =>
      rw [List.map_cons, List.nodup_cons] at distinct
      obtain ⟨absent, distinct⟩ := distinct
      obtain ⟨tasks, others, own⟩ := ih (ledger.settle first) distinct
      simp only [List.foldl_cons, List.map_cons, List.mem_cons]
      refine ⟨fun taskid => ?_, fun taskid outside => ?_, fun frame member => ?_⟩
      · rw [tasks]
        by_cases same : taskid = first.messageId
        · rw [same, if_neg absent, tasks_settle_self, if_pos (Or.inl rfl)]
        · rw [tasks_settle_of_ne _ _ same]
          simp only [same, false_or]
      · rw [not_or] at outside
        rw [others taskid outside.2, callsFor_settle, if_neg (Ne.symm outside.1), List.append_nil]
      · rcases member with rfl | rest
        · rw [others _ absent, callsFor_settle, if_pos rfl]
        · have different : frame.messageId ≠ first.messageId := fun same =>
            absent (same ▸ List.mem_map_of_mem rest)
          rw [own frame rest, callsFor_settle, if_neg (Ne.symm different), List.append_nil, listenerOf,
            tasks_settle_of_ne _ _ different, listenerOf]

end Ledger

section Deliver

variable {Buffer : Type} [AutoBuffer Buffer] (width : SizeT)

theorem callbackRefines_some : CallbackRefines some some := fun _ _ owned => owned.refines_self rfl

/-- The loop settles a frame of a listening task. -/
theorem deliver_frame {state : State} (owned : Owned state []) (frame : Frame) (later : List UInt8)
    (packed : Buffer) (out : Unpacked Buffer) (seq : out.seq = frame.messageId)
    (body : content out.body = frame.bytes ++ later) (short : length out.body < 2 ^ 31)
    (listening : state.ledger.listenerOf frame.messageId ≠ none) :
    ∃ next, deliver width (some state) packed out = some next ∧ Owned next [] ∧
      next.ledger = state.ledger.settle frame := by
  have long : length out.body = frame.size + later.length := by
    rw [← AutoBuffer.length_content, body, List.length_append, frame.length_bytes]
  have complete : CompleteFrame out.body := by
    refine ⟨?_, ?_, short⟩
    · rw [long, Frame.size]
      omega
    · rw [body, frame.declared, long, Frame.size]
      omega
  have data : frameData out.body = frame.body := by
    rw [frameData, body, frame.declared, Frame.bytes, drop_frameBytes, List.take_left]
  obtain ⟨listener, heard⟩ := Option.ne_none_iff_exists'.mp listening
  have responded := owned.buf2Resp_refines width callbackRefines_some frame.messageId out.body
  rw [Ledger.buf2Resp_valid width _ _ _ complete, heard] at responded
  obtain ⟨⟨code, answered⟩, responds, answeredOwned, same⟩ := responded.exists_result
  obtain ⟨rfl, answeredLedger⟩ := Prod.mk.inj same
  have ended := answeredOwned.onTaskEnd_refines callbackRefines_some frame.messageId kEctOK 0
  have still : answered.ledger.listenerOf frame.messageId = some listener := by
    rw [answeredLedger, Ledger.listenerOf, Ledger.tasks_opened]
    exact heard
  rw [Ledger.onTaskEnd_eq Buffer, still] at ended
  obtain ⟨⟨_, final⟩, ends, finalOwned, same⟩ := ended.exists_result
  obtain ⟨rfl, finalLedger⟩ := Prod.mk.inj same
  refine ⟨final, ?_, finalOwned, finalLedger.trans ?_⟩
  · simp only [deliver, Option.bind_eq_bind, Option.bind_some, seq, responds, if_true, ends]
    rfl
  · rw [answeredLedger, Ledger.opened, data]
    rfl

/-- The loop settles all frames of the buffer, whatever their order is. -/
theorem drain_frames (frames : List Frame) (distinct : (frames.map Frame.messageId).Nodup) {state : State}
    (owned : Owned state []) (packed : Buffer) (whole : content packed = framesBytes frames)
    (short : length packed < 2 ^ 31)
    (listening : ∀ frame ∈ frames, state.ledger.listenerOf frame.messageId ≠ none) (fuel : Nat)
    (enough : frames.length ≤ fuel) :
    ∃ final rest, drain nonEmpty (unpackVerdict width) (deliver width) fuel (some state) packed =
        ⟨some final, rest, .idle⟩ ∧
      content rest = [] ∧ Owned final [] ∧ final.ledger = frames.foldl Ledger.settle state.ledger := by
  induction frames generalizing state packed fuel with
  | nil =>
      have drained : drain nonEmpty (unpackVerdict width) (deliver width) fuel (some state) packed =
          ⟨some state, packed, .idle⟩ := drain_idle fuel _ packed ((nonEmpty_eq_false_iff packed).mpr whole)
      exact ⟨state, packed, drained, whole, owned, rfl⟩
  | cons frame later ih =>
      obtain ⟨fuel, rfl⟩ : ∃ rest, fuel = rest + 1 := ⟨fuel - 1, by rw [List.length_cons] at enough; omega⟩
      rw [List.map_cons, List.nodup_cons] at distinct
      rw [framesBytes_cons] at whole
      have open_ : nonEmpty packed = true := by
        rw [nonEmpty_iff, whole]
        exact List.append_ne_nil_of_left_ne_nil
          (List.ne_nil_of_length_pos (by rw [frame.length_bytes, Frame.size]; omega)) _
      have verdict := unpackVerdict_frame width packed frame _ whole
      have copied : content (writeCur (empty : Buffer) (content packed)) = frame.bytes ++ framesBytes later := by
        rw [AutoBuffer.content_writeCur_empty, whole]
      have copiedShort : length (writeCur (empty : Buffer) (content packed)) < 2 ^ 31 := by
        rwa [← AutoBuffer.length_content, AutoBuffer.content_writeCur_empty, AutoBuffer.length_content]
      obtain ⟨next, delivered, nextOwned, nextLedger⟩ := deliver_frame width owned frame (framesBytes later) packed
        ⟨0, frame.messageId, frame.size, writeCur empty (content packed)⟩ rfl copied copiedShort
        (listening frame List.mem_cons_self)
      have moved : content (move packed frame.size) = framesBytes later := by
        rw [AutoBuffer.content_move, whole, ← frame.length_bytes, List.drop_left]
      have movedShort : length (move packed frame.size) < 2 ^ 31 := by
        rw [← AutoBuffer.length_content, AutoBuffer.content_move, List.length_drop, AutoBuffer.length_content]
        omega
      obtain ⟨final, rest, drained, bare, finalOwned, finalLedger⟩ := ih distinct.2 nextOwned (move packed frame.size)
        moved movedShort (fun other member => by
          have different : other.messageId ≠ frame.messageId := fun same =>
            distinct.1 (same ▸ List.mem_map_of_mem member)
          rw [nextLedger, Ledger.listenerOf, Ledger.tasks_settle_of_ne _ _ different]
          exact listening other (List.mem_cons_of_mem _ member))
        fuel (by rw [List.length_cons] at enough; omega)
      refine ⟨final, rest, ?_, bare, finalOwned, ?_⟩
      · rw [drain_accept fuel (some state) packed open_ verdict, delivered]
        exact drained
      · rw [finalLedger, nextLedger, List.foldl_cons]

end Deliver

/-- The caller sends a body that fits the unpacker, with a listener. -/
structure Outgoing where
  body : List UInt8
  listener : Listener
  fits : 12 + body.length ≤ 2 ^ 20

namespace Outgoing

def request (message : Outgoing) : SendRequest :=
  ⟨message.body, UInt32.ofNat message.body.length, some message.listener⟩

/-- The message with this number is sent in this frame. -/
def frame (message : Outgoing) (number : Nat) : Frame := ⟨idOf number, message.body, message.fits⟩

theorem request_valid (message : Outgoing) : message.request.Valid := by
  have fits := message.fits
  refine ⟨?_, show message.body.length < 2 ^ 31 by omega⟩
  change (UInt32.ofNat message.body.length).toNat = message.body.length
  rw [UInt32.toNat_ofNat', Nat.mod_eq_of_lt (by omega)]

end Outgoing

/-- These are the frames of messages that are sent one after another. -/
def framesFrom (number : Nat) : List Outgoing → List Frame
  | [] => []
  | message :: later => message.frame number :: framesFrom (number + 1) later

theorem idOf_of_mem_framesFrom {number : Nat} {messages : List Outgoing} {frame : Frame}
    (member : frame ∈ framesFrom number messages) :
    ∃ index < messages.length, frame.messageId = idOf (number + index) := by
  induction messages generalizing number with
  | nil => cases member
  | cons message later ih =>
      rcases List.mem_cons.mp member with rfl | rest
      · exact ⟨0, by simp, rfl⟩
      · obtain ⟨index, inside, same⟩ := ih rest
        exact ⟨index + 1, by simpa using inside, by rw [same, Nat.add_right_comm, Nat.add_assoc]⟩

/-- An id does not come back among the following messages. -/
theorem idOf_not_mem_framesFrom (number : Nat) (messages : List Outgoing)
    (room : number + messages.length < 2 ^ 32) :
    idOf number ∉ (framesFrom (number + 1) messages).map Frame.messageId := by
  intro member
  obtain ⟨frame, member, same⟩ := List.mem_map.mp member
  obtain ⟨index, inside, own⟩ := idOf_of_mem_framesFrom member
  rw [own, idOf_eq_iff] at same
  omega

theorem framesFrom_nodup (number : Nat) (messages : List Outgoing)
    (room : ∀ index < messages.length, number + index < 2 ^ 32) :
    ((framesFrom number messages).map Frame.messageId).Nodup := by
  induction messages generalizing number with
  | nil => exact List.nodup_nil
  | cons message later ih =>
      have last := room later.length (by simp)
      rw [framesFrom, List.map_cons, List.nodup_cons]
      refine ⟨idOf_not_mem_framesFrom number later last, ih (number + 1) fun index inside => ?_⟩
      omega

/-- The ledger keeps the frame of a message for the listener of the message. -/
structure Ledger.Awaits (ledger : Ledger) (frame : Frame) (message : Outgoing) : Prop where
  entry : ∃ entry, ledger.tasks frame.messageId = some entry ∧
    entry.message = ImMessage.framed frame.messageId frame.body ∧ entry.respCallback = some message.listener
  body : frame.body = message.body

theorem Ledger.Awaits.listening {ledger : Ledger} {frame : Frame} {message : Outgoing}
    (awaits : ledger.Awaits frame message) : ledger.listenerOf frame.messageId = some message.listener := by
  obtain ⟨entry, found, _, callback⟩ := awaits.entry
  rw [listenerOf, found, Option.bind_some, callback]

/-- Each sent message starts its task and becomes the entry of its frame. -/
theorem Ledger.sentAll_outgoing (width : SizeT) (messages : List Outgoing) (ledger : Ledger)
    (numbered : ledger.Numbered) (room : ∀ index < messages.length, ledger.constructed + index < 2 ^ 32) :
    let frames := framesFrom ledger.constructed messages
    let sent := ledger.sentAll width (messages.map Outgoing.request)
    (∃ tasks, sent.started = ledger.started ++ tasks ∧ tasks.map Task.taskid = frames.map Frame.messageId) ∧
      sent.calls = ledger.calls ∧
      (∀ taskid, taskid ∉ frames.map Frame.messageId → sent.tasks taskid = ledger.tasks taskid) ∧
      List.Forall₂ sent.Awaits frames messages := by
  induction messages generalizing ledger with
  | nil => exact ⟨⟨[], (List.append_nil _).symm, rfl⟩, rfl, fun _ _ => rfl, .nil⟩
  | cons message later ih =>
      intro frames sent
      have last := room later.length (by simp)
      have middleNumbered := (numbered.sendMessage
        (sendMessage_valid width ledger message.request message.request_valid)).1
      obtain ⟨⟨tasks, started, ids⟩, calls, others, entries⟩ := ih (ledger.sent width message.request) middleNumbered
        fun index inside => by
          change ledger.constructed + 1 + index < 2 ^ 32
          omega
      have untouched : sent.tasks (idOf ledger.constructed) =
          (ledger.sent width message.request).tasks (idOf ledger.constructed) :=
        others _ (idOf_not_mem_framesFrom ledger.constructed later last)
      have own : (ledger.sent width message.request).tasks (idOf ledger.constructed) =
          some ⟨ledger.nextContext, ImMessage.framed (idOf ledger.constructed) message.body,
            UInt32.ofNat (width.wrap (message.request.size.toNat + MessageFormat.size)), some message.listener⟩ := by
        rw [← numbered.counter]
        exact tasks_store_self ..
      refine ⟨⟨messageTask ledger.messageId :: tasks, ?_, ?_⟩, calls, ?_, .cons ⟨⟨_, untouched.trans own, rfl, rfl⟩, rfl⟩ entries⟩
      · exact started.trans (List.append_assoc ..)
      · rw [List.map_cons, ids, numbered.counter]
        rfl
      · intro taskid outside
        rw [show frames = message.frame ledger.constructed :: framesFrom (ledger.constructed + 1) later from rfl,
          List.map_cons, List.mem_cons, not_or] at outside
        exact (others taskid outside.2).trans (tasks_store_of_ne _ _ _ _ (numbered.counter ▸ outside.1))

section RoundTrip

variable {Buffer : Type} [AutoBuffer Buffer] (width : SizeT)

/-- The stored messages give their own frames as packets. -/
theorem outgoingPackets_frames (cmdid : UInt32) {state : State} (owned : Owned state []) (frames : List Frame)
    (tasks : List Task) (same : tasks.map Task.taskid = frames.map Frame.messageId)
    (entries : ∀ frame ∈ frames, frame.messageId ≠ Task.kNoopTaskID ∧ ∃ entry,
      state.ledger.tasks frame.messageId = some entry ∧
        entry.message = ImMessage.framed frame.messageId frame.body) :
    ∃ packets : List Buffer, tasks.mapM (outgoingPacket width cmdid state) = some packets ∧
      packets.map content = frames.map Frame.bytes := by
  induction frames generalizing tasks with
  | nil =>
      obtain rfl := List.map_eq_nil_iff.mp same
      exact ⟨[], rfl, rfl⟩
  | cons frame later ih =>
      cases tasks with
      | nil => cases same
      | cons task rest =>
          rw [List.map_cons, List.map_cons, List.cons.injEq] at same
          obtain ⟨own, same⟩ := same
          obtain ⟨packets, packed, contents⟩ := ih rest same fun other member =>
            entries other (List.mem_cons_of_mem _ member)
          obtain ⟨message, entry, found, framed⟩ := entries frame List.mem_cons_self
          have fits := frame.fits
          have written : state.req2Buf width frame.messageId (empty : Buffer) =
              some (true, write empty frame.bytes) := by
            rw [owned.req2Buf_eq, Ledger.req2Buf, found]
            simp only [framed, buildEchatTcpMsg_frame width frame.messageId frame.body (by omega)]
            rfl
          have packet : outgoingPacket width cmdid state task =
              some (longlinkPack cmdid frame.messageId (write (empty : Buffer) frame.bytes) empty) := by
            simp only [outgoingPacket, own, written, Option.bind_eq_bind, Option.bind_some, if_true]
            rfl
          refine ⟨_ :: packets, by rw [List.mapM_cons, packet, packed]; rfl, ?_⟩
          rw [List.map_cons, List.map_cons, contents, content_longlinkPack cmdid _ _ message,
            AutoBuffer.content_write_empty]

/-- Every reachable store owns its messages and numbers its tasks. -/
theorem State.Reachable.owned {state : State} (reachable : State.Reachable Buffer width state) :
    Owned state [] ∧ state.ledger.Numbered := by
  obtain ⟨turns, ran⟩ := reachable
  have refined := Owned.initial.run_refines width turns
  refine ⟨refined.kept state ran, ?_⟩
  have abstractly := refined.view_eq
  rw [ran, Option.map_some] at abstractly
  exact Ledger.Numbered.initial.run abstractly.symm

theorem length_le_framesBytes (frames : List Frame) : frames.length ≤ (framesBytes frames).length := by
  induction frames with
  | nil => exact Nat.le_refl _
  | cons frame later ih =>
      rw [framesBytes_cons, List.length_cons, List.length_append, frame.length_bytes, Frame.size]
      omega

/-- A number below the reserved ids is not the heartbeat id. -/
theorem idOf_ne_noop {number : Nat} (room : 10000 + number < 0xFFFFFFFD) : idOf number ≠ Task.kNoopTaskID := by
  intro same
  have value := congrArg UInt32.toNat same
  rw [idOf, UInt32.toNat_ofNat', Nat.mod_eq_of_lt (by omega)] at value
  change 10000 + number = 0xFFFFFFFF at value
  omega

/-- The next messages get ids that no task uses and that are not the heartbeat's. -/
theorem fresh_of_mem_framesFrom {ledger : Ledger} {messages : List Outgoing}
    (room : ∀ index < messages.length, 10000 + (ledger.constructed + index) < 0xFFFFFFFD) {frame : Frame}
    (member : frame ∈ framesFrom ledger.constructed messages) :
    frame.messageId ≠ Task.kNoopTaskID ∧ ¬ledger.Taken frame.messageId := by
  obtain ⟨index, inside, own⟩ := idOf_of_mem_framesFrom member
  have small := room index inside
  rw [own]
  refine ⟨idOf_ne_noop small, ?_⟩
  rintro ⟨number, below, same⟩
  rw [idOf_eq_iff] at same
  omega

/-- All sends of outgoing messages succeed and do what the ledger says. -/
theorem Owned.sendAll_outgoing {state : State} (owned : Owned state []) (messages : List Outgoing) :
    ∃ sent, State.sendAll width state (messages.map Outgoing.request) = some sent ∧ Owned sent [] ∧
      sent.ledger = state.ledger.sentAll width (messages.map Outgoing.request) := by
  have valid : ∀ request ∈ messages.map Outgoing.request, request.Valid := by
    intro request member
    obtain ⟨message, _, rfl⟩ := List.mem_map.mp member
    exact message.request_valid
  have sends := owned.sendAll_refines width (messages.map Outgoing.request)
  rw [Ledger.sendAll_valid width state.ledger _ valid] at sends
  exact sends.exists_result

section Settled

variable {ledger sent : Ledger} (numbered : ledger.Numbered) {frames order : List Frame}
  (distinct : (order.map Frame.messageId).Nodup)
include numbered distinct

/-- After the answers to all new frames, in any order, the ledger has its old entries. -/
theorem tasks_settle_all (same : order.Perm frames) (fresh : ∀ frame ∈ frames, ¬ledger.Taken frame.messageId)
    (others : ∀ taskid, taskid ∉ frames.map Frame.messageId → sent.tasks taskid = ledger.tasks taskid)
    (taskid : UInt32) : (order.foldl Ledger.settle sent).tasks taskid = ledger.tasks taskid := by
  rw [(Ledger.settle_all order sent distinct).1]
  by_cases inside : taskid ∈ order.map Frame.messageId
  · rw [if_pos inside]
    obtain ⟨frame, member, rfl⟩ := List.mem_map.mp inside
    cases found : ledger.tasks frame.messageId with
    | none => rfl
    | some entry => exact absurd (numbered.taken_of_entry found) (fresh frame (same.mem_iff.mp member))
  · rw [if_neg inside]
    apply others
    intro member
    exact inside ((same.map Frame.messageId).mem_iff.mpr member)

/-- The listener of a new frame hears the answer and the success, and nothing before them. -/
theorem callsFor_settle_all (calls : sent.calls = ledger.calls) {frame : Frame} (member : frame ∈ order)
    (fresh : ¬ledger.Taken frame.messageId) {message : Outgoing} (awaits : sent.Awaits frame message) :
    callsFor (order.foldl Ledger.settle sent).calls frame.messageId =
      [(message.listener, .onResponse message.body), (message.listener, .onSuccess)] := by
  have unheard : callsFor sent.calls frame.messageId = [] := by
    rw [calls]
    apply callsFor_eq_nil
    intro call called own
    exact fresh (own ▸ numbered.taken_of_call called)
  rw [(Ledger.settle_all order sent distinct).2.2 frame member, unheard, awaits.listening, awaits.body]
  rfl

end Settled

/-- Every message comes back to its own listener, in whatever order the echoes arrive. -/
theorem roundTrip (cmdid : UInt32) (state : State) (reachable : State.Reachable Buffer width state)
    (messages : List Outgoing)
    (room : ∀ index < messages.length, 10000 + (state.constructed + index) < 0xFFFFFFFD) :
    ∃ (sent : State) (tasks : List Task) (packets : List Buffer),
      State.sendAll width state (messages.map Outgoing.request) = some sent ∧
      sent.started = state.started ++ tasks ∧
      tasks.mapM (outgoingPacket width cmdid sent) = some packets ∧
      ∀ (packed : Buffer) (echoed : List (List UInt8)), echoed.Perm (packets.map content) →
        content packed = echoed.flatten → length packed < 2 ^ 31 →
        ∃ final rest, receiveResponses width sent packed = ⟨some final, rest, .idle⟩ ∧ content rest = [] ∧
          List.Forall₂ (fun task message => callsFor final.calls task.taskid =
            [(message.listener, .onResponse message.body), (message.listener, .onSuccess)]) tasks messages ∧
          final.taskId2TaskCtx = state.taskId2TaskCtx ∧ final.entry = state.entry := by
  obtain ⟨owned, numbered⟩ := reachable.owned
  have roomy (index : Nat) (inside : index < messages.length) : state.ledger.constructed + index < 2 ^ 32 := by
    have below := room index inside
    change state.constructed + index < 2 ^ 32
    omega
  have fresh (frame : Frame) (member : frame ∈ framesFrom state.ledger.constructed messages) :
      frame.messageId ≠ Task.kNoopTaskID ∧ ¬state.ledger.Taken frame.messageId := fresh_of_mem_framesFrom room member
  obtain ⟨⟨tasks, started, ids⟩, calls, others, entries⟩ :=
    Ledger.sentAll_outgoing width messages state.ledger numbered roomy
  obtain ⟨sent, sentAll, sentOwned, sentLedger⟩ := owned.sendAll_outgoing width messages
  rw [← sentLedger] at started calls others entries
  have distinct := framesFrom_nodup state.ledger.constructed messages roomy
  generalize framesFrom state.ledger.constructed messages = frames at fresh ids others entries distinct
  have awaited : ∀ frame ∈ frames, ∃ message, sent.ledger.Awaits frame message :=
    ((List.forall₂_and_left _ _).mp (entries.imp fun _ message awaits => ⟨⟨message, awaits⟩, awaits⟩)).1
  obtain ⟨packets, packing, contents⟩ : ∃ packets : List Buffer, _ ∧ _ :=
    outgoingPackets_frames width cmdid sentOwned frames tasks ids fun frame member => by
      obtain ⟨message, awaits⟩ := awaited frame member
      obtain ⟨entry, found, framed, _⟩ := awaits.entry
      exact ⟨(fresh frame member).1, entry, found, framed⟩
  refine ⟨sent, tasks, packets, sentAll, started, packing, ?_⟩
  intro packed echoed permuted whole short
  rw [contents] at permuted
  obtain ⟨order, rfl, same⟩ :=
    (congrFun (congrFun (List.eq_map_comp_perm Frame.bytes) echoed) frames).mpr permuted
  have orderDistinct : (order.map Frame.messageId).Nodup := ((same.map Frame.messageId).nodup_iff).mpr distinct
  have listening (frame : Frame) (member : frame ∈ order) : sent.ledger.listenerOf frame.messageId ≠ none := by
    obtain ⟨message, awaits⟩ := awaited frame (same.mem_iff.mp member)
    simp [awaits.listening]
  have enough : order.length ≤ length packed := by
    rw [← AutoBuffer.length_content, whole]
    exact length_le_framesBytes order
  obtain ⟨final, rest, drained, bare, finalOwned, finalLedger⟩ :=
    drain_frames width order orderDistinct sentOwned packed whole short listening (length packed) enough
  have store : final.entry = state.entry := by
    funext taskid
    have settled := tasks_settle_all numbered orderDistinct same (fun frame member => (fresh frame member).2) others taskid
    rw [← finalLedger] at settled
    exact settled
  have notified : List.Forall₂ (fun taskid (message : Outgoing) => callsFor final.ledger.calls taskid =
      [(message.listener, .onResponse message.body), (message.listener, .onSuccess)])
      (frames.map Frame.messageId) messages := by
    apply List.forall₂_map_left_iff.mpr
    apply ((List.forall₂_and_left _ _).mpr ⟨fun _ member => member, entries⟩).imp
    intro frame message paired
    rw [finalLedger]
    exact callsFor_settle_all numbered orderDistinct calls (same.mem_iff.mpr paired.1) (fresh frame paired.1).2 paired.2
  refine ⟨final, rest, drained, bare, ?_, ?_, store⟩
  · rw [← ids] at notified
    exact List.forall₂_map_left_iff.mp notified
  · funext taskid
    have keys := finalOwned.context_of_entry taskid
    rw [store, owned.context_of_entry taskid] at keys
    exact keys.symm

end RoundTrip

/-- Two messages come back in the opposite order. -/
theorem roundTrip_reversed :
    ∃ (sent : State) (packets : List ByteBuffer),
      State.initial.sendAll .bits64 [⟨[104], 1, some 7⟩, ⟨[], 0, some 8⟩] = some sent ∧
      ∀ packed : ByteBuffer, content packed = (packets.map content).reverse.flatten → length packed < 2 ^ 31 →
        ∃ final rest, receiveResponses .bits64 sent packed = ⟨some final, rest, .idle⟩ ∧ content rest = [] ∧
          final.taskId2TaskCtx = fun _ => none := by
  obtain ⟨sent, tasks, packets, sends, _, _, received⟩ := @roundTrip ByteBuffer _ .bits64 55 State.initial ⟨[], rfl⟩
    [⟨[104], 7, by decide⟩, ⟨[], 8, by decide⟩] (by decide)
  refine ⟨sent, packets, sends, fun packed whole short => ?_⟩
  obtain ⟨final, rest, drained, bare, _, store, _⟩ := received packed _ (List.reverse_perm _) whole short
  exact ⟨final, rest, drained, bare, store⟩

end MarsWrapper
