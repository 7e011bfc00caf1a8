import MarsWrapper.Model.ReceiveLoop

namespace MarsWrapper

open Foundation Foundation.StreamLoop AutoBufferApi

/-- Both kinds of packet share one stream. The heartbeat has the bytes that `longlinkPack` emits. -/
inductive Packet where
  | heartbeat
  | message (frame : Frame)

namespace Packet

def bytes : Packet → List UInt8
  | .heartbeat => heartBeatPackage
  | .message frame => frame.bytes

def report : Packet → Report
  | .heartbeat => (Task.kNoopTaskID, 4)
  | .message frame => frame.report

end Packet

def packetsBytes (packets : List Packet) : List UInt8 := (packets.map Packet.bytes).flatten

/-- The loop reports each packet in order, knows its heartbeats, and keeps no byte. -/
def DecodesPackets {Buffer : Type} [AutoBuffer Buffer] (width : SizeT) (packed : Buffer)
    (reads : List (List Packet)) : Prop :=
  let outcome := receiveReports width packed (reads.map packetsBytes)
  outcome.state = reads.flatten.map Packet.report ∧ content outcome.rest = [] ∧
    ∀ packet ∈ reads.flatten, packet = .heartbeat → longlinkNoopIsresp packet.report.1 = true

/-- No packet follows a heartbeat in the same read. -/
def HeartbeatsLast (reads : List (List Packet)) : Prop := ∀ read ∈ reads, Packet.heartbeat ∉ read.dropLast

@[simp] theorem packetsBytes_nil : packetsBytes [] = [] := rfl

@[simp] theorem packetsBytes_cons (packet : Packet) (later : List Packet) :
    packetsBytes (packet :: later) = packet.bytes ++ packetsBytes later := rfl

theorem packetsBytes_append (packets later : List Packet) :
    packetsBytes (packets ++ later) = packetsBytes packets ++ packetsBytes later := by
  simp [packetsBytes]

theorem packetsBytes_messages (frames : List Frame) :
    packetsBytes (frames.map Packet.message) = framesBytes frames := by
  simp [packetsBytes, framesBytes, Packet.bytes, Function.comp_def]

theorem length_le_packetsBytes (packets : List Packet) : packets.length ≤ (packetsBytes packets).length := by
  induction packets with
  | nil => exact Nat.le_refl 0
  | cons packet later ih =>
      have positive : 1 ≤ packet.bytes.length := by
        cases packet with
        | heartbeat => decide
        | message frame =>
            change 1 ≤ frame.bytes.length
            rw [frame.length_bytes, Frame.size]
            omega
      rw [packetsBytes_cons, List.length_cons, List.length_append]
      omega

/-- A read is a run of messages, and then nothing, one last heartbeat, or a heartbeat before more packets. -/
theorem packets_split (packets : List Packet) :
    ∃ frames : List Frame, packets = frames.map .message ∨ packets = frames.map .message ++ [.heartbeat] ∨
      ∃ packet later, packets = frames.map .message ++ .heartbeat :: packet :: later := by
  induction packets with
  | nil => exact ⟨[], Or.inl rfl⟩
  | cons packet later ih =>
      cases packet with
      | heartbeat =>
          cases later with
          | nil => exact ⟨[], Or.inr (Or.inl rfl)⟩
          | cons packet later => exact ⟨[], Or.inr (Or.inr ⟨packet, later, rfl⟩)⟩
      | message frame =>
          obtain ⟨frames, rfl | rfl | ⟨packet, rest, rfl⟩⟩ := ih
          · exact ⟨frame :: frames, Or.inl rfl⟩
          · exact ⟨frame :: frames, Or.inr (Or.inl rfl)⟩
          · exact ⟨frame :: frames, Or.inr (Or.inr ⟨packet, rest, rfl⟩)⟩

theorem heartbeat_not_mem_messages (frames : List Frame) : Packet.heartbeat ∉ frames.map Packet.message := by
  simp

variable {Buffer : Type} [AutoBuffer Buffer] (width : SizeT)

/-- A read whose heartbeat comes last is reported whole. -/
theorem drain_heartbeatLast (read : List Packet) (last : Packet.heartbeat ∉ read.dropLast) (packed : Buffer)
    (whole : content packed = packetsBytes read) (reports : List Report) :
    ∃ rest : Buffer, drain nonEmpty (unpackVerdict width) report (length packed) reports packed =
        ⟨reports ++ read.map Packet.report, rest, .idle⟩ ∧ content rest = [] := by
  have long := length_le_packetsBytes read
  rw [← whole, AutoBuffer.length_content] at long
  obtain ⟨frames, rfl | rfl | ⟨packet, later, rfl⟩⟩ := packets_split read
  · rw [packetsBytes_messages, ← List.append_nil (framesBytes frames)] at whole
    obtain ⟨packets, rest, consumed, reported, count, remains⟩ := consumes_frames width frames packed [] whole
    obtain ⟨fuel, budget⟩ : ∃ fuel, length packed = packets.length + fuel :=
      ⟨length packed - packets.length, by rw [List.length_map] at long; omega⟩
    refine ⟨rest, ?_, remains⟩
    rw [budget, drain_consumes consumed, reported, drain_idle _ _ _ ((nonEmpty_eq_false_iff rest).mpr remains),
      List.map_map]
    rfl
  · rw [packetsBytes_append, packetsBytes_messages] at whole
    obtain ⟨packets, rest, consumed, reported, count, remains⟩ := consumes_frames width frames packed _ whole
    obtain ⟨fuel, budget⟩ : ∃ fuel, length packed = packets.length + (fuel + 1) :=
      ⟨length packed - packets.length - 1, by
        rw [List.length_append, List.length_map, List.length_singleton] at long
        omega⟩
    have four : length rest = 4 := by
      rw [← AutoBuffer.length_content, remains]
      decide
    have open_ : nonEmpty rest = true := bne_iff_ne.mpr (by omega)
    have drained : content (move rest 4) = [] := by
      rw [AutoBuffer.content_move, List.drop_eq_nil_of_le (by rw [AutoBuffer.length_content]; omega)]
    refine ⟨move rest 4, ?_, drained⟩
    rw [budget, drain_consumes consumed, reported, drain_accept _ _ _ open_ (unpackVerdict_heartbeat width rest four)]
    apply (drain_idle _ _ _ ((nonEmpty_eq_false_iff _).mpr drained)).trans
    rw [report, List.map_append, List.map_map, List.append_assoc]
    rfl
  · exact absurd (by rw [List.dropLast_append_of_ne_nil (by simp)]; simp) last

/-- The reports are wrong when the next one, if there is one, has another sequence number. -/
def Derailed (reports : List Report) (seq : UInt32) (result : List Report) : Prop :=
  result = reports ∨ ∃ size, reports ++ [(seq, size)] <+: result

/-- With other bytes behind it, a heartbeat at the head is read as the start of a message. -/
theorem drain_derailed (fuel : Nat) (packed : Buffer) (reports : List Report) (words : 8 ≤ length packed) :
    ((drain nonEmpty (unpackVerdict width) report fuel reports packed).state = reports ∧
      (drain nonEmpty (unpackVerdict width) report fuel reports packed).rest = packed) ∨
    ∃ size, reports ++ [(wordAt (content packed) 4, size)] <+:
      (drain nonEmpty (unpackVerdict width) report fuel reports packed).state := by
  cases fuel with
  | zero => exact Or.inl ⟨rfl, rfl⟩
  | succ fuel =>
      have open_ : nonEmpty packed = true := bne_iff_ne.mpr (by omega)
      cases verdict : unpackVerdict width packed with
      | wait => exact Or.inl (by rw [drain_wait _ _ _ open_ verdict]; exact ⟨rfl, rfl⟩)
      | reject => exact Or.inl (by rw [drain_reject _ _ _ open_ verdict]; exact ⟨rfl, rfl⟩)
      | accept size out =>
          refine Or.inr ⟨out.packageLen, ?_⟩
          rw [drain_accept _ _ _ open_ verdict, ← seq_of_accept width packed words verdict]
          exact drain_extends List.prefix_refl (fun _ _ _ => List.IsPrefix.trans) report_extends _ _ _

/-- One derailed read stays derailed when the next reads from its buffer do. -/
theorem receiveAll_cons_derailed (read : List UInt8) (reads : List (List UInt8)) (packed rest : Buffer)
    (before reports : List Report) (fuel : Nat) (words : 8 ≤ length rest)
    (drained : drain nonEmpty (unpackVerdict width) report (StreamBuffer.bytes (receive packed read)).length before
      (receive packed read) = drain nonEmpty (unpackVerdict width) report fuel reports rest)
    (later : Derailed reports (wordAt (content rest) 4)
      (receiveAll nonEmpty (unpackVerdict width) report reports rest reads).state) :
    Derailed reports (wordAt (content rest) 4)
      (receiveAll nonEmpty (unpackVerdict width) report before packed (read :: reads)).state := by
  obtain ⟨kept, stayed⟩ | ⟨size, grown⟩ := drain_derailed width fuel rest reports words
  · obtain ended | continued := receiveAll_cons read reads before packed drained
    · exact Or.inl (by rw [ended, kept])
    · rw [continued, kept, stayed]
      exact later
  · exact Or.inr ⟨size, grown.trans (receiveAll_extends_drain List.prefix_refl (fun _ _ _ => List.IsPrefix.trans)
      report_extends read reads before packed drained)⟩

/-- No later read repairs a derailed buffer. -/
theorem receiveAll_derailed (reads : List (List UInt8)) (packed : Buffer) (reports : List Report)
    (words : 8 ≤ length packed) :
    Derailed reports (wordAt (content packed) 4)
      (receiveAll nonEmpty (unpackVerdict width) report reports packed reads).state := by
  induction reads generalizing packed with
  | nil => exact Or.inl rfl
  | cons read reads ih =>
      have longer : 8 ≤ length (receive packed read) := by
        rw [← AutoBuffer.length_content, AutoBuffer.content_receive, List.length_append, AutoBuffer.length_content]
        omega
      have field : wordAt (content (receive packed read)) 4 = wordAt (content packed) 4 := by
        rw [AutoBuffer.content_receive, wordAt, wordAt,
          List.drop_append_of_le_length (by rw [AutoBuffer.length_content]; omega),
          List.take_append_of_le_length (by rw [List.length_drop, AutoBuffer.length_content]; omega)]
      rw [← field]
      exact receiveAll_cons_derailed width read reads packed _ reports reports _ longer rfl
        (ih (receive packed read) longer)

/-- The first word behind a heartbeat is never the sequence number of a heartbeat. -/
theorem wordAt_behind_heartbeat (packet : Packet) (later : List UInt8) :
    8 ≤ (heartBeatPackage ++ (packet.bytes ++ later)).length ∧
      wordAt (heartBeatPackage ++ (packet.bytes ++ later)) 4 ≠ Task.kNoopTaskID := by
  have behind : wordAt (heartBeatPackage ++ (packet.bytes ++ later)) 4 = wordAt (packet.bytes ++ later) 0 := by
    rw [wordAt, wordAt, show 4 = heartBeatPackage.length from rfl, List.drop_left, List.drop_zero]
  have four : heartBeatPackage.length = 4 := rfl
  rw [behind, List.length_append, List.length_append, four]
  cases packet with
  | heartbeat =>
      have first : (heartBeatPackage ++ later).take 4 = heartBeatPackage := by
        rw [← four, List.take_left]
      refine ⟨by rw [Packet.bytes, four]; omega, ?_⟩
      rw [wordAt, Packet.bytes, List.drop_zero, first]
      decide
  | message frame =>
      refine ⟨by rw [Packet.bytes, frame.length_bytes, Frame.size]; omega, ?_⟩
      rw [Packet.bytes, Frame.bytes, wordAt_magicNum]
      decide

/-- A read with a heartbeat before another packet derails the loop. -/
theorem receiveAll_early_heartbeat (frames : List Frame) (packet : Packet) (later : List Packet)
    (reads : List (List UInt8)) (packed : Buffer) (bare : content packed = []) (reports : List Report) :
    ∃ seq, seq ≠ Task.kNoopTaskID ∧ Derailed (reports ++ frames.map Frame.report) seq
      (receiveAll nonEmpty (unpackVerdict width) report reports packed
        (packetsBytes (frames.map .message ++ .heartbeat :: packet :: later) :: reads)).state := by
  have received : content (receive packed (packetsBytes (frames.map .message ++ .heartbeat :: packet :: later))) =
      framesBytes frames ++ (heartBeatPackage ++ (packet.bytes ++ packetsBytes later)) := by
    rw [AutoBuffer.content_receive, bare, List.nil_append, packetsBytes_append, packetsBytes_messages]
    rfl
  obtain ⟨packets, rest, consumed, reported, count, remains⟩ := consumes_frames width frames _ _ received
  obtain ⟨words, other⟩ := wordAt_behind_heartbeat packet (packetsBytes later)
  rw [← remains] at words other
  rw [AutoBuffer.length_content] at words
  refine ⟨wordAt (content rest) 4, other, ?_⟩
  obtain ⟨fuel, budget⟩ : ∃ fuel, (StreamBuffer.bytes (receive packed
      (packetsBytes (frames.map .message ++ .heartbeat :: packet :: later)))).length = packets.length + fuel := by
    refine ⟨_, (Nat.add_sub_of_le ?_).symm⟩
    have long := length_le_packetsBytes (frames.map .message ++ .heartbeat :: packet :: later)
    rw [AutoBuffer.bytes_eq_content, AutoBuffer.content_receive, bare, List.nil_append, count]
    rw [List.length_append, List.length_map] at long
    omega
  refine receiveAll_cons_derailed width _ reads packed rest reports _ fuel words ?_
    (receiveAll_derailed width reads rest _ words)
  rw [budget, drain_consumes consumed, reported]

/-- Derailed reports are not the reports of a heartbeat and more packets. -/
theorem Derailed.ne {reports result later : List Report} {seq : UInt32} (derailed : Derailed reports seq result)
    (other : seq ≠ Task.kNoopTaskID) : result ≠ reports ++ Packet.heartbeat.report :: later := by
  rintro rfl
  obtain short | ⟨size, grown⟩ := derailed
  · simp at short
  · rw [List.prefix_append_right_inj, List.cons_prefix_cons] at grown
    exact other (congrArg Prod.fst grown.1)

/-- From an empty buffer the loop reports the packets of all reads exactly when each heartbeat comes last. -/
theorem receiveAll_packets (reads : List (List Packet)) (packed : Buffer) (bare : content packed = [])
    (reports : List Report) :
    let outcome := receiveAll nonEmpty (unpackVerdict width) report reports packed (reads.map packetsBytes)
    (outcome.state = reports ++ reads.flatten.map Packet.report ∧ content outcome.rest = []) ↔ HeartbeatsLast reads := by
  induction reads generalizing packed reports with
  | nil => simp [receiveAll, bare, HeartbeatsLast]
  | cons read reads ih =>
      by_cases last : Packet.heartbeat ∉ read.dropLast
      · have received : content (receive packed (packetsBytes read)) = packetsBytes read := by
          rw [AutoBuffer.content_receive, bare, List.nil_append]
        obtain ⟨rest, drained, emptied⟩ := drain_heartbeatLast width read last _ received reports
        rw [← AutoBuffer.length_content] at drained
        have continued := @receiveAll_continue _ _ _ _ _ _ _ _ _ _ (reads.map packetsBytes) _ drained (Or.inl rfl)
        have remaining := ih rest emptied (reports ++ read.map Packet.report)
        have heads : HeartbeatsLast (read :: reads) ↔ HeartbeatsLast reads := by
          simp only [HeartbeatsLast, List.forall_mem_cons, and_iff_right last]
        intro outcome
        have ended : outcome = _ := continued
        rw [ended, heads, List.flatten_cons, List.map_append, ← List.append_assoc]
        exact remaining
      · refine iff_of_false ?_ fun lasts => last (lasts read List.mem_cons_self)
        rintro ⟨reported, _⟩
        obtain ⟨frames, rfl | rfl | ⟨packet, later, rfl⟩⟩ := packets_split read
        · exact last fun member => heartbeat_not_mem_messages frames (List.mem_of_mem_dropLast member)
        · exact last (by rw [List.dropLast_concat]; exact heartbeat_not_mem_messages frames)
        · obtain ⟨seq, other, derailed⟩ :=
            receiveAll_early_heartbeat width frames packet later (reads.map packetsBytes) packed bare reports
          have expected : reports ++ (((frames.map .message ++ .heartbeat :: packet :: later) :: reads).flatten).map
              Packet.report = reports ++ frames.map Frame.report ++
                Packet.heartbeat.report :: ((packet :: later) ++ reads.flatten).map Packet.report := by
            rw [List.flatten_cons, List.append_assoc, List.map_append, List.map_map, List.append_assoc]
            rfl
          exact derailed.ne other (reported.trans expected)

/-- Heartbeats and messages are all decoded exactly when no packet follows a heartbeat in its read. -/
theorem heartbeat (packed : Buffer) (bare : content packed = []) (reads : List (List Packet)) :
    DecodesPackets width packed reads ↔ HeartbeatsLast reads := by
  refine Iff.trans ?_ (receiveAll_packets width reads packed bare [])
  refine and_congr_right fun _ => and_iff_left ?_
  rintro packet _ rfl
  rfl

/-- A heartbeat behind a message in one read is decoded. -/
theorem heartbeat_behind_message :
    DecodesPackets .bits64 (empty : ByteBuffer) [[.message ⟨10000, [104, 105], by decide⟩, .heartbeat]] :=
  (heartbeat .bits64 (empty : ByteBuffer) rfl _).mpr (by simp [HeartbeatsLast])

/-- A heartbeat before a message in one read is lost. -/
theorem heartbeat_before_message :
    ¬DecodesPackets .bits64 (empty : ByteBuffer) [[.heartbeat, .message ⟨10000, [104, 105], by decide⟩]] := by
  intro decodes
  exact absurd decodes.1 (by decide)

end MarsWrapper
