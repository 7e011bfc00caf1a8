import MarsWrapper.Model.ReceiveLoop

namespace MarsWrapper

open Foundation Foundation.StreamLoop AutoBufferApi

variable {Buffer : Type}

/-- The complete frames leave the buffer, and the first incomplete frame stays. -/
def settle [AutoBufferApi Buffer] (packed : Buffer) : List Frame → Buffer × List Frame
  | [] => (packed, [])
  | frame :: later =>
    if frame.size ≤ length packed then settle (move packed frame.size) later else (packed, frame :: later)

/-- A residue is harmless when it is empty, holds a header, or is no heartbeat and shows a length
that makes the unpacker wait. The length field of a short residue lies in the memory behind it. -/
def ResidueHarmless [AutoBufferApi Buffer] (width : SizeT) (packed : Buffer) : Prop :=
  length packed = 0 ∨ 12 ≤ length packed ∨
    (length packed ≠ 4 ∧ (declaredLen packed ≤ 2 ^ 20 - 12 ∨
      (width = .bits32 ∧ 2 ^ 32 - 12 + length packed < declaredLen packed)))

/-- Every read leaves a harmless residue behind the frames that it completes. -/
def CutsHarmless [AutoBufferApi Buffer] (width : SizeT) : Buffer → List Frame → List (List UInt8) → Prop
  | _, _, [] => True
  | packed, frames, read :: reads =>
    ResidueHarmless width (settle (receive packed read) frames).1 ∧
      CutsHarmless width (settle (receive packed read) frames).1 (settle (receive packed read) frames).2 reads

/-- The loop reports the frames in their order, never closes, and keeps no byte. -/
def DecodesFrames [AutoBuffer Buffer] (width : SizeT) (packed : Buffer) (frames : List Frame)
    (reads : List (List UInt8)) : Prop :=
  let outcome := receiveReports width packed reads
  (outcome.stop ≠ .reject ∧ outcome.stop ≠ .stuck) ∧ outcome.state = frames.map Frame.report ∧
    content outcome.rest = []

variable [AutoBuffer Buffer] (width : SizeT)

/-- A prefix of a frame that holds a header makes the unpacker wait. -/
theorem unpackVerdict_partial (packed : Buffer) (frame : Frame) (later tail : List UInt8)
    (begun : content packed ++ tail = frame.bytes ++ later) (header : 12 ≤ length packed)
    (missing : length packed < frame.size) : unpackVerdict width packed = .wait := by
  have fits := frame.fits
  have field : wordAt (content packed) 8 = wordAt (frame.bytes ++ later) 8 := by
    rw [← begun, wordAt, wordAt, List.drop_append_of_le_length (by rw [AutoBuffer.length_content]; omega),
      List.take_append_of_le_length (by rw [List.length_drop, AutoBuffer.length_content]; omega)]
  have declared : declaredLen packed = frame.body.length := by
    rw [declaredLen_of_header packed header, field, frame.declared]
  have sized : width.wrap (declaredLen packed + 12) = frame.size := by
    rw [declared, width.wrap_of_lt (by omega), Nat.add_comm]
    rfl
  exact unpackVerdict_wait width packed (by omega) (by rw [sized]; exact fits) (by rw [sized]; exact missing)

/-- A harmless short residue makes the unpacker wait. -/
theorem unpackVerdict_short (packed : Buffer) (short : length packed < 12) (nonempty : length packed ≠ 0)
    (harmless : ResidueHarmless width packed) : unpackVerdict width packed = .wait := by
  have bounded := declaredLen_lt packed
  obtain bare | header | ⟨other, small | ⟨narrow, high⟩⟩ := harmless
  · omega
  · omega
  · have sized : width.wrap (declaredLen packed + 12) = declaredLen packed + 12 := width.wrap_of_lt (by omega)
    exact unpackVerdict_wait width packed other (by omega) (by omega)
  · have sized : width.wrap (declaredLen packed + 12) = declaredLen packed + 12 - 2 ^ 32 := by
      rw [narrow, SizeT.wrap, SizeT.bits]
      omega
    exact unpackVerdict_wait width packed other (by omega) (by omega)

/-- A harmful residue closes the stream or reports a packet that is no frame. -/
theorem unpackVerdict_harmful (packed : Buffer) (harmful : ¬ResidueHarmless width packed) :
    unpackVerdict width packed = .reject ∨
      ∃ size out, unpackVerdict width packed = .accept size out ∧
        (out.seq = Task.kNoopTaskID ∨ out.packageLen < 12) := by
  have bounded := declaredLen_lt packed
  simp only [ResidueHarmless, not_or, not_and, Nat.not_le, Nat.not_lt] at harmful
  obtain ⟨_, short, rest⟩ := harmful
  by_cases four : length packed = 4
  · exact Or.inr ⟨4, _, unpackVerdict_heartbeat width packed four, Or.inl rfl⟩
  · obtain ⟨large, narrow⟩ := rest four
    by_cases rejects : 2 ^ 20 < width.wrap (declaredLen packed + 12)
    · exact Or.inl (unpackVerdict_reject width packed four rejects)
    · -- Only a wrapped sum gets below the limit, and then it is smaller than a header.
      have wrapped : width = .bits32 ∧ width.wrap (declaredLen packed + 12) = declaredLen packed + 12 - 2 ^ 32 := by
        cases width <;> simp only [SizeT.wrap, SizeT.bits, true_and, reduceCtorEq, false_and] at rejects ⊢ <;> omega
      have inside := narrow wrapped.1
      refine Or.inr ⟨_, _, unpackVerdict_accept width packed four (by omega) (by omega), Or.inr ?_⟩
      change width.wrap (declaredLen packed + 12) < 12
      omega

/-- The loop consumes exactly the frames that `settle` drops. -/
theorem settle_consumes (frames : List Frame) (packed : Buffer) (tail : List UInt8)
    (begun : content packed ++ tail = framesBytes frames) :
    ∃ done packets, frames = done ++ (settle packed frames).2 ∧
      Consumes nonEmpty (unpackVerdict width) packed packets (settle packed frames).1 ∧
      (∀ reports, handleAll report reports packets = reports ++ done.map Frame.report) ∧
      packets.length + length (settle packed frames).1 ≤ length packed ∧
      content (settle packed frames).1 ++ tail = framesBytes (settle packed frames).2 ∧
      ((settle packed frames).2 = [] ∨
        ∃ frame later, (settle packed frames).2 = frame :: later ∧ length (settle packed frames).1 < frame.size) := by
  induction frames generalizing packed with
  | nil => exact ⟨[], [], rfl, .nil packed, fun reports => by simp, by simp [settle], begun, Or.inl rfl⟩
  | cons frame later ih =>
      by_cases complete : frame.size ≤ length packed
      · have split : content packed = frame.bytes ++ (content packed).drop frame.size := by
          have taken := congrArg (List.take frame.size) begun
          rw [List.take_append_of_le_length (by rw [AutoBuffer.length_content]; exact complete), framesBytes_cons,
            List.take_append_of_le_length (by rw [Frame.length_bytes]), ← frame.length_bytes, List.take_length,
            frame.length_bytes] at taken
          rw [← taken, List.take_append_drop]
        have moved : content (move packed frame.size) ++ tail = framesBytes later := by
          have dropped := congrArg (List.drop frame.size) begun
          rw [framesBytes_cons, List.drop_append_of_le_length (by rw [AutoBuffer.length_content]; exact complete),
            ← frame.length_bytes, List.drop_left, frame.length_bytes] at dropped
          rw [AutoBuffer.content_move, dropped]
        have shorter : length (move packed frame.size) = length packed - frame.size := by
          rw [← AutoBuffer.length_content, AutoBuffer.content_move, List.length_drop, AutoBuffer.length_content]
        have positive : 12 ≤ frame.size := Nat.le_add_right _ _
        obtain ⟨done, packets, parts, consumed, reported, spent, remains, settled⟩ := ih (move packed frame.size) moved
        have step : settle packed (frame :: later) = settle (move packed frame.size) later := by
          rw [settle, if_pos complete]
        have open_ : nonEmpty packed = true := bne_iff_ne.mpr (by omega)
        rw [step]
        refine ⟨frame :: done, _ :: packets, by rw [List.cons_append, ← parts],
          .cons open_ (unpackVerdict_frame width packed frame _ split) consumed, ?_, ?_, remains, settled⟩
        · intro reports
          rw [handleAll_cons, reported, report, List.map_cons, List.append_assoc]
          rfl
        · rw [List.length_cons]
          omega
      · have stay : settle packed (frame :: later) = (packed, frame :: later) := by
          rw [settle, if_neg complete]
        rw [stay]
        exact ⟨[], [], rfl, .nil packed, fun reports => by simp, by simp, begun,
          Or.inr ⟨frame, later, rfl, Nat.lt_of_not_le complete⟩⟩

/-- One read reports its complete frames and stops at a harmless residue. -/
theorem drain_harmless (frames : List Frame) (packed : Buffer) (tail : List UInt8) (reports : List Report)
    (begun : content packed ++ tail = framesBytes frames) (harmless : ResidueHarmless width (settle packed frames).1) :
    ∃ done stop, frames = done ++ (settle packed frames).2 ∧ (stop = .idle ∨ stop = .wait) ∧
      drain nonEmpty (unpackVerdict width) report (length packed) reports packed =
        ⟨reports ++ done.map Frame.report, (settle packed frames).1, stop⟩ := by
  obtain ⟨done, packets, parts, consumed, reported, spent, remains, settled⟩ :=
    settle_consumes width frames packed tail begun
  obtain ⟨fuel, budget⟩ : ∃ fuel, length packed = packets.length + (length (settle packed frames).1 + fuel) :=
    ⟨length packed - packets.length - length (settle packed frames).1, by omega⟩
  rw [budget, drain_consumes consumed, reported]
  by_cases bare : length (settle packed frames).1 = 0
  · have closed : nonEmpty (settle packed frames).1 = false := bne_eq_false_iff_eq.mpr bare
    exact ⟨done, .idle, parts, Or.inl rfl, drain_idle _ _ _ closed⟩
  · have open_ : nonEmpty (settle packed frames).1 = true := bne_iff_ne.mpr bare
    have waits : unpackVerdict width (settle packed frames).1 = .wait := by
      by_cases short : length (settle packed frames).1 < 12
      · exact unpackVerdict_short width _ short bare harmless
      · obtain none_ | ⟨frame, later, next, missing⟩ := settled
        · rw [none_] at remains
          have empty_ := List.append_eq_nil_iff.mp remains
          rw [AutoBuffer.content_eq_nil_iff] at empty_
          omega
        · rw [next] at remains
          exact unpackVerdict_partial width _ frame (framesBytes later) tail remains (by omega) missing
    refine ⟨done, .wait, parts, Or.inr rfl, ?_⟩
    rw [show length (settle packed frames).1 + fuel = length (settle packed frames).1 - 1 + fuel + 1 by omega]
    exact drain_wait _ _ _ open_ waits

/-- One read that leaves a harmful residue closes the stream or reports a packet that is no frame. -/
theorem drain_harmful (frames : List Frame) (packed : Buffer) (tail : List UInt8) (reports : List Report)
    (begun : content packed ++ tail = framesBytes frames) (harmful : ¬ResidueHarmless width (settle packed frames).1) :
    ∃ done frame later, frames = done ++ frame :: later ∧
      ((drain nonEmpty (unpackVerdict width) report (length packed) reports packed).stop = .reject ∨
        ∃ bad : Report, (bad.1 = Task.kNoopTaskID ∨ bad.2 < 12) ∧
          reports ++ done.map Frame.report ++ [bad] <+:
            (drain nonEmpty (unpackVerdict width) report (length packed) reports packed).state) := by
  obtain ⟨done, packets, parts, consumed, reported, spent, remains, settled⟩ :=
    settle_consumes width frames packed tail begun
  have bare : length (settle packed frames).1 ≠ 0 := fun zero => harmful (Or.inl zero)
  have open_ : nonEmpty (settle packed frames).1 = true := bne_iff_ne.mpr bare
  obtain ⟨fuel, budget⟩ : ∃ fuel, length packed = packets.length + (fuel + 1) :=
    ⟨length packed - packets.length - 1, by omega⟩
  obtain none_ | ⟨frame, later, next, _⟩ := settled
  · rw [none_] at remains
    have empty_ := List.append_eq_nil_iff.mp remains
    rw [AutoBuffer.content_eq_nil_iff] at empty_
    omega
  · refine ⟨done, frame, later, next ▸ parts, ?_⟩
    rw [budget, drain_consumes consumed, reported]
    obtain rejects | ⟨size, out, accepts, bad⟩ := unpackVerdict_harmful width _ harmful
    · exact Or.inl (by rw [drain_reject _ _ _ open_ rejects])
    · refine Or.inr ⟨(out.seq, out.packageLen), bad, ?_⟩
      rw [drain_accept _ _ _ open_ accepts]
      exact drain_extends List.prefix_refl (fun _ _ _ => List.IsPrefix.trans) report_extends _ _ _

/-- A report list that starts with a bad report is no report list of frames. -/
theorem reports_ne_of_bad {reports result : List Report} {done later : List Frame} {frame : Frame} {bad : Report}
    (named : frame.messageId ≠ Task.kNoopTaskID) (wrong : bad.1 = Task.kNoopTaskID ∨ bad.2 < 12)
    (begun : reports ++ done.map Frame.report ++ [bad] <+: result) :
    result ≠ reports ++ (done ++ frame :: later).map Frame.report := by
  rintro rfl
  rw [List.map_append, ← List.append_assoc, List.prefix_append_right_inj, List.map_cons, List.cons_prefix_cons] at begun
  obtain ⟨rfl, _⟩ := begun
  obtain same | small := wrong
  · exact named same
  · have positive : 12 ≤ frame.size := Nat.le_add_right _ _
    exact absurd small (Nat.not_lt.mpr positive)

/-- From any settled buffer the loop decodes the remaining frames exactly when every cut is harmless. -/
theorem receiveAll_frames (reads : List (List UInt8)) (frames : List Frame) (packed : Buffer) (reports : List Report)
    (cut : content packed ++ reads.flatten = framesBytes frames)
    (named : ∀ frame ∈ frames, frame.messageId ≠ Task.kNoopTaskID)
    (settled : frames = [] ∨ ∃ frame later, frames = frame :: later ∧ length packed < frame.size) :
    let outcome := receiveAll nonEmpty (unpackVerdict width) report reports packed reads
    ((outcome.stop ≠ .reject ∧ outcome.stop ≠ .stuck) ∧ outcome.state = reports ++ frames.map Frame.report ∧
      content outcome.rest = []) ↔ CutsHarmless width packed frames reads := by
  induction reads generalizing frames packed reports with
  | nil =>
      rw [List.flatten_nil, List.append_nil] at cut
      obtain rfl | ⟨frame, later, rfl, missing⟩ := settled
      · have closed : nonEmpty packed = false := (nonEmpty_eq_false_iff packed).mpr cut
        have bare : content packed = [] := cut
        simp [receiveAll, closed, bare, CutsHarmless]
      · have long := congrArg List.length cut
        rw [AutoBuffer.length_content, framesBytes_cons, List.length_append, Frame.length_bytes] at long
        omega
  | cons read reads ih =>
      have begun : content (receive packed read) ++ reads.flatten = framesBytes frames := by
        rw [AutoBuffer.content_receive, List.append_assoc, ← List.flatten_cons, cut]
      have fuel : (StreamBuffer.bytes (receive packed read)).length = length (receive packed read) := by
        rw [AutoBuffer.bytes_eq_content, AutoBuffer.length_content]
      by_cases harmless : ResidueHarmless width (settle (receive packed read) frames).1
      · obtain ⟨done, stop, parts, open_, drained⟩ :=
          drain_harmless width frames (receive packed read) reads.flatten reports begun harmless
        obtain ⟨_, _, _, _, _, _, remains, resettled⟩ := settle_consumes width frames (receive packed read) _ begun
        have later := ih (settle (receive packed read) frames).2 (settle (receive packed read) frames).1
          (reports ++ done.map Frame.report) remains
          (fun frame member => named frame (by rw [parts]; exact List.mem_append_right _ member)) resettled
        have whole : reports ++ frames.map Frame.report =
            reports ++ done.map Frame.report ++ (settle (receive packed read) frames).2.map Frame.report := by
          conv_lhs => rw [parts]
          rw [List.map_append, List.append_assoc]
        rw [← fuel] at drained
        intro outcome
        have continued : outcome = _ := receiveAll_continue drained open_
        rw [continued, whole, CutsHarmless, and_iff_right harmless]
        exact later
      · obtain ⟨done, frame, later, parts, broken⟩ :=
          drain_harmful width frames (receive packed read) reads.flatten reports begun harmless
        rw [← fuel] at broken
        intro outcome
        refine iff_of_false ?_ fun cuts => harmless cuts.1
        rintro ⟨⟨alive, _⟩, decoded, _⟩
        obtain rejects | ⟨bad, wrong, grown⟩ := broken
        · have closed : outcome = _ := receiveAll_reject rfl rejects
          exact alive (by rw [closed]; exact rejects)
        · have final : reports ++ done.map Frame.report ++ [bad] <+: outcome.state :=
            grown.trans (receiveAll_extends_drain List.prefix_refl (fun _ _ _ => List.IsPrefix.trans)
              report_extends read reads _ _ rfl)
          rw [parts] at decoded
          exact reports_ne_of_bad (named frame (by rw [parts]; simp)) wrong final decoded

/-- From an empty buffer the loop decodes every cut of the frames exactly when every cut is harmless. -/
theorem fragmentation (packed : Buffer) (bare : content packed = []) (frames : List Frame)
    (named : ∀ frame ∈ frames, frame.messageId ≠ Task.kNoopTaskID) (reads : List (List UInt8))
    (cut : reads.flatten = framesBytes frames) :
    DecodesFrames width packed frames reads ↔ CutsHarmless width packed frames reads := by
  have settled : frames = [] ∨ ∃ frame later, frames = frame :: later ∧ length packed < frame.size := by
    cases frames with
    | nil => exact Or.inl rfl
    | cons frame later =>
        refine Or.inr ⟨frame, later, rfl, ?_⟩
        rw [(AutoBuffer.content_eq_nil_iff packed).mp bare, Frame.size]
        omega
  have started := receiveAll_frames width reads frames packed [] (by rw [bare, List.nil_append, cut]) named settled
  simpa only [DecodesFrames, receiveReports, List.nil_append] using started

/-- Two frames are decoded when the cut lies inside the body of the second. -/
theorem fragmentation_cut_in_body :
    DecodesFrames .bits32 (empty : ByteBuffer) [⟨10000, [104, 105], by decide⟩, ⟨10001, [106, 107], by decide⟩]
      [[0xaf, 0xbe, 0xad, 0xde, 16, 39, 0, 0, 2, 0, 0, 0, 104, 105,
          0xaf, 0xbe, 0xad, 0xde, 17, 39, 0, 0, 2, 0, 0, 0, 106],
        [107]] :=
  (fragmentation .bits32 (empty : ByteBuffer) rfl _ (by simp [Task.kNoopTaskID]) _ (by decide)).mpr
    ⟨Or.inr (Or.inl (by decide)), Or.inl (by decide), trivial⟩

/-- A cut behind the fourth byte of a frame reports a heartbeat that nobody sent. -/
theorem fragmentation_cut_after_magic :
    let frame : Frame := ⟨10000, [104, 105], by decide⟩
    let reads := [frame.bytes.take 4, frame.bytes.drop 4]
    reads.flatten = framesBytes [frame] ∧ (∀ read ∈ reads, read ≠ []) ∧ frame.messageId ≠ Task.kNoopTaskID ∧
      ¬DecodesFrames .bits64 (empty : ByteBuffer) [frame] reads := by
  refine ⟨by decide, by decide, by decide, fun decodes => ?_⟩
  exact absurd decodes.2.1 (by decide)

end MarsWrapper
