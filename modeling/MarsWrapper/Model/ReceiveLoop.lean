import MarsWrapper.Foundation.StreamLoop
import MarsWrapper.Model.LonglinkPacker

namespace MarsWrapper

open Foundation Foundation.StreamLoop AutoBufferApi

variable {Buffer : Type}

/-- A report names the sequence number and the length of one accepted packet. -/
abbrev Report := UInt32 × Nat

def report (reports : List Report) (_packed : Buffer) (out : Unpacked Buffer) : List Report :=
  reports ++ [(out.seq, out.packageLen)]

/-- A report is never taken back. -/
theorem report_extends (reports : List Report) (packed : Buffer) (out : Unpacked Buffer) :
    reports <+: report reports packed out := List.prefix_append ..

section Loop

variable [AutoBufferApi Buffer]

/-- Mars gives the unpacker fresh output variables for each packet. -/
def Unpacked.fresh : Unpacked Buffer := ⟨0, Task.kInvalidTaskID, 0, empty⟩

/-- The receive loop reads the return code of the unpacker as a verdict on the buffer. -/
def unpackVerdict (width : SizeT) (packed : Buffer) : Verdict (Unpacked Buffer) :=
  match longlinkUnpack width packed Unpacked.fresh with
  | (.ok, out) => .accept out.packageLen out
  | (.continue_, _) => .wait
  | (.false_, _) => .reject

def nonEmpty (packed : Buffer) : Bool := length packed != 0

end Loop

/-- The loop appends each read and reports every accepted packet. -/
def receiveReports [AutoBuffer Buffer] (width : SizeT) (packed : Buffer) (reads : List (List UInt8)) :
    Outcome (List Report) Buffer :=
  receiveAll nonEmpty (unpackVerdict width) report [] packed reads

/-- A well-formed frame fits the size limit of the unpacker. -/
structure Frame where
  messageId : UInt32
  body : List UInt8
  fits : 12 + body.length ≤ 2 ^ 20

namespace Frame

def bytes (frame : Frame) : List UInt8 :=
  frameBytes frame.messageId (UInt32.ofNat frame.body.length) frame.body

def size (frame : Frame) : Nat := 12 + frame.body.length

def report (frame : Frame) : Report := (frame.messageId, frame.size)

@[simp] theorem length_bytes (frame : Frame) : frame.bytes.length = frame.size :=
  length_frameBytes ..

theorem toNat_len (frame : Frame) : (UInt32.ofNat frame.body.length).toNat = frame.body.length := by
  have fits := frame.fits
  rw [UInt32.toNat_ofNat', Nat.mod_eq_of_lt (by omega)]

theorem declared (frame : Frame) (later : List UInt8) :
    (wordAt (frame.bytes ++ later) 8).toNat = frame.body.length := by
  rw [bytes, wordAt_len, toNat_len]

end Frame

section Verdicts

variable [AutoBuffer Buffer] (width : SizeT) (packed : Buffer)

@[simp] theorem nonEmpty_iff : nonEmpty packed = true ↔ content packed ≠ [] := by
  simp only [nonEmpty, bne_iff_ne, ne_eq, AutoBuffer.content_eq_nil_iff]

theorem nonEmpty_eq_false_iff : nonEmpty packed = false ↔ content packed = [] := by
  rw [← Bool.not_eq_true, nonEmpty_iff, not_not]

/-- Four buffered bytes are a heartbeat, whatever they are. -/
theorem unpackVerdict_heartbeat (four : length packed = 4) :
    unpackVerdict width packed =
      .accept 4 ⟨0, Task.kNoopTaskID, 4, writeCur empty (content packed)⟩ := by
  rw [unpackVerdict, longlinkUnpack_heartbeat width packed _ four]
  rfl

theorem unpackVerdict_reject (other : length packed ≠ 4)
    (large : 2 ^ 20 < width.wrap (declaredLen packed + 12)) : unpackVerdict width packed = .reject := by
  have code := longlinkUnpack_false width packed Unpacked.fresh other large
  rw [unpackVerdict]
  split <;> simp_all

theorem unpackVerdict_wait (other : length packed ≠ 4)
    (small : width.wrap (declaredLen packed + 12) ≤ 2 ^ 20)
    (missing : length packed < width.wrap (declaredLen packed + 12)) : unpackVerdict width packed = .wait := by
  have code := longlinkUnpack_continue width packed Unpacked.fresh other small missing
  rw [unpackVerdict]
  split <;> simp_all

theorem unpackVerdict_accept (other : length packed ≠ 4)
    (small : width.wrap (declaredLen packed + 12) ≤ 2 ^ 20)
    (present : width.wrap (declaredLen packed + 12) ≤ length packed) :
    unpackVerdict width packed =
      .accept (width.wrap (declaredLen packed + 12))
        ⟨0, ptrWord (ptr packed) 4, width.wrap (declaredLen packed + 12), writeCur empty (content packed)⟩ := by
  rw [unpackVerdict, longlinkUnpack_ok width packed _ other small present]
  rfl

/-- A well-formed frame at the head of the buffer is accepted whole. -/
theorem unpackVerdict_frame (frame : Frame) (later : List UInt8)
    (head : content packed = frame.bytes ++ later) :
    unpackVerdict width packed =
      .accept frame.size ⟨0, frame.messageId, frame.size, writeCur empty (content packed)⟩ := by
  have fits := frame.fits
  have long : frame.size ≤ length packed := by
    rw [← AutoBuffer.length_content, head, List.length_append, Frame.length_bytes]
    omega
  have header : 12 ≤ length packed := by
    unfold Frame.size at long
    omega
  have declared : declaredLen packed = frame.body.length := by
    rw [declaredLen_of_header packed header, head, frame.declared]
  have sized : width.wrap (declaredLen packed + 12) = frame.size := by
    rw [declared, width.wrap_of_lt (by omega), Nat.add_comm]
    rfl
  rw [unpackVerdict_accept width packed (by omega) (by rw [sized]; exact fits) (by rw [sized]; exact long), sized,
    AutoBuffer.ptrWord_eq_wordAt packed 4 (by omega), head, Frame.bytes, wordAt_messageId]

/-- Past four bytes every accepted packet has the received second word as its sequence number. -/
theorem seq_of_accept {size : Nat} {out : Unpacked Buffer} (words : 8 ≤ length packed)
    (accepted : unpackVerdict width packed = .accept size out) : out.seq = wordAt (content packed) 4 := by
  by_cases large : 2 ^ 20 < width.wrap (declaredLen packed + 12)
  · rw [unpackVerdict_reject width packed (by omega) large] at accepted
    contradiction
  · by_cases missing : length packed < width.wrap (declaredLen packed + 12)
    · rw [unpackVerdict_wait width packed (by omega) (by omega) missing] at accepted
      contradiction
    · rw [unpackVerdict_accept width packed (by omega) (by omega) (by omega)] at accepted
      obtain ⟨_, rfl⟩ := Verdict.accept.inj accepted
      exact AutoBuffer.ptrWord_eq_wordAt packed 4 (by omega)

end Verdicts

def framesBytes (frames : List Frame) : List UInt8 := (frames.map Frame.bytes).flatten

@[simp] theorem framesBytes_nil : framesBytes [] = [] := rfl

@[simp] theorem framesBytes_cons (frame : Frame) (later : List Frame) :
    framesBytes (frame :: later) = frame.bytes ++ framesBytes later := rfl

/-- The loop consumes all leading frames of the buffer. -/
theorem consumes_frames [AutoBuffer Buffer] (width : SizeT) (frames : List Frame) (packed : Buffer)
    (tail : List UInt8) (head : content packed = framesBytes frames ++ tail) :
    ∃ packets rest, Consumes nonEmpty (unpackVerdict width) packed packets rest ∧
      (∀ reports, StreamLoop.handleAll report reports packets = reports ++ frames.map Frame.report) ∧
      packets.length = frames.length ∧ content rest = tail := by
  induction frames generalizing packed with
  | nil => exact ⟨[], packed, .nil packed, fun reports => by simp, rfl, head⟩
  | cons frame later ih =>
      rw [framesBytes_cons, List.append_assoc] at head
      have moved : content (move packed frame.size) = framesBytes later ++ tail := by
        rw [AutoBuffer.content_move, head, ← frame.length_bytes, List.drop_left]
      obtain ⟨packets, rest, consumed, reported, count, remains⟩ := ih (move packed frame.size) moved
      have open_ : nonEmpty packed = true := by
        rw [nonEmpty_iff, head]
        exact List.append_ne_nil_of_left_ne_nil (List.ne_nil_of_length_pos (by rw [frame.length_bytes, Frame.size]; omega)) _
      refine ⟨_ :: packets, rest, .cons open_ (unpackVerdict_frame width packed frame _ head) consumed, ?_, ?_, remains⟩
      · intro reports
        rw [StreamLoop.handleAll_cons, reported, report, List.map_cons, List.append_assoc]
        rfl
      · rw [List.length_cons, List.length_cons, count]

end MarsWrapper
