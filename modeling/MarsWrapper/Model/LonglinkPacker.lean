import MarsWrapper.Model.AutoBuffer
import MarsWrapper.Model.ImMessage
import MarsWrapper.Model.Stn

namespace MarsWrapper

open Foundation Foundation.LittleEndian AutoBufferApi

/-- The unpacker answers with one of its three return codes. -/
inductive LonglinkUnpack where
  | ok
  | continue_
  | false_
  deriving DecidableEq

def imHeartbeatBytes : Nat := 4
def pushDataTaskidStart : UInt32 := 0
def pushDataTaskidEnd : UInt32 := 10000

/-- A pointer read takes four bytes of memory, wherever the received bytes end. -/
def ptrWord (memory : Nat → UInt8) (offset : Nat) : UInt32 :=
  decode32 [memory offset, memory (offset + 1), memory (offset + 2), memory (offset + 3)]

/-- These are the reference parameters of `__unpack_test`. -/
structure UnpackHeader where
  cmdid : UInt32
  seq : UInt32
  packageLen : Nat
  bodyLen : Nat
  deriving DecidableEq

/-- The test recognises a heartbeat by the buffered length and otherwise reads the header. -/
def unpackTest (width : SizeT) (packed : Nat → UInt8) (packedLen : Nat) (out : UnpackHeader) :
    LonglinkUnpack × UnpackHeader :=
  if packedLen = imHeartbeatBytes then
    (.ok, {out with seq := Task.kNoopTaskID, packageLen := packedLen})
  else
    let len := ptrWord packed MessageFormat.lenOffset
    let header : UnpackHeader :=
      { cmdid := 0
        seq := ptrWord packed MessageFormat.messageIdOffset
        bodyLen := len.toNat
        packageLen := width.wrap (len.toNat + MessageFormat.size) }
    if 1024 * 1024 < header.packageLen then (.false_, header)
    else if packedLen < header.packageLen then (.continue_, header)
    else (.ok, header)

variable {Buffer : Type} [AutoBufferApi Buffer]

/-- The heartbeat is the number four in network order. -/
def heartBeatPackage : List UInt8 := (encode32 4).reverse

def longlinkPack (_cmdid seq : UInt32) (body packed : Buffer) : Buffer :=
  seekStart (
    if seq = Task.kNoopTaskID then write (allocWrite packed heartBeatPackage.length) heartBeatPackage
    else if 0 < length body then write (allocWrite packed (length body)) (content body)
    else allocWrite packed (length body))

/-- These are the reference parameters of `longlink_unpack`. -/
structure Unpacked (Buffer : Type) where
  cmdid : UInt32
  seq : UInt32
  packageLen : Nat
  body : Buffer

/-- An accepted packet receives a copy of the whole receive buffer. -/
def longlinkUnpack (width : SizeT) (packed : Buffer) (out : Unpacked Buffer) :
    LonglinkUnpack × Unpacked Buffer :=
  let (ret, header) := unpackTest width (ptr packed) (length packed) ⟨out.cmdid, out.seq, out.packageLen, 0⟩
  let out := {out with cmdid := header.cmdid, seq := header.seq, packageLen := header.packageLen}
  if ret = .ok then (ret, {out with body := writeCur out.body (content packed)}) else (ret, out)

def longlinkNoopIsresp (recvSeq : UInt32) : Bool := Task.kNoopTaskID == recvSeq

def longlinkIspush (taskid : UInt32) : Bool := pushDataTaskidStart < taskid && taskid < pushDataTaskidEnd

namespace AutoBuffer

variable {Buffer : Type} [AutoBuffer Buffer]

/-- A pointer read below the length reads received bytes. -/
theorem ptrWord_eq_wordAt (buffer : Buffer) (offset : Nat) (inside : offset + 4 ≤ length buffer) :
    ptrWord (ptr buffer) offset = wordAt (content buffer) offset := by
  have whole : ((content buffer).drop offset).take 4 =
      [ptr buffer offset, ptr buffer (offset + 1), ptr buffer (offset + 2), ptr buffer (offset + 3)] := by
    apply List.ext_getElem
    · rw [List.length_take, List.length_drop, length_content]
      simp only [List.length_cons, List.length_nil]
      omega
    · intro index _ below
      rw [List.getElem_take, List.getElem_drop, getElem_content]
      match index, below with
      | 0, _ | 1, _ | 2, _ | 3, _ => rfl
  rw [ptrWord, wordAt, whole]

end AutoBuffer

section Unpack

variable {Buffer : Type} [AutoBuffer Buffer] (width : SizeT)

/-- The declared length is the word that the unpacker reads at the length field. -/
def declaredLen {Buffer : Type} [AutoBufferApi Buffer] (packed : Buffer) : Nat := (ptrWord (ptr packed) 8).toNat

theorem declaredLen_lt (packed : Buffer) : declaredLen packed < 2 ^ 32 := (ptrWord (ptr packed) 8).toNat_lt

theorem longlinkUnpack_heartbeat (packed : Buffer) (out : Unpacked Buffer) (four : length packed = 4) :
    longlinkUnpack width packed out =
      (.ok, ⟨out.cmdid, Task.kNoopTaskID, 4, writeCur out.body (content packed)⟩) := by
  simp [longlinkUnpack, unpackTest, four, imHeartbeatBytes]

theorem longlinkUnpack_false (packed : Buffer) (out : Unpacked Buffer) (other : length packed ≠ 4)
    (large : 2 ^ 20 < width.wrap (declaredLen packed + 12)) : (longlinkUnpack width packed out).1 = .false_ := by
  have above : 1024 * 1024 < width.wrap ((ptrWord (ptr packed) 8).toNat + 12) := large
  simp [longlinkUnpack, unpackTest, other, imHeartbeatBytes, MessageFormat.lenOffset, MessageFormat.size, above]

theorem longlinkUnpack_continue (packed : Buffer) (out : Unpacked Buffer) (other : length packed ≠ 4)
    (small : width.wrap (declaredLen packed + 12) ≤ 2 ^ 20)
    (missing : length packed < width.wrap (declaredLen packed + 12)) :
    (longlinkUnpack width packed out).1 = .continue_ := by
  have under : ¬1024 * 1024 < width.wrap ((ptrWord (ptr packed) 8).toNat + 12) := Nat.not_lt.mpr small
  have absent : length packed < width.wrap ((ptrWord (ptr packed) 8).toNat + 12) := missing
  simp [longlinkUnpack, unpackTest, other, imHeartbeatBytes, MessageFormat.lenOffset, MessageFormat.size, under,
    absent]

theorem longlinkUnpack_ok (packed : Buffer) (out : Unpacked Buffer) (other : length packed ≠ 4)
    (small : width.wrap (declaredLen packed + 12) ≤ 2 ^ 20)
    (present : width.wrap (declaredLen packed + 12) ≤ length packed) :
    longlinkUnpack width packed out =
      (.ok, ⟨0, ptrWord (ptr packed) 4, width.wrap (declaredLen packed + 12),
        writeCur out.body (content packed)⟩) := by
  have under : ¬1024 * 1024 < width.wrap ((ptrWord (ptr packed) 8).toNat + 12) := Nat.not_lt.mpr small
  have here : ¬length packed < width.wrap ((ptrWord (ptr packed) 8).toNat + 12) := Nat.not_lt.mpr present
  simp [longlinkUnpack, unpackTest, other, imHeartbeatBytes, MessageFormat.lenOffset, MessageFormat.size,
    MessageFormat.messageIdOffset, under, here, declaredLen]

/-- With a whole header the declared length is the received one. -/
theorem declaredLen_of_header (packed : Buffer) (header : 12 ≤ length packed) :
    declaredLen packed = (wordAt (content packed) 8).toNat := by
  rw [declaredLen, AutoBuffer.ptrWord_eq_wordAt packed 8 (by omega)]

end Unpack

section Pack

variable {Buffer : Type} [AutoBuffer Buffer]

/-- The packer copies every body that does not have the heartbeat id. -/
theorem content_longlinkPack (cmdid seq : UInt32) (body : Buffer) (message : seq ≠ Task.kNoopTaskID) :
    content (longlinkPack cmdid seq body (empty : Buffer)) = content body := by
  rw [longlinkPack, AutoBuffer.content_seekStart, if_neg message, ← AutoBuffer.length_content body]
  split
  · exact AutoBuffer.content_allocWrite_write (content body)
  · have bare : (content body).length = 0 := by omega
    rw [List.length_eq_zero_iff.mp bare, List.length_nil, AutoBuffer.content_eq_nil_iff,
      AutoBuffer.length_allocWrite, AutoBuffer.length_empty, AutoBuffer.pos_empty]
    rfl

/-- The packer replaces the body by the heartbeat for the heartbeat id. -/
theorem content_longlinkPack_noop (cmdid : UInt32) (body : Buffer) :
    content (longlinkPack cmdid Task.kNoopTaskID body (empty : Buffer)) = [0, 0, 0, 4] := by
  rw [longlinkPack, AutoBuffer.content_seekStart, if_pos rfl, AutoBuffer.content_allocWrite_write]
  decide

end Pack

end MarsWrapper
