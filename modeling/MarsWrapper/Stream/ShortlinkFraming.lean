import MarsWrapper.Model.ShortlinkPacker

namespace MarsWrapper

open Foundation.Decimal Foundation.FieldMap AutoBufferApi HttpApi HttpWriterApi

variable {Builder Buffer : Type}

/-- A block counts the sent bytes when every Content-Length shows their number.
It may be missing when nothing is sent. The name is looked up among the fields of the block and not in its bytes. -/
def CountsSent [HttpApi Builder] (request : Builder) (sent : Text) : Prop :=
  (∀ field ∈ fields request, foldCase field.1 = foldCase contentLengthName → field.2 = decimal sent.length) ∧
    (sent ≠ [] → ∃ field ∈ fields request, foldCase field.1 = foldCase contentLengthName)

/-- The packer writes one header block and the sent bytes, and the block counts them. -/
def Delimited [HttpApi Builder] [AutoBufferApi Buffer] (request : Builder) (sent : Text)
    (out packed : Buffer) : Prop :=
  content packed = splice (content out) (pos out) (headerBlock request ++ sent) ∧ CountsSent request sent

/-- A POST request sends the body, and a GET request sends nothing. -/
def sentBody [AutoBufferApi Buffer] (url : Text) (body : Buffer) : Text :=
  if isPost url then content body else []

/-- The caller's last field of a name is the one that the loop leaves. -/
def callerValue (headers : StringMap) (name : Text) : Option Text := valueOf foldCase headers.entries.reverse name

variable [Http Builder] [AutoBuffer Buffer]

/-- The value of the one Content-Length decides whether the block counts the sent bytes. -/
theorem countsSent_iff (request : Builder) (sent : Text) :
    CountsSent request sent ↔
      valueOf foldCase (fields request) contentLengthName = some (decimal sent.length) ∨
        (valueOf foldCase (fields request) contentLengthName = none ∧ sent = []) := by
  have shown {field : Text × Text} (member : field ∈ fields request)
      (same : foldCase field.1 = foldCase contentLengthName) :
      valueOf foldCase (fields request) contentLengthName = some field.2 :=
    valueOf_of_mem (Http.distinct_fields request) member same
  constructor
  · intro counts
    obtain ⟨every, present⟩ := counts
    cases found : valueOf foldCase (fields request) contentLengthName with
    | some value =>
        obtain ⟨field, member, same, rfl⟩ := exists_of_valueOf found
        left
        rw [every field member same]
    | none =>
        right
        refine ⟨rfl, ?_⟩
        by_contra nonempty
        obtain ⟨field, member, same⟩ := present nonempty
        rw [shown member same] at found
        cases found
  · intro value
    constructor
    · intro field member same
      rw [shown member same] at value
      obtain value | absent := value
      · exact Option.some_inj.mp value
      · cases absent.1
    · intro nonempty
      obtain value | absent := value
      · obtain ⟨field, member, same, written⟩ := exists_of_valueOf value
        exact ⟨field, member, same⟩
      · exact absurd absent.2 nonempty

/-- The loop over headers without zero bytes leaves the caller's last value of a name, or the value before it. -/
theorem valueOf_callerFields (headers : StringMap)
    (clean : ∀ header ∈ headers.entries, 0 ∉ header.1 ∧ 0 ∉ header.2) (request : Builder) (name : Text) :
    valueOf foldCase (fields (headers.entries.foldl
        (fun request header => headerFiled request (cStr header.1, cStr header.2)) request)) name =
      (callerValue headers name).or (valueOf foldCase (fields request) name) := by
  have whole : headers.entries.foldl (fun request header => headerFiled request (cStr header.1, cStr header.2)) request =
      headers.entries.foldl headerFiled request := by
    apply List.foldl_ext
    intro state header member
    rw [cStr_of_clean (clean header member).1, cStr_of_clean (clean header member).2]
  rw [whole]
  exact valueOf_foldl fields headerFiled Http.valueOf_written Http.valueOf_kept headers.entries request name

/-- A POST request shows the computed length, and a GET request shows what the caller gave. -/
theorem valueOf_shortlinkRequest (url : Text) (headers : StringMap) (body : Buffer)
    (clean : ∀ header ∈ headers.entries, 0 ∉ header.1 ∧ 0 ∉ header.2) :
    valueOf foldCase (fields (shortlinkRequest url headers body : Builder)) contentLengthName =
      if isPost url then some (lenStr (length body)) else callerValue headers contentLengthName := by
  unfold shortlinkRequest
  split
  · apply Http.valueOf_written
    rw [Http.contentLength_name]
  · rw [Http.fields_url, valueOf_callerFields headers clean, Http.valueOf_kept _ _ _ Http.connection_name,
      Http.valueOf_kept _ _ _ Http.cacheControl_name, Http.valueOf_kept _ _ _ Http.userAgent_name,
      Http.valueOf_kept _ _ _ Http.accept_name, Http.fields_version, Http.fields_method, Http.fields_builder,
      valueOf, Option.or_none]

/-- The text of the length is complete, but it counts in 32 bits. -/
theorem lenStr_eq (bodyLength : Nat) : lenStr bodyLength = decimal (bodyLength % 2 ^ 32) := by
  have short : (decimal (bodyLength % 2 ^ 32)).length ≤ 10 := length_decimal_le (by decide) (by omega)
  unfold lenStr
  rw [UInt32.toNat_ofNat']
  exact List.take_of_length_le (by omega)

theorem lenStr_eq_decimal_iff (bodyLength : Nat) : lenStr bodyLength = decimal bodyLength ↔ bodyLength < 2 ^ 32 := by
  rw [lenStr_eq, decimal_injective.eq_iff]
  constructor <;> intro equal <;> omega

/-- The packer always writes the header block and behind it the bytes it sends. -/
theorem content_shortlinkPack [HttpWriter Builder Buffer] (url : Text) (headers : StringMap) (body out : Buffer)
    (seated : pos out ≤ length out) :
    content (shortlinkPack Builder url headers body out) =
      splice (content out) (pos out)
        (headerBlock (shortlinkRequest url headers body : Builder) ++ sentBody url body) := by
  have block := HttpWriter.content_headerToBuffer (shortlinkRequest url headers body : Builder) out seated
  have position := HttpWriter.pos_headerToBuffer (shortlinkRequest url headers body : Builder) out seated
  unfold shortlinkPack sentBody
  split
  · have behind : pos (headerToBuffer (shortlinkRequest url headers body : Builder) out) ≤
        length (headerToBuffer (shortlinkRequest url headers body : Builder) out) := by
      rw [← AutoBuffer.length_content, block, position, splice, List.length_append, List.length_append,
        List.length_take, AutoBuffer.length_content]
      omega
    rw [AutoBuffer.content_write _ _ behind, block, position]
    exact splice_splice _ _ _ (by rw [AutoBuffer.length_content]; exact seated)
  · rw [List.append_nil]
    exact block

/-- The requests are delimited exactly when a POST body has fewer than `2 ^ 32` bytes
and the caller of a GET request gives no Content-Length, or a zero one, last. -/
theorem shortlinkFraming [HttpWriter Builder Buffer] (url : Text) (headers : StringMap) (body out : Buffer)
    (clean : ∀ header ∈ headers.entries, 0 ∉ header.1 ∧ 0 ∉ header.2) (seated : pos out ≤ length out) :
    Delimited (shortlinkRequest url headers body : Builder) (sentBody url body) out
        (shortlinkPack Builder url headers body out) ↔
      if isPost url then length body < 2 ^ 32
      else callerValue headers contentLengthName = none ∨ callerValue headers contentLengthName = some (ascii "0") := by
  have written := @content_shortlinkPack Builder Buffer _ _ _ url headers body out seated
  have value := @valueOf_shortlinkRequest Builder Buffer _ _ url headers body clean
  unfold Delimited
  rw [and_iff_right written, countsSent_iff, value]
  unfold sentBody
  split
  · rw [AutoBuffer.length_content, Option.some_inj, lenStr_eq_decimal_iff]
    constructor
    · intro counted
      obtain fits | absent := counted
      · exact fits
      · cases absent.1
    · exact Or.inl
  · rw [and_iff_left rfl, or_comm]
    rfl

/-- This caller gives one Content-Length of its own. -/
def lengthFive : StringMap := ⟨[(ascii "Content-Length", ascii "5")], List.pairwise_singleton _ _⟩

/-- A POST request overrides the caller's length with the length of its two bytes. -/
theorem shortlinkFraming_post :
    Delimited (shortlinkRequest (ascii "/a") lengthFive (ByteBuffer.ofBytes [123, 125]) : RequestBuilder)
      (sentBody (ascii "/a") (ByteBuffer.ofBytes [123, 125])) (ByteBuffer.ofBytes [])
      (shortlinkPack RequestBuilder (ascii "/a") lengthFive (ByteBuffer.ofBytes [123, 125]) (ByteBuffer.ofBytes [])) :=
  (shortlinkFraming (ascii "/a") lengthFive (ByteBuffer.ofBytes [123, 125]) (ByteBuffer.ofBytes []) (by decide)
    (by decide)).mpr (by decide)

/-- A GET request announces the caller's five bytes and sends none. -/
theorem shortlinkFraming_get :
    ¬ Delimited (shortlinkRequest (ascii "/a?x=1") lengthFive (ByteBuffer.ofBytes []) : RequestBuilder)
      (sentBody (ascii "/a?x=1") (ByteBuffer.ofBytes [])) (ByteBuffer.ofBytes [])
      (shortlinkPack RequestBuilder (ascii "/a?x=1") lengthFive (ByteBuffer.ofBytes []) (ByteBuffer.ofBytes [])) := by
  intro delimited
  have counts := (countsSent_iff _ _).mp delimited.2
  rw [valueOf_shortlinkRequest _ _ _ (by decide)] at counts
  revert counts
  decide

end MarsWrapper
