import Mathlib.Data.List.Lex
import Mathlib.Data.List.TakeWhile
import MarsWrapper.Foundation.Decimal
import MarsWrapper.Foundation.FieldMap
import MarsWrapper.Model.AutoBuffer

namespace MarsWrapper

open Foundation.Decimal Foundation.FieldMap AutoBufferApi

/-- A `std::string` is a byte string. -/
abbrev Text := List UInt8

/-- A string literal of the source has one byte for each letter. -/
def ascii (literal : String) : Text := literal.toList.map fun letter => UInt8.ofNat letter.toNat

/-- The text behind `c_str()` ends before its first zero byte. -/
def cStr (text : Text) : Text := text.takeWhile fun byte => byte != 0

theorem cStr_of_clean {text : Text} (clean : 0 ∉ text) : cStr text = text := by
  unfold cStr
  apply List.takeWhile_eq_self_iff.mpr
  intro byte member
  rw [bne_iff_ne]
  intro zero
  exact clean (zero ▸ member)

/-- The names of header fields differ only up to the case of their letters. -/
def foldCase (name : Text) : List Nat :=
  name.map fun byte => if 65 ≤ byte.toNat ∧ byte.toNat ≤ 90 then byte.toNat + 32 else byte.toNat

/-- A `std::map` of strings keeps its entries in the order of the bytes of their keys. -/
structure StringMap where
  entries : List (Text × Text)
  ordered : Ordered (List.map UInt8.toNat) entries

inductive HttpVersion where
  | kVersion_0_9
  | kVersion_1_0
  | kVersion_1_1
  | kVersion_2_0
  | kVersion_Unknow

inductive HttpMethod where
  | kUnknown
  | kGet
  | kPost
  | kOptions
  | kHead
  | kPut
  | kDelete
  | kTrace
  | kConnect

/-- This class lists what the packer uses of Mars's `http::Builder` in the mode `kRequest`.
`requestLine` and `fields` are the parts of the request that its header block shows. -/
class HttpApi (Builder : Type) where
  builder : Builder
  method : Builder → HttpMethod → Builder
  version : Builder → HttpVersion → Builder
  url : Builder → Text → Builder
  headerFiled : Builder → Text × Text → Builder
  makeAcceptAll : Text × Text
  makeCacheControlNoCache : Text × Text
  makeConnectionClose : Text × Text
  kStringUserAgent : Text
  kStringMicroMessenger : Text
  kStringContentLength : Text
  requestLine : Builder → Text
  fields : Builder → List (Text × Text)

def crlf : Text := [13, 10]

/-- The header block is the request line, each field once and an empty line. -/
def headerBlock {Builder : Type} [HttpApi Builder] (request : Builder) : Text :=
  HttpApi.requestLine request ++
    (HttpApi.fields request).flatMap (fun field => field.1 ++ ascii ": " ++ field.2 ++ crlf) ++ crlf

def contentLengthName : Text := ascii "Content-Length"

/-- The fields of a request are a map with names of any case, and the last write to a name wins. -/
class Http (Builder : Type) extends HttpApi Builder where
  fields_builder : fields builder = []
  fields_method : ∀ request value, fields (method request value) = fields request
  fields_version : ∀ request value, fields (version request value) = fields request
  fields_url : ∀ request value, fields (url request value) = fields request
  distinct_fields : ∀ request, Distinct foldCase (fields request)
  valueOf_written : ∀ request field name, foldCase field.1 = foldCase name →
    valueOf foldCase (fields (headerFiled request field)) name = some field.2
  valueOf_kept : ∀ request field name, foldCase field.1 ≠ foldCase name →
    valueOf foldCase (fields (headerFiled request field)) name = valueOf foldCase (fields request) name
  contentLength_name : kStringContentLength = contentLengthName
  accept_name : foldCase makeAcceptAll.1 ≠ foldCase contentLengthName
  userAgent_name : foldCase kStringUserAgent ≠ foldCase contentLengthName
  cacheControl_name : foldCase makeCacheControlNoCache.1 ≠ foldCase contentLengthName
  connection_name : foldCase makeConnectionClose.1 ≠ foldCase contentLengthName

class HttpWriterApi (Builder Buffer : Type) where
  headerToBuffer : Builder → Buffer → Buffer

/-- `HeaderToBuffer` writes the header block at the position of the buffer. -/
class HttpWriter (Builder Buffer : Type) [HttpApi Builder] [AutoBufferApi Buffer]
    extends HttpWriterApi Builder Buffer where
  content_headerToBuffer : ∀ (request : Builder) (out : Buffer), pos out ≤ length out →
    content (headerToBuffer request out) = splice (content out) (pos out) (headerBlock request)
  pos_headerToBuffer : ∀ (request : Builder) (out : Buffer), pos out ≤ length out →
    pos (headerToBuffer request out) = pos out + (headerBlock request).length

open HttpApi HttpWriterApi

/-- A URL without a question mark selects the POST method. -/
def isPost (url : Text) : Bool := !url.contains 63

/-- The `snprintf` format `%u` takes the low 32 bits, and the array leaves room for 31 digits. -/
def lenStr (bodyLength : Nat) : Text := (decimal (UInt32.ofNat bodyLength).toNat).take 31

variable {Builder Buffer : Type} [HttpApi Builder] [AutoBufferApi Buffer]

/-- The packer writes the fixed fields, the fields of the caller and the fields of the body in this order. -/
def shortlinkRequest (url : Text) (headers : StringMap) (body : Buffer) : Builder :=
  let started : Builder := version (method builder (if isPost url then .kPost else .kGet)) .kVersion_1_1
  let accepting := headerFiled started (makeAcceptAll Builder)
  let named := headerFiled accepting (kStringUserAgent Builder, kStringMicroMessenger Builder)
  let uncached := headerFiled named (makeCacheControlNoCache Builder)
  let closing := headerFiled uncached (makeConnectionClose Builder)
  let called := headers.entries.foldl (fun request header => headerFiled request (cStr header.1, cStr header.2)) closing
  let addressed := HttpApi.url called url
  if isPost url then
    headerFiled (headerFiled addressed (ascii "Content-Type", ascii "application/json"))
      (kStringContentLength Builder, lenStr (length body))
  else addressed

/-- A POST request carries the body behind its header block, and a GET request ends with the block. -/
def shortlinkPack (Builder : Type) {Buffer : Type} [HttpApi Builder] [AutoBufferApi Buffer]
    [HttpWriterApi Builder Buffer] (url : Text) (headers : StringMap) (body out : Buffer) : Buffer :=
  let request : Builder := shortlinkRequest url headers body
  if isPost url then write (headerToBuffer request out) (content body)
  else headerToBuffer request out

/-- This builder keeps its fields as an ordered map. -/
structure RequestBuilder where
  httpMethod : HttpMethod
  reqUrl : Text
  httpVersion : HttpVersion
  headers : List (Text × Text)
  ordered : Ordered foldCase headers

namespace RequestBuilder

def httpMethodString : HttpMethod → String
  | .kUnknown => "UNKNOWN"
  | .kGet => "GET"
  | .kPost => "POST"
  | .kOptions => "OPTIONS"
  | .kHead => "HEAD"
  | .kPut => "PUT"
  | .kDelete => "DELETE"
  | .kTrace => "TRACE"
  | .kConnect => "CONNECT"

def httpVersionString : HttpVersion → String
  | .kVersion_0_9 => "HTTP/0.9"
  | .kVersion_1_0 => "HTTP/1.0"
  | .kVersion_1_1 => "HTTP/1.1"
  | .kVersion_2_0 => "HTTP/2"
  | .kVersion_Unknow => "version_unknown"

instance : HttpApi RequestBuilder where
  builder := ⟨.kUnknown, [], .kVersion_Unknow, [], List.Pairwise.nil⟩
  method request value := {request with httpMethod := value}
  version request value := {request with httpVersion := value}
  url request value := {request with reqUrl := value}
  headerFiled request field :=
    {request with
      headers := update foldCase request.headers field.1 field.2
      ordered := request.ordered.update field.1 field.2}
  makeAcceptAll := (ascii "Accept", ascii "*/*")
  makeCacheControlNoCache := (ascii "Cache-Control", ascii "no-cache")
  makeConnectionClose := (ascii "Connection", ascii "close")
  kStringUserAgent := ascii "User-Agent"
  kStringMicroMessenger := ascii "MicroMessenger Client"
  kStringContentLength := ascii "Content-Length"
  requestLine request :=
    ascii (httpMethodString request.httpMethod) ++ ascii " " ++ request.reqUrl ++ ascii " " ++
      ascii (httpVersionString request.httpVersion) ++ crlf
  fields := headers

instance : Http RequestBuilder where
  fields_builder := rfl
  fields_method _ _ := rfl
  fields_version _ _ := rfl
  fields_url _ _ := rfl
  distinct_fields request := request.ordered.distinct
  valueOf_written _ _ _ := valueOf_update_of_eq
  valueOf_kept _ _ _ := valueOf_update_of_ne
  contentLength_name := rfl
  accept_name := by decide
  userAgent_name := by decide
  cacheControl_name := by decide
  connection_name := by decide

instance : HttpWriter RequestBuilder ByteBuffer where
  headerToBuffer request out := write out (headerBlock request)
  content_headerToBuffer request out seated := AutoBuffer.content_write out (headerBlock request) seated
  pos_headerToBuffer _ _ _ := rfl

end RequestBuilder

end MarsWrapper
