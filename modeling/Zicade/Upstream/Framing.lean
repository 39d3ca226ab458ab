import Zicade.Upstream.Wire

/-! # Well-formed responses on the wire

A response is a status line, field lines, and a body delimited by a length or
by chunks. Rendering one gives the bytes a conforming gateway sends, so the wire
helpers can be compared with the message they read. Extensions, trailers, and
padding are kept byte for byte; only the line structure is fixed.
-/

namespace Zicade.Upstream

open Zicade.Foundation Zicade.Net

/-! ## Heads -/

/-- A byte of a field value or reason phrase: tab, visible, or beyond ASCII. -/
def isFieldByte (b : UInt8) : Bool := b.toNat == 9 || (32 ≤ b.toNat && b.toNat != 127)

/-- A field line, with the value as it stands after the colon. -/
structure Field where
  name : Text
  value : Bytes
  name_ne_nil : name ≠ []
  name_tchar : ∀ c ∈ name, isTchar c
  value_field : ∀ b ∈ value, isFieldByte b

def Field.line (field : Field) : Bytes := ascii field.name ++ 58 :: field.value

/-- The pair a head parser keeps of a field line. -/
def Field.read (field : Field) : Text × Text :=
  (toAsciiLowercase field.name, trim (fromUtf8Lossy field.value))

structure ResponseHead where
  status : Nat
  reason : Bytes
  fields : List Field
  status_lt : status < 1000
  reason_field : ∀ b ∈ reason, isFieldByte b

def digitChar (d : Nat) : Char := Char.ofNat (48 + d)

def statusDigits (status : Nat) : Text :=
  [digitChar (status / 100), digitChar (status / 10 % 10), digitChar (status % 10)]

/-- Lines as a head carries them, with the empty line that ends it. -/
def encodeLines (lines : List Bytes) : Bytes := lines.flatMap (· ++ crlf) ++ crlf

namespace ResponseHead

def statusLine (head : ResponseHead) : Bytes :=
  ascii ("HTTP/1.1 ".toList ++ statusDigits head.status ++ " ".toList) ++ head.reason

def encode (head : ResponseHead) : Bytes :=
  encodeLines (head.statusLine :: head.fields.map Field.line)

def headers (head : ResponseHead) : Headers := head.fields.map Field.read

/-- The status and headers a leg should read. -/
def parsed (head : ResponseHead) : Head := (head.status, head.headers)

end ResponseHead

/-! ## Bodies -/

structure ChunkExtension where
  padding : Bytes
  text : Bytes
  padding_blank : ∀ b ∈ padding, b = 32 ∨ b = 9
  text_field : ∀ b ∈ text, isFieldByte b

def ChunkExtension.encode (extension : ChunkExtension) : Bytes :=
  extension.padding ++ 59 :: extension.text

/-- A chunk-size line: hexadecimal digits, leading zeros included, and any
extensions. -/
structure SizeLine where
  digits : Text
  size : Nat
  extension : Option ChunkExtension
  digits_ne_nil : digits ≠ []
  digits_size : digitsValue 16 digits = some size

def SizeLine.encode (line : SizeLine) : Bytes :=
  ascii line.digits ++ ((line.extension.map ChunkExtension.encode).getD [] ++ crlf)

structure Chunk where
  line : SizeLine
  data : Bytes
  data_ne_nil : data ≠ []
  line_size : line.size = data.length

def Chunk.encode (chunk : Chunk) : Bytes := chunk.line.encode ++ (chunk.data ++ crlf)

inductive Body
  | empty
  | sized (data : Bytes)
  | chunked (chunks : List Chunk) (last : { line : SizeLine // line.size = 0 })
      (trailers : List Field)

namespace Body

def encode : Body → Bytes
  | .empty => []
  | .sized data => data
  | .chunked chunks last trailers =>
      chunks.flatMap Chunk.encode ++ (last.val.encode ++ encodeLines (trailers.map Field.line))

/-- How many bytes of content the body carries. -/
def size : Body → Nat
  | .empty => 0
  | .sized data => data.length
  | .chunked chunks _ _ => (chunks.flatMap (·.data)).length

end Body

def transferEncoding : Text := "transfer-encoding".toList

/-- The values of the fields with a given lowercased name. -/
def fieldValues (headers : Headers) (name : Text) : List Text :=
  (headers.filter fun header => header.1 == name).map Prod.snd

/-- A status whose response has no body whatever its headers say. -/
def bodiless (status : Nat) : Bool := status / 100 == 1 || status == 204 || status == 304

/-- The body is the one the head announces: chunked when a `Transfer-Encoding`
field names it, whether or not there is a length, and otherwise as long as its
one `Content-Length` says. -/
def Framed (head : ResponseHead) : Body → Prop
  | .empty => bodiless head.status ∨ (fieldValues head.headers transferEncoding = [] ∧
      fieldValues head.headers "content-length".toList = [])
  | .sized data => fieldValues head.headers transferEncoding = [] ∧
      ∃ digits, fieldValues head.headers "content-length".toList = [digits] ∧
        digits ≠ [] ∧ digitsValue 10 digits = some data.length
  | .chunked _ _ _ => ∃ value ∈ fieldValues head.headers transferEncoding,
      contains "chunked".toList (toAsciiLowercase value)

/-- A response with its framed body. -/
structure Response where
  head : ResponseHead
  body : Body
  framed : Framed head body

def Response.encode (response : Response) : Bytes :=
  response.head.encode ++ response.body.encode

theorem isFieldByte_ne {b : UInt8} (hb : isFieldByte b) : b ≠ cr ∧ b ≠ lf := by
  constructor
  · rintro rfl
    exact absurd hb (by decide)
  · rintro rfl
    exact absurd hb (by decide)

end Zicade.Upstream
