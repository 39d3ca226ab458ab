import Zicade.Auth.Base64
import Zicade.Upstream.Conversation

/-! # Forwarding a request through the upstream

The forward path sends the client's request again on every leg and reads the
answers through an HTTP client, whose header map it flattens for the same auth
driver. The client library is a parameter with its documented behaviour.
-/

namespace Zicade.Upstream

open Zicade.Foundation Zicade.Auth Zicade.Net

/-- Space and tab around a field value, which the client's parser removes. -/
def trimOws (value : Bytes) : Bytes :=
  (value.dropWhile fun b => b == 32 || b == 9).rdropWhile fun b => b == 32 || b == 9

/-- A field as a header map holds it. -/
def Field.received (field : Field) : Text × Bytes :=
  (toAsciiLowercase field.name, trimOws field.value)

def isVisibleAscii (b : UInt8) : Bool := (32 ≤ b.toNat && b.toNat < 127) || b.toNat == 9

/-- The `http` crate under the HTTP client: `HeaderMap::iter` on a received
head, `HeaderValue::to_str`, and `HeaderValue::try_from` on a string. A map is
iterated in any order of names but keeps the values of one name in order. The
client has limits of its own on a head and on the lines of a chunked body. -/
structure HttpCrate where
  iter : List Field → List (Text × Bytes)
  toStr : Bytes → Option Text
  headerValue : Text → Option Bytes
  takesHead : ResponseHead → Bool
  takesBody : Body → Bool
  iter_filter : ∀ fields name, (iter fields).filter (fun header => header.1 == name) =
    (fields.map Field.received).filter fun header => header.1 == name
  toStr_eq : ∀ value,
    toStr value = if value.all isVisibleAscii then some (value.map asciiChar) else none
  headerValue_eq : ∀ text,
    headerValue text = if (asBytes text).all isFieldByte then some (asBytes text) else none

/-- The crate whose maps are iterated in the order received, under a client that
takes a head of up to a hundred fields. -/
def orderedHttp : HttpCrate where
  iter fields := fields.map Field.received
  toStr value := if value.all isVisibleAscii then some (value.map asciiChar) else none
  headerValue text := if (asBytes text).all isFieldByte then some (asBytes text) else none
  takesHead head := decide (100 ≤ head.status ∧ head.fields.length ≤ 100)
  takesBody _ := true
  iter_filter _ _ := rfl
  toStr_eq _ := rfl
  headerValue_eq _ := rfl

/-- What a forwarded request is built from, its header names in lower case. -/
structure Parts where
  method : Text
  uri : Text
  headers : List (Text × Bytes)
  deriving DecidableEq, Repr

structure Request where
  parts : Parts
  body : Bytes
  deriving DecidableEq, Repr

inductive ForwardError
  | io (err : IoError)
  | invalidHeaderValue
  | invalidResponse
  | bodyTooLarge
  | connectionClosed
  | exhausted
  deriving DecidableEq, Repr

def proxyAuthorization : Text := "proxy-authorization".toList

/-- The client headers that are not sent upstream. -/
def strippedHeaders : List Text :=
  ["content-length".toList, "transfer-encoding".toList, "connection".toList,
    "proxy-connection".toList, proxyAuthorization]

structure ForwardLeg where
  request : Request
  status : Option Nat
  deriving DecidableEq, Repr

structure ForwardRun where
  legs : List ForwardLeg
  result : Except ForwardError (Response × Nat)

def ForwardRun.cons (leg : ForwardLeg) (run : ForwardRun) : ForwardRun :=
  { run with legs := leg :: run.legs }

section

variable (http : HttpCrate)

/-- Response headers as pairs, without the values that are not plain text. -/
def headerPairs (fields : List Field) : Headers :=
  (http.iter fields).filterMap fun header =>
    (http.toStr header.2).map fun text => (header.1, text)

/-- The upstream leg of a forwarded request. -/
def upstreamRequest (parts : Parts) (body : Bytes) (auth : Option Text) :
    Except ForwardError Request :=
  let kept := parts.headers.filter fun header => !strippedHeaders.contains header.1
  let headers := kept ++ [("connection".toList, ascii "keep-alive".toList)]
  match auth with
  | none => .ok ⟨{ parts with headers }, body⟩
  | some value =>
      match http.headerValue value with
      | none => .error .invalidHeaderValue
      | some bytes => .ok ⟨{ parts with headers := headers ++ [(proxyAuthorization, bytes)] }, body⟩

/-! ## The client's side of a response -/

/-- An interim response, which the client passes over. -/
def Response.interim (response : Response) : Bool :=
  response.head.status / 100 == 1 && response.head.status != 101

/-- The values of a name in a received head, in order. -/
def ResponseHead.received (head : ResponseHead) (name : Text) : List Bytes :=
  ((head.fields.map Field.received).filter fun header => header.1 == name).map Prod.snd

/-- The items of a comma-separated value, in lower case. -/
def listItems (value : Bytes) : List Text :=
  (((http.toStr value).getD []).splitOn ',').map fun item => toAsciiLowercase (trim item)

/-- The body has no end of its own and lasts until the upstream closes: its last
coding is not `chunked`, or it has neither a coding nor a length. -/
def closeDelimited (head : ResponseHead) : Bool :=
  match (head.received transferEncoding).getLast? with
  | some value => (listItems http value).getLast? != some "chunked".toList
  | none => (head.received "content-length".toList).isEmpty

/-- The client gives the connection up after this response. -/
def closesAfter (head : ResponseHead) : Bool :=
  (head.received "connection".toList).any fun value =>
    (listItems http value).contains "close".toList

/-- `Limited` on the body of a 407, read to its end: the responses that are left, if
the connection is. A `HEAD` is answered without a body, and a body without an end
of its own takes in whatever the upstream still sends. -/
def collectBody (method : Text) (response : Response) (rest : List Response) :
    Except ForwardError (Option (List Response)) :=
  let kept := if closesAfter http response.head then none else some rest
  if method = "HEAD".toList then .ok kept
  else if closeDelimited http response.head then
    if maxDrainBytes < (response.body.encode ++ rest.flatMap Response.encode).length then
      .error .bodyTooLarge
    else .ok none
  else if !http.takesBody response.body then .error .invalidResponse
  else if maxDrainBytes < response.body.size then .error .bodyTooLarge
  else .ok kept

/-! ## The loop -/

variable {σ : Type*} (base64 : Base64) (authenticator : Authenticator σ) (parts : Parts)
  (body : Bytes)

/-- The legs that are left, `leg` of them sent already, on a connection on which the
gateway answers with these responses; none is left once the client gave it up. -/
def forwardLegs : Nat → Nat → AuthState σ → Option Text → Option (List Response) → ForwardRun
  | 0, _, _, _, _ => ⟨[], .error .exhausted⟩
  | _ + 1, _, _, _, none => ⟨[], .error .connectionClosed⟩
  | left + 1, leg, authState, auth, some responses =>
      match upstreamRequest http parts body auth with
      | .error err => ⟨[], .error err⟩
      | .ok request =>
          match responses.dropWhile Response.interim with
          | [] => ⟨[⟨request, none⟩], .error .connectionClosed⟩
          | response :: rest =>
              let answered : ForwardLeg := ⟨request, some response.head.status⟩
              if !http.takesHead response.head then ⟨[⟨request, none⟩], .error .invalidResponse⟩
              else if response.head.status ≠ 407 then ⟨[answered], .ok (response, leg + 1)⟩
              else match collectBody http parts.method response rest with
                | .error err => ⟨[answered], .error err⟩
                | .ok connection =>
                    match authState.onChallenge base64 authenticator
                        (headerPairs http response.head.fields) with
                    | (.error err, _) => ⟨[answered], .error (.io err)⟩
                    | (.ok value, authState) =>
                        (forwardLegs left (leg + 1) authState (some value) connection).cons answered

/-- The round of a request whose answer the client takes. -/
theorem forwardLegs_of_taken {left leg : Nat} {authState : AuthState σ} {auth : Option Text}
    {request : Request} {response : Response} {rest : List Response}
    (hrequest : upstreamRequest http parts body auth = .ok request)
    (hfinal : response.interim = false) (htaken : http.takesHead response.head = true) :
    forwardLegs http base64 authenticator parts body (left + 1) leg authState auth
        (some (response :: rest)) =
      if response.head.status ≠ 407 then
        ⟨[⟨request, some response.head.status⟩], .ok (response, leg + 1)⟩
      else match collectBody http parts.method response rest with
        | .error err => ⟨[⟨request, some response.head.status⟩], .error err⟩
        | .ok connection =>
            match authState.onChallenge base64 authenticator
                (headerPairs http response.head.fields) with
            | (.error err, _) => ⟨[⟨request, some response.head.status⟩], .error (.io err)⟩
            | (.ok value, authState) =>
                (forwardLegs http base64 authenticator parts body left (leg + 1) authState
                  (some value) connection).cons ⟨request, some response.head.status⟩ := by
  have hnext : (response :: rest).dropWhile Response.interim = response :: rest :=
    List.dropWhile_cons_of_neg (by simp [hfinal])
  simp only [forwardLegs, hrequest, hnext, htaken, Bool.not_true, Bool.false_eq_true, if_false]

/-- Resend the request until the upstream answers anything but a 407. -/
def forwardHandshake (auth : UpstreamAuth σ) (responses : List Response) : ForwardRun :=
  let start := (AuthState.new auth).initialHeader
  forwardLegs http base64 authenticator parts body maxLegs 0 start.2 start.1 (some responses)

end

end Zicade.Upstream
