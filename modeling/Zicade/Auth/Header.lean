import Zicade.Foundation.Utf8

/-! # Proxy-auth headers of the Negotiate and NTLM schemes

The gateway chooses the keyword, so it is carried with the handshake. The
base64 codec is a library the proxy calls; the development is parametric in it.
-/

namespace Zicade.Auth

open Zicade.Foundation

/-- The characters of base64 text, padding included. -/
def base64Alphabet : Text :=
  "ABCDEFGHIJKLMNOPQRSTUVWXYZabcdefghijklmnopqrstuvwxyz0123456789+/=".toList

/-- The `STANDARD` base64 engine, as documented. -/
structure Base64 where
  encode : Bytes → Text
  decode : Text → Option Bytes
  decode_encode : ∀ bytes, decode (encode bytes) = some bytes
  encode_alphabet : ∀ bytes, ∀ c ∈ encode bytes, c ∈ base64Alphabet

inductive AuthScheme
  | negotiate
  | ntlm
  deriving DecidableEq, Repr

def AuthScheme.keyword : AuthScheme → Text
  | .negotiate => "Negotiate".toList
  | .ntlm => "NTLM".toList

/-- What one challenge offers for the two schemes. -/
inductive NegotiateOffer
  | notOffered
  | offered (scheme : AuthScheme)
  | challenge (scheme : AuthScheme) (token : Bytes)
  deriving DecidableEq, Repr

namespace NegotiateOffer

def scheme : NegotiateOffer → Option AuthScheme
  | .notOffered => none
  | .offered s => some s
  | .challenge s _ => some s

/-- The continuation token, when the offer carries one. -/
def token : NegotiateOffer → Option Bytes
  | .challenge _ bytes => some bytes
  | .offered _ => none
  | .notOffered => none

end NegotiateOffer

/-- The scheme a keyword names, in any ASCII case. -/
def schemeOfKeyword (word : Text) : Option AuthScheme :=
  if eqIgnoreAsciiCase word "negotiate".toList then some .negotiate
  else if eqIgnoreAsciiCase word "ntlm".toList then some .ntlm
  else none

variable (base64 : Base64)

/-- A malformed token is a bare offer rather than fatal. -/
def parseProxyAuthenticate (value : Text) : NegotiateOffer :=
  let parts := splitWhitespaceOnce (trim value)
  match schemeOfKeyword parts.1 with
  | none => .notOffered
  | some scheme =>
      match (parts.2.map trim).filter (fun s => !s.isEmpty) with
      | none => .offered scheme
      | some token =>
          match base64.decode token with
          | some bytes => .challenge scheme bytes
          | none => .offered scheme

def buildProxyAuthorization (scheme : AuthScheme) (token : Bytes) : Text :=
  scheme.keyword ++ ' ' :: base64.encode token

/-- Basic credentials; the password may be empty. -/
def buildBasicAuthorization (username password : Text) : Text :=
  "Basic ".toList ++ base64.encode (asBytes (username ++ ':' :: password))

/-- What an offer says about its keyword is what its first word names. -/
theorem parseProxyAuthenticate_scheme (value : Text) :
    (parseProxyAuthenticate base64 value).scheme =
      schemeOfKeyword (splitWhitespaceOnce (trim value)).1 := by
  unfold parseProxyAuthenticate
  dsimp only
  split
  next hnone => rw [hnone]; rfl
  next scheme hscheme =>
    rw [hscheme]
    split
    · rfl
    · split <;> rfl

end Zicade.Auth
