import Zicade.Auth.Header
import Zicade.Auth.Handshake
import Zicade.Foundation.IoError

/-! # The per-connection auth driver

Both handshake loops ask this driver for the next `Proxy-Authorization` value.
`None` and `Basic` ignore what a 407 says; a Negotiate handshake learns its
keyword from the connection's first 407 and keeps it.
-/

namespace Zicade.Upstream

open Zicade.Foundation Zicade.Auth

/-- Response headers as lowercased names with their values. -/
abbrev Headers := List (Text × Text)

/-- How to authenticate; `factory` yields the state of a fresh authenticator. -/
inductive UpstreamAuth (σ : Type*)
  | none
  | basic (credentials : Text)
  | negotiate (factory : σ)

/-! ## Challenge lists -/

/-- A character an auth-scheme name may contain. -/
def isTchar (c : Char) : Bool :=
  ('a' ≤ c && c ≤ 'z') || ('A' ≤ c && c ≤ 'Z') || ('0' ≤ c && c ≤ '9') ||
    "!#$%&'*+-.^_`|~".toList.contains c

def schemeName (challenge : Text) : Text := firstWord challenge

/-- Whether a comma-separated piece starts a new challenge: its first word is a
bare token rather than a `name=value` parameter. -/
def startsChallenge (piece : Text) : Bool :=
  !(schemeName piece).isEmpty && (schemeName piece).all isTchar

def proxyAuthenticate : Text := "proxy-authenticate".toList

/-- The comma-separated pieces of one header value, trimmed. -/
def valuePieces (value : Text) : List Text := (value.splitOn ',').map trim

/-- Each challenge in the `Proxy-Authenticate` headers. -/
def challenges (headers : Headers) : List Text :=
  ((headers.filter (fun header => header.1 == proxyAuthenticate)).flatMap
    (fun header => valuePieces header.2)).filter startsChallenge

section

variable (base64 : Base64)

/-- The first challenge that offers Negotiate or NTLM, across every
`Proxy-Authenticate` header. -/
def negotiateOffer (headers : Headers) : NegotiateOffer :=
  (((challenges headers).map (parseProxyAuthenticate base64)).find?
    (fun offer => offer != .notOffered)).getD .notOffered

/-- The keyword to answer a connection's first 407 with. -/
def firstLegScheme (headers : Headers) (offer : NegotiateOffer) : Except IoError AuthScheme :=
  match offer.scheme with
  | some advertised => .ok advertised
  | none =>
      let offered := (challenges headers).map schemeName
      if offered.isEmpty then .ok .negotiate
      else
        let names := String.ofList (", ".toList.intercalate offered)
        .error (.ofMessage s!"upstream offers no Negotiate/NTLM proxy auth (offered: {names})")

end

/-! ## Answering a 407 -/

/-- The Negotiate half of the driver: the handshake and the keyword learned
from the connection's first 407. -/
structure NegotiateState (σ : Type*) where
  handshake : NegotiateHandshake σ
  scheme : Option AuthScheme

inductive AuthState (σ : Type*)
  | none
  | basic (credentials : Text) (sent : Bool)
  | negotiate (state : NegotiateState σ)

variable {σ : Type*}

namespace AuthState

def new : UpstreamAuth σ → AuthState σ
  | .none => .none
  | .basic credentials => .basic credentials false
  | .negotiate factory => .negotiate ⟨.new factory, .none⟩

/-- Only Basic sends preemptively; Negotiate opens with no auth. -/
def initialHeader : AuthState σ → Option Text × AuthState σ
  | .basic credentials _ => (some credentials, .basic credentials true)
  | .none => (Option.none, .none)
  | .negotiate state => (Option.none, .negotiate state)

end AuthState

def authIoErr (err : AuthError) : IoError :=
  .ofMessage s!"upstream negotiate handshake failed: {err.display}"

variable (base64 : Base64) (authenticator : Authenticator σ)

/-- Feed the challenge to the handshake for the next token. -/
def advanceHandshake (handshake : NegotiateHandshake σ) (challenge : Option Bytes) :
    Except IoError Bytes × NegotiateHandshake σ :=
  match handshake.onResponse authenticator (.proxyAuthRequired challenge) with
  | (.error err, next) => (.error (authIoErr err), next)
  | (.ok (.sendToken token), next) => (.ok token, next)
  | (.ok .complete, next) =>
      (.error (.ofMessage "handshake completed while upstream still demanded auth"), next)

/-- The keyword of one 407: the learned one, or else the one it teaches. -/
def legKeyword (scheme : Option AuthScheme) (headers : Headers) : Except IoError AuthScheme :=
  match scheme with
  | some learned => .ok learned
  | none => firstLegScheme headers (negotiateOffer base64 headers)

/-- Answer one 407 of a Negotiate or NTLM handshake. -/
def negotiateLeg (state : NegotiateState σ) (headers : Headers) :
    Except IoError Text × NegotiateState σ :=
  match legKeyword base64 state.scheme headers with
  | .error err => (.error err, state)
  | .ok keyword =>
      match advanceHandshake authenticator state.handshake
          (negotiateOffer base64 headers).token with
      | (.error err, handshake) => (.error err, ⟨handshake, some keyword⟩)
      | (.ok token, handshake) =>
          (.ok (buildProxyAuthorization base64 keyword token), ⟨handshake, some keyword⟩)

namespace AuthState

/-- The next `Proxy-Authorization` value in response to a 407, or why this auth
mode cannot answer another challenge. -/
def onChallenge (state : AuthState σ) (headers : Headers) : Except IoError Text × AuthState σ :=
  match state with
  | .none =>
      (.error (.ofMessage "upstream demanded proxy auth but none is configured"), .none)
  | .basic credentials sent =>
      if sent then
        (.error (.ofMessage "upstream rejected Basic proxy credentials"), .basic credentials sent)
      else (.ok credentials, .basic credentials true)
  | .negotiate negotiation =>
      match negotiateLeg base64 authenticator negotiation headers with
      | (result, next) => (result, .negotiate next)

end AuthState

/-- A value is built under the keyword of its leg, which is kept. -/
theorem negotiateLeg_ok {state next : NegotiateState σ} {headers : Headers} {value : Text}
    (hok : negotiateLeg base64 authenticator state headers = (.ok value, next)) :
    ∃ keyword token, legKeyword base64 state.scheme headers = .ok keyword ∧
      value = buildProxyAuthorization base64 keyword token ∧ next.scheme = some keyword ∧
      advanceHandshake authenticator state.handshake
        (negotiateOffer base64 headers).token = (.ok token, next.handshake) := by
  unfold negotiateLeg at hok
  cases hkeyword : legKeyword base64 state.scheme headers with
  | error err => simp [hkeyword] at hok
  | ok keyword =>
      simp only [hkeyword] at hok
      split at hok
      next => simp at hok
      next token handshake hadvance =>
        obtain ⟨hvalue, rfl⟩ := Prod.mk.inj hok
        exact ⟨keyword, token, rfl, (Except.ok.inj hvalue).symm, rfl, hadvance⟩

/-- An answer is the Basic credentials, once, or the next value of a handshake. -/
theorem onChallenge_cases {state next : AuthState σ} {headers : Headers} {value : Text}
    (hanswer : state.onChallenge base64 authenticator headers = (.ok value, next)) :
    (state = .basic value false ∧ next = .basic value true) ∨
      ∃ before after, state = .negotiate before ∧ next = .negotiate after ∧
        negotiateLeg base64 authenticator before headers = (.ok value, after) := by
  cases state with
  | none => cases (Prod.mk.inj hanswer).1
  | basic credentials sent =>
      cases sent with
      | false =>
          obtain ⟨hvalue, rfl⟩ := Prod.mk.inj hanswer
          obtain rfl := Except.ok.inj hvalue
          exact .inl ⟨rfl, rfl⟩
      | true => cases (Prod.mk.inj hanswer).1
  | negotiate before =>
      obtain ⟨hvalue, rfl⟩ := Prod.mk.inj hanswer
      exact .inr ⟨before, _, rfl, rfl, Prod.ext hvalue rfl⟩

/-! ## Token characters -/

theorem isTchar_lt {c : Char} (hc : isTchar c) : c.toNat < 128 := by
  have hle : ∀ d : Char, c ≤ d → c.toNat ≤ d.toNat := fun d h => h
  simp only [isTchar, Bool.or_eq_true, Bool.and_eq_true, decide_eq_true_eq] at hc
  rcases hc with ((⟨-, hz⟩ | ⟨-, hz⟩) | ⟨-, hz⟩) | hmem
  · exact Nat.lt_of_le_of_lt (hle 'z' hz) (by decide)
  · exact Nat.lt_of_le_of_lt (hle 'Z' hz) (by decide)
  · exact Nat.lt_of_le_of_lt (hle '9' hz) (by decide)
  · have hall : ∀ d ∈ "!#$%&'*+-.^_`|~".toList, d.toNat < 128 := by decide
    exact hall c (List.contains_iff_mem.mp hmem)

/-- A decidable fact about every token character needs checking below 128 only. -/
theorem of_isTchar {P : Char → Prop}
    (h : ∀ n < 128, isTchar (Char.ofNat n) = true → P (Char.ofNat n)) {c : Char}
    (hc : isTchar c) : P c := by
  have := h c.toNat (isTchar_lt hc)
  rw [Char.ofNat_toNat] at this
  exact this hc

theorem isTchar_not_whitespace {c : Char} (hc : isTchar c) : isWhitespace c = false :=
  of_isTchar (P := fun c => isWhitespace c = false) (by decide) hc

theorem isTchar_ne {c : Char} (hc : isTchar c) : c ≠ ':' ∧ c ≠ '\r' ∧ c ≠ '\n' :=
  of_isTchar (P := fun c => c ≠ ':' ∧ c ≠ '\r' ∧ c ≠ '\n') (by decide) hc

/-! ## What the driver reads of a 407 -/

theorem negotiateOffer_of_challenges_eq {left right : Headers}
    (heq : challenges left = challenges right) :
    negotiateOffer base64 left = negotiateOffer base64 right := by
  rw [negotiateOffer, negotiateOffer, heq]

end Zicade.Upstream
