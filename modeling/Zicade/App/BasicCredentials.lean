import Zicade.App.Routing
import Zicade.Auth.Base64

/-! # Basic credentials as the receiver reads them

A receiver takes the scheme off, decodes what is left, and splits it at the first colon.
The credentials are joined with a colon too, and nothing keeps one out of a username.
-/

namespace Zicade.App

open Zicade.Foundation Zicade.Schema Zicade.Auth Zicade.Upstream

/-! ## The receiver -/

variable (base64 : Base64)

/-- The username and password that a header value carries, as RFC 7617 has them read. -/
def receiveBasic (value : Text) : Option (Text × Text) := do
  let encoded ← value.dropPrefix? "Basic ".toList
  let bytes ← base64.decode encoded
  let credentials ← fromUtf8 bytes
  splitOnce ':' credentials

/-- What was joined is split at the first colon there is. -/
theorem receiveBasic_buildBasicAuthorization (username password : Text) :
    receiveBasic base64 (buildBasicAuthorization base64 username password) =
      splitOnce ':' (username ++ ':' :: password) := by
  have hscheme : (buildBasicAuthorization base64 username password).dropPrefix? "Basic ".toList =
      some (base64.encode (asBytes (username ++ ':' :: password))) :=
    List.dropPrefix?_append_of_beq _ (beq_self_eq_true _)
  rw [receiveBasic, hscheme, Option.bind_eq_bind, Option.bind_some, base64.decode_encode]
  rw [Option.bind_eq_bind, Option.bind_some, fromUtf8_asBytes]
  rfl

theorem receiveBasic_eq_iff (username password : Text) :
    receiveBasic base64 (buildBasicAuthorization base64 username password) =
      some (username, password) ↔ ':' ∉ username := by
  rw [receiveBasic_buildBasicAuthorization]
  exact ⟨fun hsplit => (eq_of_splitOnce hsplit).2, splitOnce_append password⟩

/-! ## Slots of validated configs -/

/-- A slot in Basic mode of a config that validates. -/
structure BasicSlot where
  ctx : ValidationCtx
  config : Config
  valid : config.validate ctx = .ok ()
  auth : AuthConfig
  isSlot : config.upstreamAuth = some auth ∨ config.pacAuth = some auth
  basic : auth.mode = .basic

namespace BasicSlot

def username (slot : BasicSlot) : Text := slot.auth.username.getD []

def password (slot : BasicSlot) : Text := slot.auth.password.getD []

variable {σ : Type*} (sspi : Text → SspiPackage → σ)

/-- The slot makes a proxy at this host be sent this value. -/
def Sends (slot : BasicSlot) (host value : Text) : Prop :=
  buildAuth base64 sspi slot.auth host = .basic value

variable {base64 sspi}

theorem sends_iff (slot : BasicSlot) (host value : Text) :
    slot.Sends base64 sspi host value ↔
      value = buildBasicAuthorization base64 slot.username slot.password := by
  rw [Sends, buildAuth, slot.basic]
  exact ⟨fun hsent => (UpstreamAuth.basic.inj hsent).symm, fun hvalue => hvalue ▸ rfl⟩

variable (base64 sspi)

/-- What the slot sends is read as its username and password, and no slot with another
username or password, if it is read right itself, sends the same. -/
structure Decodable (slot : BasicSlot) (host : Text) : Prop where
  givenBack : ∀ value, slot.Sends base64 sspi host value →
    receiveBasic base64 value = some (slot.username, slot.password)
  apart : ∀ (other : BasicSlot) (otherHost value : Text), ':' ∉ other.username →
    slot.Sends base64 sspi host value → other.Sends base64 sspi otherHost value →
      other.username = slot.username ∧ other.password = slot.password

/-- A validated Basic slot is decodable when there is no colon in its username. -/
theorem decodable_iff (slot : BasicSlot) (host : Text) :
    slot.Decodable base64 sspi host ↔ ':' ∉ slot.username := by
  constructor
  · intro hdecodable
    have hread := hdecodable.givenBack _ ((slot.sends_iff host _).mpr rfl)
    exact (receiveBasic_eq_iff base64 _ _).mp hread
  · intro hcolon
    have hread := (receiveBasic_eq_iff base64 slot.username slot.password).mpr hcolon
    constructor
    · intro value hsent
      rw [(slot.sends_iff host value).mp hsent]
      exact hread
    · intro other otherHost value hother hsent hsame
      rw [← (slot.sends_iff host value).mp hsent, (other.sends_iff otherHost value).mp hsame,
        (receiveBasic_eq_iff base64 _ _).mpr hother] at hread
      exact Prod.mk.inj (Option.some.inj hread)

/-- The upstream slot of a config with these credentials. -/
def ofUpstream (username password : Text) (hnonempty : trim username ≠ []) : BasicSlot :=
  let auth : AuthConfig :=
    { mode := .basic, username := some username, password := some password }
  { ctx := ⟨true⟩
    config := {
      routing := {
        mode := .upstream
        upstream := some { host := "proxy.example".toList, port := 8080, auth } } }
    valid := by
      have hchecked : checkAuth auth "routing.upstream.auth" ⟨true⟩ = .ok () := by
        simp [checkAuth, auth, hnonempty]
      simp only [Config.validate, checkUpstream, checkPresent, hchecked]
      rfl
    auth
    isSlot := .inl rfl
    basic := rfl }

/-- With a colon in the username the receiver reads another username, that of a slot that
sends the very same value. -/
theorem colon_read_elsewhere :
    ¬(ofUpstream "corp:alice".toList "s3cret".toList (by decide)).Decodable standardBase64
        (fun _ _ => ()) "proxy.example".toList ∧
      ∃ value, (ofUpstream "corp:alice".toList "s3cret".toList (by decide)).Sends standardBase64
          (fun _ _ => ()) "proxy.example".toList value ∧
        (ofUpstream "corp".toList "alice:s3cret".toList (by decide)).Sends standardBase64
          (fun _ _ => ()) "proxy.example".toList value ∧
        receiveBasic standardBase64 value = some ("corp".toList, "alice:s3cret".toList) := by
  have hread : receiveBasic standardBase64
      (buildBasicAuthorization standardBase64 "corp:alice".toList "s3cret".toList) =
        some ("corp".toList, "alice:s3cret".toList) := by
    rw [receiveBasic_buildBasicAuthorization]
    decide
  refine ⟨fun hdecodable => ?_, _, (sends_iff _ _ _).mpr rfl, (sends_iff _ _ _).mpr rfl, hread⟩
  have hsame := hdecodable.givenBack _ ((sends_iff _ _ _).mpr rfl)
  exact absurd (hread.symm.trans hsame) (by decide)

end BasicSlot

end Zicade.App
