import Zicade.Foundation.Text

/-! # The Negotiate handshake state machine

The caller performs the requests and feeds each upstream response in; the
machine answers with the next token or says that it is finished. The
authenticator is any stateful producer of tokens, which may fail at any step.
-/

namespace Zicade.Auth

open Zicade.Foundation

inductive AuthError
  | tooManyLegs (max : Nat)
  | rejected
  | authenticator (message : String)
  deriving DecidableEq, Repr

def AuthError.display : AuthError → String
  | .tooManyLegs max => s!"negotiate handshake exceeded {max} legs"
  | .rejected => "upstream rejected the negotiate credentials"
  | .authenticator message => s!"authenticator failed: {message}"

/-- The `UpstreamAuthenticator` seam over an arbitrary context state. -/
structure Authenticator (σ : Type*) where
  step : σ → Option Bytes → Except AuthError Bytes × σ

/-- Numbers its tokens, whatever it is challenged with. -/
def countingAuthenticator : Authenticator Nat := ⟨fun n _ => (.ok [UInt8.ofNat n], n + 1)⟩

inductive UpstreamResponse
  | proxyAuthRequired (challenge : Option Bytes)
  | success
  | other (status : Nat)
  deriving DecidableEq, Repr

inductive HandshakeStep
  | sendToken (token : Bytes)
  | complete
  deriving DecidableEq, Repr

/-- `DEFAULT_MAX_LEGS`. -/
def defaultMaxLegs : Nat := 10

structure NegotiateHandshake (σ : Type*) where
  auth : σ
  legs : Nat
  maxLegs : Nat
  started : Bool
  done : Bool

namespace NegotiateHandshake

variable {σ : Type*} (authenticator : Authenticator σ)

def new (auth : σ) : NegotiateHandshake σ :=
  { auth, legs := 0, maxLegs := defaultMaxLegs, started := false, done := false }

/-- Override the leg cap. -/
def withMaxLegs (handshake : NegotiateHandshake σ) (maxLegs : Nat) : NegotiateHandshake σ :=
  { handshake with maxLegs }

def advance (handshake : NegotiateHandshake σ) (challenge : Option Bytes) :
    Except AuthError HandshakeStep × NegotiateHandshake σ :=
  -- A 407 with no continuation token after one was sent is a refusal.
  if handshake.started ∧ challenge = none then (.error .rejected, handshake)
  else if handshake.maxLegs ≤ handshake.legs then
    (.error (.tooManyLegs handshake.maxLegs), handshake)
  else
    match authenticator.step handshake.auth challenge with
    | (.error err, auth) => (.error err, { handshake with auth })
    | (.ok token, auth) =>
        (.ok (.sendToken token),
          { handshake with auth, legs := handshake.legs + 1, started := true })

def onResponse (handshake : NegotiateHandshake σ) (response : UpstreamResponse) :
    Except AuthError HandshakeStep × NegotiateHandshake σ :=
  if handshake.done then (.ok .complete, handshake)
  else match response with
    | .success => (.ok .complete, { handshake with done := true })
    | .other _ => (.ok .complete, { handshake with done := true })
    | .proxyAuthRequired challenge => handshake.advance authenticator challenge

end NegotiateHandshake

end Zicade.Auth
