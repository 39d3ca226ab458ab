import Zicade.Upstream.Wire

/-! # The authenticated CONNECT handshake

The handshake loop is the same whatever carries it, so it is written over a
transport that sends one request, reads the head that answers it, and drains the
body. A connect runs it on the wire: on a pooled socket if there is one, and on
a fresh one when the pooled socket turned out to be dead.
-/

namespace Zicade.Upstream

open Zicade.Foundation Zicade.Auth Zicade.Net

/-- `MAX_LEGS`. -/
def maxLegs : Nat := 12

/-- Why a handshake attempt failed. A stale socket failed before the upstream
answered anything, so one fresh dial is safe. -/
inductive Failure
  | stale (err : IoError)
  | failed (err : IoError)
  deriving DecidableEq, Repr

def Failure.intoIo : Failure → IoError
  | .stale err => err
  | .failed err => err

/-- One request of a handshake and the head that answered it, if one did. -/
structure Leg where
  auth : Option Text
  head : Option Head
  deriving DecidableEq, Repr

/-- A handshake that has ended: its legs in order, the verdict, and the
connection it leaves. -/
structure Exchange (τ : Type) where
  legs : List Leg
  result : Except (Halt Failure) Unit
  stream : τ
  deriving Repr

/-- What the loop needs of the connection it runs on. -/
structure Transport (τ : Type) where
  sendLeg : Option Text → Bool → τ → Except (Halt Failure) Head × τ
  drainBody : Headers → τ → Except (Halt IoError) Unit × τ

def Exchange.cons {τ : Type} (leg : Leg) (exchange : Exchange τ) : Exchange τ :=
  { exchange with legs := leg :: exchange.legs }

def refusedStatus (status : Nat) : IoError :=
  .ofMessage s!"upstream refused CONNECT with status {status}"

def exhaustedLegs : IoError := .ofMessage "upstream handshake exhausted legs"

variable {σ : Type*} {τ : Type} (base64 : Base64) (authenticator : Authenticator σ)

/-- The legs that are left, `leg` of them sent already. -/
def handshakeLegs (transport : Transport τ) (reused : Bool) :
    Nat → Nat → AuthState σ → Option Text → τ → Exchange τ
  | 0, _, _, _, stream => ⟨[], .error (.err (.failed exhaustedLegs)), stream⟩
  | left + 1, leg, authState, auth, stream =>
      match transport.sendLeg auth (reused && leg == 0) stream with
      | (.error halt, stream) => ⟨[⟨auth, none⟩], .error halt, stream⟩
      | (.ok (status, headers), stream) =>
          let answered : Leg := ⟨auth, some (status, headers)⟩
          if status = 200 then ⟨[answered], .ok (), stream⟩
          else match transport.drainBody headers stream with
            | (.error halt, stream) => ⟨[answered], .error (halt.mapErr .failed), stream⟩
            | (.ok (), stream) =>
                if status ≠ 407 then
                  ⟨[answered], .error (.err (.failed (refusedStatus status))), stream⟩
                else match authState.onChallenge base64 authenticator headers with
                  | (.error err, _) => ⟨[answered], .error (.err (.failed err)), stream⟩
                  | (.ok value, authState) =>
                      (handshakeLegs transport reused left (leg + 1) authState (some value)
                        stream).cons answered

section

variable {transport : Transport τ} {reused : Bool} {left leg status : Nat}
  {authState : AuthState σ} {auth : Option Text} {stream after drained : τ} {headers : Headers}

theorem handshakeLegs_of_unanswered {halt : Halt Failure}
    (hsend : transport.sendLeg auth (reused && leg == 0) stream = (.error halt, after)) :
    handshakeLegs base64 authenticator transport reused (left + 1) leg authState auth stream =
      ⟨[⟨auth, none⟩], .error halt, after⟩ := by
  simp only [handshakeLegs, hsend]

theorem handshakeLegs_of_granted
    (hsend : transport.sendLeg auth (reused && leg == 0) stream = (.ok (200, headers), after)) :
    handshakeLegs base64 authenticator transport reused (left + 1) leg authState auth stream =
      ⟨[⟨auth, some (200, headers)⟩], .ok (), after⟩ := by
  simp only [handshakeLegs, hsend, if_pos]

/-- Any head but a grant is drained, and then answered only if it is a 407 that
the driver can answer. -/
theorem handshakeLegs_of_answered (hstatus : status ≠ 200)
    (hsend : transport.sendLeg auth (reused && leg == 0) stream = (.ok (status, headers), after)) :
    handshakeLegs base64 authenticator transport reused (left + 1) leg authState auth stream =
      match transport.drainBody headers after with
      | (.error halt, drained) =>
          ⟨[⟨auth, some (status, headers)⟩], .error (halt.mapErr .failed), drained⟩
      | (.ok (), drained) =>
          if status ≠ 407 then
            ⟨[⟨auth, some (status, headers)⟩], .error (.err (.failed (refusedStatus status))),
              drained⟩
          else match authState.onChallenge base64 authenticator headers with
            | (.error err, _) =>
                ⟨[⟨auth, some (status, headers)⟩], .error (.err (.failed err)), drained⟩
            | (.ok value, authState) =>
                (handshakeLegs base64 authenticator transport reused left (leg + 1) authState
                  (some value) drained).cons ⟨auth, some (status, headers)⟩ := by
  simp only [handshakeLegs, hsend, if_neg hstatus]

end

/-- What one round of the loop does, however many are left after it. -/
inductive HandshakeRound (transport : Transport τ) (reused : Bool) (leg : Nat)
    (authState : AuthState σ) (auth : Option Text) (stream : τ) : Prop
  | unanswered (halt : Halt Failure) (after : τ)
      (sent : transport.sendLeg auth (reused && leg == 0) stream = (.error halt, after))
      (round : ∀ left,
        handshakeLegs base64 authenticator transport reused (left + 1) leg authState auth stream =
          ⟨[⟨auth, none⟩], .error halt, after⟩)
  | granted (headers : Headers) (after : τ)
      (sent : transport.sendLeg auth (reused && leg == 0) stream = (.ok (200, headers), after))
      (round : ∀ left,
        handshakeLegs base64 authenticator transport reused (left + 1) leg authState auth stream =
          ⟨[⟨auth, some (200, headers)⟩], .ok (), after⟩)
  | refused (status : Nat) (headers : Headers) (after : τ) (halt : Halt Failure)
      (sent : transport.sendLeg auth (reused && leg == 0) stream = (.ok (status, headers), after))
      (ungranted : status ≠ 200) (fresh : ∀ err, halt ≠ .err (.stale err))
      (round : ∀ left,
        handshakeLegs base64 authenticator transport reused (left + 1) leg authState auth stream =
          ⟨[⟨auth, some (status, headers)⟩], .error halt, (transport.drainBody headers after).2⟩)
      (cause : (∃ failed, (transport.drainBody headers after).1 = .error failed ∧
          halt = failed.mapErr .failed) ∨
        ∃ err, halt = .err (.failed err) ∧ (err = refusedStatus status ∨
          (authState.onChallenge base64 authenticator headers).1 = .error err))
  | answered (headers : Headers) (after drained : τ) (value : Text) (next : AuthState σ)
      (sent : transport.sendLeg auth (reused && leg == 0) stream = (.ok (407, headers), after))
      (drain : transport.drainBody headers after = (.ok (), drained))
      (answer : authState.onChallenge base64 authenticator headers = (.ok value, next))
      (round : ∀ left,
        handshakeLegs base64 authenticator transport reused (left + 1) leg authState auth stream =
          (handshakeLegs base64 authenticator transport reused left (leg + 1) next (some value)
            drained).cons ⟨auth, some (407, headers)⟩)

theorem handshakeRound (transport : Transport τ) (reused : Bool) (leg : Nat)
    (authState : AuthState σ) (auth : Option Text) (stream : τ) :
    HandshakeRound base64 authenticator transport reused leg authState auth stream := by
  cases hsend : transport.sendLeg auth (reused && leg == 0) stream with
  | mk answer after =>
      cases answer with
      | error halt =>
          exact .unanswered halt after hsend fun left =>
            handshakeLegs_of_unanswered base64 authenticator hsend
      | ok head =>
          obtain ⟨status, headers⟩ := head
          by_cases hstatus : status = 200
          · subst hstatus
            exact .granted headers after hsend fun left =>
              handshakeLegs_of_granted base64 authenticator hsend
          have hround (left : Nat) :=
            (handshakeLegs_of_answered base64 authenticator hstatus hsend :
              handshakeLegs base64 authenticator transport reused (left + 1) leg authState auth
                stream = _)
          -- a drain that fails, another status and an unanswerable challenge all end the loop
          have hrefused (halt : Halt Failure) (hfresh : ∀ err, halt ≠ .err (.stale err))
              (hround : ∀ left, handshakeLegs base64 authenticator transport reused (left + 1) leg
                authState auth stream =
                  ⟨[⟨auth, some (status, headers)⟩], .error halt,
                    (transport.drainBody headers after).2⟩)
              (hcause : (∃ failed, (transport.drainBody headers after).1 = .error failed ∧
                  halt = failed.mapErr .failed) ∨
                ∃ err, halt = .err (.failed err) ∧ (err = refusedStatus status ∨
                  (authState.onChallenge base64 authenticator headers).1 = .error err)) :
              HandshakeRound base64 authenticator transport reused leg authState auth stream :=
            .refused status headers after halt hsend hstatus hfresh hround hcause
          cases hdrain : transport.drainBody headers after with
          | mk drain drained =>
              rw [hdrain] at hrefused hround
              cases drain with
              | error halt =>
                  refine hrefused (halt.mapErr .failed) (fun err => ?_) hround
                    (.inl ⟨halt, rfl, rfl⟩)
                  cases halt <;> simp [Halt.mapErr]
              | ok =>
                  by_cases hchallenge : status ≠ 407
                  · simp only [if_pos hchallenge] at hround
                    exact hrefused _ (by simp) hround (.inr ⟨_, rfl, .inl rfl⟩)
                  simp only [if_neg hchallenge] at hround
                  obtain rfl := Decidable.not_not.mp hchallenge
                  cases hanswer : authState.onChallenge base64 authenticator headers with
                  | mk answer next =>
                      rw [hanswer] at hrefused
                      simp only [hanswer] at hround
                      cases answer with
                      | error err => exact hrefused _ (by simp) hround (.inr ⟨err, rfl, .inr rfl⟩)
                      | ok value =>
                          exact .answered headers after drained value next hsend hdrain hanswer
                            hround

/-- Run the 407 handshake until the upstream grants the tunnel. -/
def handshakeOver (transport : Transport τ) (reused : Bool) (auth : UpstreamAuth σ)
    (stream : τ) : Exchange τ :=
  let start := (AuthState.new auth).initialHeader
  handshakeLegs base64 authenticator transport reused maxLegs 0 start.2 start.1 stream

/-! ## On the wire -/

def connectRequest (target : Text) (auth : Option Text) : Text :=
  "CONNECT ".toList ++ target ++ " HTTP/1.1\r\nHost: ".toList ++ target ++
    "\r\nProxy-Connection: keep-alive\r\n".toList ++
    (match auth with
      | some value => "Proxy-Authorization: ".toList ++ value ++ "\r\n".toList
      | none => []) ++ "\r\n".toList

/-- Send one leg and read the head that answers it. On the first leg of a reused
socket, a failure before any response byte is stale. -/
def sendLeg (dst : Text) (auth : Option Text) (firstReused : Bool) : Wire Failure Head := do
  let transport := if firstReused then Failure.stale else Failure.failed
  Wire.mapErr transport (writeAll (asBytes (connectRequest dst auth)))
  if firstReused then Wire.mapErr transport awaitResponse
  Wire.mapErr .failed readHead

def wireTransport (dst : Text) : Transport Socket := ⟨sendLeg dst, drainBody⟩

theorem wireTransport_drainBody (dst : Text) (headers : Headers) (stream : Socket) :
    (wireTransport dst).drainBody headers stream = drainBody headers stream := rfl

def handshake (reused : Bool) (auth : UpstreamAuth σ) (dst : Text) (stream : Socket) :
    Exchange Socket :=
  handshakeOver base64 authenticator (wireTransport dst) reused auth stream

/-- One socket a connect used, or the dial that gave none. -/
inductive Attempt
  | pooled (exchange : Exchange Socket)
  | dialed (exchange : Exchange Socket)
  | dialFailed (halt : Halt IoError)
  deriving Repr

structure ConnectRun where
  attempts : List Attempt
  result : Except (Halt IoError) Socket
  deriving Repr

/-- `result.map_err(Failure::into_io)`. -/
def Exchange.intoIo (exchange : Exchange Socket) : Except (Halt IoError) Socket :=
  match exchange.result with
  | .ok () => .ok exchange.stream
  | .error halt => .error (halt.mapErr Failure.intoIo)

/-- Dial and run the handshake on the new socket. -/
def connectFresh (auth : UpstreamAuth σ) (dst : Text) (dial : Except (Halt IoError) Socket) :
    ConnectRun :=
  match dial with
  | .error halt => ⟨[.dialFailed halt], .error halt⟩
  | .ok stream =>
      let exchange := handshake base64 authenticator false auth dst stream
      ⟨[.dialed exchange], exchange.intoIo⟩

/-- A pooled socket first, if `take` gives one; one fresh dial only if it turned
out to be dead before the upstream answered anything. -/
def connect (auth : UpstreamAuth σ) (dst : Text) (take : Option Socket)
    (dial : Except (Halt IoError) Socket) : ConnectRun :=
  match take with
  | none => connectFresh base64 authenticator auth dst dial
  | some stream =>
      let exchange := handshake base64 authenticator true auth dst stream
      match exchange.result with
      | .error (.err (.stale _)) =>
          let fresh := connectFresh base64 authenticator auth dst dial
          ⟨.pooled exchange :: fresh.attempts, fresh.result⟩
      | _ => ⟨[.pooled exchange], exchange.intoIo⟩

end Zicade.Upstream
