import Zicade.Auth.Base64
import Zicade.Upstream.Connect

/-! # A retried connect repeats nothing that was answered

Only the first leg of a reused socket can fail as stale, and then the socket has
carried one request and shown no byte of an answer. Everything else ends the
connect on the socket it happened on.
-/

namespace Zicade.Upstream

open Zicade.Foundation Zicade.Auth Zicade.Net

/-- Waiting in vain shows nothing of the peer. -/
theorem awaitResponse_of_error {socket after : Socket} {halt : Halt IoError}
    (herror : awaitResponse socket = (.error halt, after)) : after.log = socket.log := by
  rw [awaitResponse, Wire.bind_apply] at herror
  rcases peek_cases socket with ⟨-, hpeek⟩ | ⟨-, hsame⟩
  · rw [hpeek] at herror
    cases (Prod.mk.inj herror).1
  · split at herror
    next count middle hpeek =>
      rw [hpeek] at hsame
      split at herror
      next =>
        -- the stream ended before a byte came
        obtain ⟨-, rfl⟩ := Prod.mk.inj herror
        exact congrArg Socket.log hsame
      next => cases (Prod.mk.inj herror).1
    next middle hpeek =>
      rw [hpeek] at hsame
      obtain ⟨-, rfl⟩ := Prod.mk.inj herror
      exact congrArg Socket.log hsame

theorem mapErr_failed_ne_stale {α : Type} {operation : Wire IoError α} {socket after : Socket}
    {err : IoError} :
    Wire.mapErr Failure.failed operation socket ≠ (.error (.err (.stale err)), after) := by
  unfold Wire.mapErr
  intro herror
  split at herror
  next => cases (Prod.mk.inj herror).1
  next halt _ _ =>
    cases halt with
    | err error => cases (Prod.mk.inj herror).1
    | pending => cases (Prod.mk.inj herror).1

/-- A stale leg was the first one of a reused socket: its request is all that
crossed the socket. -/
theorem sendLeg_of_stale {dst : Text} {auth : Option Text} {firstReused : Bool}
    {socket after : Socket} {err : IoError}
    (hstale : sendLeg dst auth firstReused socket = (.error (.err (.stale err)), after)) :
    firstReused = true ∧
      ∃ outcome, after.log = socket.log ++
        [.wrote (asBytes (connectRequest dst auth)) outcome] := by
  cases firstReused with
  | false =>
      rw [sendLeg, Wire.bind_apply] at hstale
      split at hstale
      next => exact absurd hstale mapErr_failed_ne_stale
      next hwrite =>
        obtain ⟨hhalt, rfl⟩ := Prod.mk.inj hstale
        rw [Except.error.inj hhalt] at hwrite
        exact absurd hwrite mapErr_failed_ne_stale
  | true =>
      refine ⟨rfl, socket.writes.headD .accepted, ?_⟩
      rcases writeAll_cases (asBytes (connectRequest dst auth)) socket with
        hwrite | ⟨-, halt, hwrite⟩
      · rw [sendLeg, Wire.bind_of_ok _ (Wire.mapErr_of_ok _ hwrite)] at hstale
        simp only [if_true] at hstale
        rw [Wire.bind_apply] at hstale
        split at hstale
        next => exact absurd hstale mapErr_failed_ne_stale
        next hawait =>
          obtain ⟨-, rfl⟩ := Prod.mk.inj hstale
          unfold Wire.mapErr at hawait
          split at hawait
          next => cases (Prod.mk.inj hawait).1
          next herror =>
            obtain ⟨-, rfl⟩ := Prod.mk.inj hawait
            exact awaitResponse_of_error herror
      · rw [sendLeg, Wire.bind_of_error _ (Wire.mapErr_of_error _ hwrite)] at hstale
        obtain ⟨-, rfl⟩ := Prod.mk.inj hstale
        rfl

variable {σ : Type*} (base64 : Base64) (authenticator : Authenticator σ)

theorem handshakeLegs_of_stale {dst : Text} {reused : Bool} {left leg : Nat}
    {authState : AuthState σ} {auth : Option Text} {socket : Socket} {err : IoError}
    (hstale : (handshakeLegs base64 authenticator (wireTransport dst) reused left leg authState
      auth socket).result = .error (.err (.stale err))) :
    leg = 0 ∧ reused = true ∧ ∃ outcome,
      (handshakeLegs base64 authenticator (wireTransport dst) reused left leg authState
        auth socket).stream.log =
          socket.log ++ [.wrote (asBytes (connectRequest dst auth)) outcome] := by
  induction left generalizing leg authState auth socket with
  | zero => cases hstale
  | succ left ih =>
      cases handshakeRound base64 authenticator (wireTransport dst) reused leg authState auth
        socket with
      | unanswered halt after hsend hround =>
          rw [hround] at hstale ⊢
          rw [Except.error.inj hstale] at hsend
          obtain ⟨hfirst, hlog⟩ := sendLeg_of_stale hsend
          rw [Bool.and_eq_true, beq_iff_eq] at hfirst
          exact ⟨hfirst.2, hfirst.1, hlog⟩
      | granted headers after hsend hround =>
          rw [hround] at hstale
          cases hstale
      | refused status headers after halt hsend hstatus hfresh hround =>
          rw [hround] at hstale
          exact absurd (Except.error.inj hstale) (hfresh err)
      | answered headers after drained value next hsend hdrain hanswer hround =>
          -- no later leg is a first one
          rw [hround] at hstale
          cases (ih hstale).1

theorem handshake_of_stale {dst : Text} {reused : Bool} {auth : UpstreamAuth σ} {socket : Socket}
    {err : IoError} (hstale : (handshake base64 authenticator reused auth dst socket).result =
      .error (.err (.stale err))) :
    reused = true ∧ ∃ outcome, (handshake base64 authenticator reused auth dst socket).stream.log =
      socket.log ++
        [.wrote (asBytes (connectRequest dst (AuthState.new auth).initialHeader.1)) outcome] :=
  (handshakeLegs_of_stale base64 authenticator hstale).2

theorem logs_sendLeg (dst : Text) (auth : Option Text) (firstReused : Bool) :
    Logs (sendLeg dst auth firstReused) := by
  unfold sendLeg
  refine (Logs.mapErr _ (Logs.writeAll _)).bind fun _ => ?_
  cases firstReused with
  | false => exact Logs.mapErr _ logs_readHead
  | true => exact (Logs.mapErr _ logs_awaitResponse).bind fun _ => Logs.mapErr _ logs_readHead

/-- A handshake adds its own events to the log of its socket. -/
theorem handshakeLegs_log (dst : Text) (reused : Bool) (left leg : Nat) (authState : AuthState σ)
    (auth : Option Text) (socket : Socket) :
    socket.log <+: (handshakeLegs base64 authenticator (wireTransport dst) reused left leg
      authState auth socket).stream.log := by
  induction left generalizing leg authState auth socket with
  | zero => exact List.prefix_rfl
  | succ left ih =>
      have hlog : socket.log <+:
          ((wireTransport dst).sendLeg auth (reused && leg == 0) socket).2.log :=
        logs_sendLeg dst auth (reused && leg == 0) socket
      cases handshakeRound base64 authenticator (wireTransport dst) reused leg authState auth
        socket with
      | unanswered halt after hsend hround =>
          rw [hsend] at hlog
          rw [hround]
          exact hlog
      | granted headers after hsend hround =>
          rw [hsend] at hlog
          rw [hround]
          exact hlog
      | refused status headers after halt hsend hstatus hfresh hround =>
          rw [hsend] at hlog
          rw [hround]
          exact hlog.trans (logs_drainBody headers after)
      | answered headers after drained value next hsend hdrain hanswer hround =>
          rw [hsend] at hlog
          have hdrained : after.log <+: ((wireTransport dst).drainBody headers after).2.log :=
            logs_drainBody headers after
          rw [hdrain] at hdrained
          rw [hround]
          exact (hlog.trans hdrained).trans (ih _ _ _ _)

/-- What may follow what in one connect. -/
structure RetriesOnlyUnanswered (auth : UpstreamAuth σ) (dst : Text) (take : Option Socket)
    (attempts : List Attempt) : Prop where
  atMostTwo : attempts.length ≤ 2
  /-- A second attempt follows only a pooled socket that has carried one request
  and shown nothing of an answer. -/
  retried : ∀ (first second : Attempt) (rest : List Attempt), attempts = first :: second :: rest →
    ∃ socket exchange outcome, take = some socket ∧ first = .pooled exchange ∧
      exchange.stream.log = socket.log ++
        [.wrote (asBytes (connectRequest dst (AuthState.new auth).initialHeader.1)) outcome]
  /-- Nothing follows a dial. -/
  dialedLast : ∀ (before after : List Attempt) (attempt : Attempt),
    attempts = before ++ attempt :: after → (∀ exchange, attempt ≠ .pooled exchange) → after = []
  /-- Nothing follows a pooled socket on which a byte of an answer was seen. -/
  answeredLast : ∀ (before after : List Attempt) (exchange : Exchange Socket),
    attempts = before ++ .pooled exchange :: after →
      ∃ socket events, take = some socket ∧ exchange.stream.log = socket.log ++ events ∧
        ((∃ event ∈ events, event.seesPeer = true) → after = [])

theorem connectFresh_attempts (auth : UpstreamAuth σ) (dst : Text)
    (dial : Except (Halt IoError) Socket) :
    ∃ attempt, (connectFresh base64 authenticator auth dst dial).attempts = [attempt] ∧
      ∀ exchange, attempt ≠ .pooled exchange := by
  unfold connectFresh
  cases dial with
  | error halt => exact ⟨.dialFailed halt, rfl, by simp⟩
  | ok stream => exact ⟨.dialed _, rfl, by simp⟩

/-- One attempt is never a retry, on whichever socket it was made. -/
theorem retriesOnlyUnanswered_single (auth : UpstreamAuth σ) (dst : Text) {take : Option Socket}
    {attempt : Attempt} (hpooled : ∀ exchange, attempt = .pooled exchange →
      ∃ socket, take = some socket ∧ socket.log <+: exchange.stream.log) :
    RetriesOnlyUnanswered auth dst take [attempt] := by
  have hlast : ∀ {before after : List Attempt} {other : Attempt},
      [attempt] = before ++ other :: after → attempt = other ∧ after = [] := by
    intro before after other heq
    cases before with
    | nil => exact ⟨(List.cons.inj heq).1, (List.cons.inj heq).2.symm⟩
    | cons b before => simp at heq
  refine ⟨by simp, by simp, fun before after other heq _ => (hlast heq).2, ?_⟩
  intro before after exchange heq
  obtain ⟨hattempt, hafter⟩ := hlast heq
  obtain ⟨socket, htake, events, hevents⟩ := hpooled exchange hattempt
  exact ⟨socket, events, htake, hevents.symm, fun _ => hafter⟩

/-- One connect uses at most two sockets, and the second only in place of a
pooled one that was sent a single request and answered nothing. -/
theorem connect_retriesOnlyUnanswered (auth : UpstreamAuth σ) (dst : Text) (take : Option Socket)
    (dial : Except (Halt IoError) Socket) :
    RetriesOnlyUnanswered auth dst take
      (connect base64 authenticator auth dst take dial).attempts := by
  obtain ⟨fresh, hfresh, hdialed⟩ := connectFresh_attempts base64 authenticator auth dst dial
  unfold connect
  cases take with
  | none =>
      simp only [hfresh]
      exact retriesOnlyUnanswered_single auth dst fun exchange heq => absurd heq (hdialed exchange)
  | some socket =>
      dsimp only
      split
      next err hstale =>
        obtain ⟨-, outcome, hlog⟩ := handshake_of_stale base64 authenticator hstale
        rw [hfresh]
        refine ⟨by simp, ?_, ?_, ?_⟩
        · intro first second rest heq
          exact ⟨socket, _, outcome, rfl, (List.cons.inj heq).1.symm, hlog⟩
        · intro before after attempt heq hnot
          match before with
          | [] => exact absurd (List.cons.inj heq).1.symm (hnot _)
          | [b] => exact (List.cons.inj (List.cons.inj heq).2).2.symm
          | b :: c :: before => simp at heq
        · intro before after exchange heq
          match before with
          | [] =>
              -- the request is all the log has gained, and it shows nothing of the peer
              have hexchange := Attempt.pooled.inj (List.cons.inj heq).1
              subst hexchange
              refine ⟨socket, _, rfl, hlog, ?_⟩
              rintro ⟨event, hmem, hsees⟩
              rw [List.mem_singleton.mp hmem] at hsees
              cases hsees
          | [b] => exact absurd (List.cons.inj (List.cons.inj heq).2).1 (hdialed exchange)
          | b :: c :: before => simp at heq
      next =>
        apply retriesOnlyUnanswered_single
        intro exchange heq
        refine ⟨socket, rfl, ?_⟩
        rw [← Attempt.pooled.inj heq]
        exact handshakeLegs_log base64 authenticator dst true _ _ _ _ socket

/-- A pooled socket whose peer closed it while it was parked costs one request
and one dial. -/
example : (connect standardBase64 countingAuthenticator (.basic "Basic eDp5".toList)
    "a:443".toList (some ⟨[], [], .closed, [], []⟩) (.ok ⟨[], [], .closed, [], []⟩)).attempts.length
      = 2 := by decide +kernel

end Zicade.Upstream
