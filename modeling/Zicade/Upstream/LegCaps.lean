import Zicade.Foundation.Rounds
import Zicade.Upstream.Agreement
import Zicade.Upstream.Sender

/-! # How many legs a handshake takes

Every 407 costs the driver an answer, and it has one at most for Basic and the
machine's token cap for Negotiate. Both loops end when the answers run out, before
their own cap on the legs, whatever the upstream sends.
-/

namespace Zicade.Upstream

open Zicade.Foundation Zicade.Auth Zicade.Net

variable {σ : Type*} (base64 : Base64) (authenticator : Authenticator σ)

/-! ## Answers left -/

/-- How many more challenges the driver can answer. -/
def AuthState.answersLeft : AuthState σ → Nat
  | .none => 0
  | .basic _ sent => if sent then 0 else 1
  | .negotiate state => state.handshake.maxLegs - state.handshake.legs

/-- A token is only sent below the cap, and it counts. -/
theorem advanceHandshake_legs {handshake next : NegotiateHandshake σ} {challenge : Option Bytes}
    {token : Bytes}
    (hanswer : advanceHandshake authenticator handshake challenge = (.ok token, next)) :
    handshake.legs < handshake.maxLegs ∧ next.legs = handshake.legs + 1 ∧
      next.maxLegs = handshake.maxLegs := by
  simp only [advanceHandshake, NegotiateHandshake.onResponse, NegotiateHandshake.advance] at hanswer
  by_cases hdone : handshake.done
  · simp [hdone] at hanswer
  by_cases hrejected : handshake.started = true ∧ challenge = none
  · simp [hdone, hrejected] at hanswer
  by_cases hcap : handshake.maxLegs ≤ handshake.legs
  · simp [hdone, hrejected, hcap] at hanswer
  rw [if_neg hdone, if_neg hrejected, if_neg hcap] at hanswer
  cases hstep : authenticator.step handshake.auth challenge with
  | mk answer auth =>
      cases answer with
      | error err => simp [hstep] at hanswer
      | ok fresh =>
          simp only [hstep] at hanswer
          obtain ⟨-, rfl⟩ := Prod.mk.inj hanswer
          exact ⟨by omega, rfl, rfl⟩

/-- Every answer is one less to give. -/
theorem onChallenge_answersLeft {state next : AuthState σ} {headers : Headers} {value : Text}
    (hanswer : state.onChallenge base64 authenticator headers = (.ok value, next)) :
    next.answersLeft + 1 = state.answersLeft := by
  rcases onChallenge_cases base64 authenticator hanswer with
    ⟨rfl, rfl⟩ | ⟨before, after, rfl, rfl, hleg⟩
  · rfl
  · obtain ⟨keyword, token, -, -, -, hadvance⟩ := negotiateLeg_ok base64 authenticator hleg
    obtain ⟨hbelow, hlegs, hmax⟩ := advanceHandshake_legs authenticator hadvance
    simp only [AuthState.answersLeft, hlegs, hmax]
    omega

/-- The answers a fresh connection starts with, its opening header sent. -/
def UpstreamAuth.answers : UpstreamAuth σ → Nat
  | .none => 0
  | .basic _ => 0
  | .negotiate _ => defaultMaxLegs

theorem answersLeft_initialHeader (auth : UpstreamAuth σ) :
    (AuthState.new auth).initialHeader.2.answersLeft = auth.answers := by
  cases auth <;> rfl

theorem answers_lt_maxLegs (auth : UpstreamAuth σ) : auth.answers < maxLegs := by
  cases auth <;> simp [UpstreamAuth.answers, maxLegs, defaultMaxLegs]

/-! ## The loop's own error

No other error of a handshake has the text of the one after the last iteration.
-/

/-- A message that departs from another within its fixed front is not that one. -/
theorem ofMessage_ne {front other : String} (hfront : ¬front.toList <+: other.toList)
    (back : String) : IoError.ofMessage (front ++ back) ≠ .ofMessage other := by
  intro heq
  have hmessage : front ++ back = other := congrArg IoError.message heq
  refine hfront ⟨back.toList, ?_⟩
  rw [← hmessage, String.toList_append]

theorem refusedStatus_ne_exhausted (status : Nat) : refusedStatus status ≠ exhaustedLegs :=
  ofMessage_ne (by decide) _

theorem firstLegScheme_ne_exhausted (headers : Headers) (offer : NegotiateOffer) :
    firstLegScheme headers offer ≠ .error exhaustedLegs := by
  unfold firstLegScheme
  split
  next => simp
  next =>
    dsimp only
    split
    next => simp
    next =>
      intro heq
      have hmessage := Except.error.inj heq
      rw [String.append_assoc] at hmessage
      exact ofMessage_ne (by decide) _ hmessage

theorem advanceHandshake_ne_exhausted (handshake : NegotiateHandshake σ)
    (challenge : Option Bytes) :
    (advanceHandshake authenticator handshake challenge).1 ≠ .error exhaustedLegs := by
  unfold advanceHandshake
  split
  next err _ _ => exact fun heq => ofMessage_ne (by decide) _ (Except.error.inj heq)
  next => simp
  next => exact fun heq => absurd (Except.error.inj heq) (by decide)

theorem onChallenge_ne_exhausted (state : AuthState σ) (headers : Headers) :
    (state.onChallenge base64 authenticator headers).1 ≠ .error exhaustedLegs := by
  cases state with
  | none => exact fun heq => absurd (Except.error.inj heq) (by decide)
  | basic credentials sent =>
      cases sent with
      | false => simp [AuthState.onChallenge]
      | true => exact fun heq => absurd (Except.error.inj heq) (by decide)
  | negotiate negotiation =>
      simp only [AuthState.onChallenge, negotiateLeg]
      split
      next err hkeyword =>
        intro heq
        rw [Except.error.inj heq] at hkeyword
        unfold legKeyword at hkeyword
        split at hkeyword
        next => cases hkeyword
        next => exact firstLegScheme_ne_exhausted headers _ hkeyword
      next keyword _ =>
        have hadvance := advanceHandshake_ne_exhausted authenticator negotiation.handshake
          (negotiateOffer base64 headers).token
        split
        next heq =>
          rw [heq] at hadvance
          simpa using hadvance
        next => simp

/-! ## Rounds of the loops -/

/-- What a loop carries from one leg to the next. -/
structure Turn (σ : Type*) (τ : Type) where
  leg : Nat
  authState : AuthState σ
  auth : Option Text
  stream : τ

def UpstreamAuth.turn {τ : Type} (auth : UpstreamAuth σ) (stream : τ) : Turn σ τ :=
  ⟨0, (AuthState.new auth).initialHeader.2, (AuthState.new auth).initialHeader.1, stream⟩

theorem answersLeft_turn {τ : Type} (auth : UpstreamAuth σ) (stream : τ) :
    (auth.turn stream).authState.answersLeft < maxLegs := by
  rw [UpstreamAuth.turn, answersLeft_initialHeader]
  exact answers_lt_maxLegs auth

section

variable {τ : Type} (transport : Transport τ) (reused : Bool)

/-- The CONNECT loop from a turn on. -/
def handshakeFrom (left : Nat) (turn : Turn σ τ) : Exchange τ :=
  handshakeLegs base64 authenticator transport reused left turn.leg turn.authState turn.auth
    turn.stream

theorem handshakeFrom_spends :
    Spends (handshakeFrom base64 authenticator transport reused) Exchange.legs
      (fun turn leg => leg.auth = turn.auth) (fun turn => turn.authState.answersLeft) := by
  intro turn
  -- A round that ends the loop leaves one leg, sent with the turn's header.
  have hone : ∀ head : Option Head, ([⟨turn.auth, head⟩] : List Leg).length ≤ 1 ∧
      ∀ leg ∈ ([⟨turn.auth, head⟩] : List Leg), leg.auth = turn.auth := fun head =>
    ⟨le_rfl, fun leg hleg => List.mem_singleton.mp hleg ▸ rfl⟩
  cases handshakeRound base64 authenticator transport reused turn.leg turn.authState turn.auth
    turn.stream with
  | unanswered halt after hsend hround => exact .inl ⟨_, (hone _).1, (hone _).2, hround⟩
  | granted headers after hsend hround => exact .inl ⟨_, (hone _).1, (hone _).2, hround⟩
  | refused status headers after halt hsend hstatus hfresh hround =>
      exact .inl ⟨_, (hone _).1, (hone _).2, hround⟩
  | answered headers after drained value next hsend hdrain hanswer hround =>
      have hless := onChallenge_answersLeft base64 authenticator hanswer
      refine .inr ⟨⟨turn.leg + 1, next, some value, drained⟩,
        ⟨turn.auth, some (407, headers)⟩, _, ?_, rfl, fun _ => rfl, hround⟩
      exact Nat.lt_of_succ_le (Nat.le_of_eq hless)

end

section

variable (http : HttpCrate) (parts : Parts) (body : Bytes) {τ ρ : Type} (sender : HttpSender τ ρ)

/-- The forward loop from a turn on. -/
def forwardFrom (left : Nat) (turn : Turn σ τ) : Forwarded τ ρ :=
  forwardLegsOver http base64 authenticator parts body sender left turn.leg turn.authState turn.auth
    turn.stream

theorem upstreamRequest_error {http : HttpCrate} {parts : Parts} {body : Bytes}
    {auth : Option Text} {err : ForwardError}
    (hrequest : upstreamRequest http parts body auth = .error err) : err = .invalidHeaderValue := by
  unfold upstreamRequest at hrequest
  dsimp only at hrequest
  split at hrequest
  next => cases hrequest
  next =>
    split at hrequest
    next => exact (Except.error.inj hrequest).symm
    next => cases hrequest

/-- A round whose request is sent. -/
theorem forwardFrom_sent {turn : Turn σ τ} {stream : τ} {request : Request}
    (hready : sender.ready turn.stream = (.ok (), stream))
    (hrequest : upstreamRequest http parts body turn.auth = .ok request) (left : Nat) :
    forwardFrom base64 authenticator http parts body sender (left + 1) turn =
      match sender.sendRequest request stream with
      | (.error err, stream) => ⟨[⟨turn.auth, request, none⟩], .error err, stream⟩
      | (.ok answer, stream) =>
          let sent : SentLeg := ⟨turn.auth, request, some (answer.status, answer.fields)⟩
          if answer.status ≠ 407 then ⟨[sent], .ok (answer, turn.leg + 1), stream⟩
          else match sender.collect answer.body stream with
            | (.error err, stream) => ⟨[sent], .error err, stream⟩
            | (.ok (), stream) =>
                match turn.authState.onChallenge base64 authenticator
                    (headerPairs http answer.fields) with
                | (.error err, _) => ⟨[sent], .error (.io err), stream⟩
                | (.ok value, authState) =>
                    (forwardFrom base64 authenticator http parts body sender left
                      ⟨turn.leg + 1, authState, some value, stream⟩).cons sent :=
  forwardLegsOver_of_sent http base64 authenticator parts body sender hready hrequest

/-- The leg was sent in this turn. -/
def SentIn (turn : Turn σ τ) (leg : SentLeg) : Prop :=
  leg.auth = turn.auth ∧ upstreamRequest http parts body turn.auth = .ok leg.request

/-- Another turn follows on a 407 that the driver answers, and the turn after it carries
that answer. -/
structure TurnFollows (turn : Turn σ τ) (leg : SentLeg) (next : Turn σ τ) : Prop where
  sent : SentIn http parts body turn leg
  answered : ∃ fields value, leg.answer = some (407, fields) ∧ next.auth = some value ∧
    turn.authState.onChallenge base64 authenticator (headerPairs http fields) =
      (.ok value, next.authState)

/-- A turn ends the loop with one leg at most, or another follows it. -/
theorem forwardFrom_cases (turn : Turn σ τ) :
    (∃ run : Forwarded τ ρ, run.legs.length ≤ 1 ∧
        (∀ leg ∈ run.legs, SentIn http parts body turn leg) ∧
        (sender.Never .exhausted → run.result ≠ .error .exhausted) ∧
        ∀ left, forwardFrom base64 authenticator http parts body sender (left + 1) turn = run) ∨
      ∃ next leg, TurnFollows base64 authenticator http parts body turn leg next ∧
        ∀ left, forwardFrom base64 authenticator http parts body sender (left + 1) turn =
          (forwardFrom base64 authenticator http parts body sender left next).cons leg := by
  cases hready : sender.ready turn.stream with
  | mk outcome stream =>
      cases outcome with
      | error err =>
          -- no request goes out on a connection that is not ready
          refine .inl ⟨⟨[], .error err, stream⟩, by simp, by simp, fun hnever => ?_, fun left => ?_⟩
          · simpa [hready] using hnever.ready turn.stream
          · simp only [forwardFrom, forwardLegsOver, hready]
      | ok =>
          cases hrequest : upstreamRequest http parts body turn.auth with
          | error err =>
              refine .inl ⟨⟨[], .error err, stream⟩, by simp, by simp, fun _ => ?_, fun left => ?_⟩
              · simp [upstreamRequest_error hrequest]
              · simp only [forwardFrom, forwardLegsOver, hready, hrequest]
          | ok request =>
              have hround := forwardFrom_sent base64 authenticator http parts body sender hready
                hrequest
              have hone : ∀ answer, ([⟨turn.auth, request, answer⟩] : List SentLeg).length ≤ 1 ∧
                  ∀ leg ∈ ([⟨turn.auth, request, answer⟩] : List SentLeg),
                    SentIn http parts body turn leg := fun answer =>
                ⟨le_rfl, fun leg hleg => List.mem_singleton.mp hleg ▸ ⟨rfl, hrequest⟩⟩
              cases hsent : sender.sendRequest request stream with
              | mk outcome answered =>
                  simp only [hsent] at hround
                  cases outcome with
                  | error err =>
                      refine .inl ⟨_, (hone _).1, (hone _).2, fun hnever => ?_, hround⟩
                      simpa [hsent] using hnever.sendRequest request stream
                  | ok answer =>
                      by_cases hfinal : answer.status ≠ 407
                      · simp only [if_pos hfinal] at hround
                        exact .inl ⟨_, (hone _).1, (hone _).2, fun _ => by simp, hround⟩
                      simp only [if_neg hfinal] at hround
                      cases hcollect : sender.collect answer.body answered with
                      | mk outcome drained =>
                          simp only [hcollect] at hround
                          cases outcome with
                          | error err =>
                              refine .inl ⟨_, (hone _).1, (hone _).2, fun hnever => ?_, hround⟩
                              simpa [hcollect] using hnever.collect answer.body answered
                          | ok =>
                              cases hanswer : turn.authState.onChallenge base64 authenticator
                                  (headerPairs http answer.fields) with
                              | mk outcome next =>
                                  simp only [hanswer] at hround
                                  cases outcome with
                                  | error err =>
                                      exact .inl ⟨_, (hone _).1, (hone _).2, fun _ => by simp,
                                        hround⟩
                                  | ok value =>
                                      refine .inr ⟨⟨turn.leg + 1, next, some value, drained⟩, _,
                                        ⟨⟨rfl, hrequest⟩, answer.fields, value, ?_, rfl, hanswer⟩,
                                        hround⟩
                                      rw [Decidable.not_not.mp hfinal]

theorem forwardFrom_spends :
    Spends (forwardFrom base64 authenticator http parts body sender) Forwarded.legs
      (SentIn http parts body) (fun turn => turn.authState.answersLeft) := by
  intro turn
  rcases forwardFrom_cases base64 authenticator http parts body sender turn with
    ⟨run, hlength, hsent, -, hends⟩ | ⟨next, leg, hfollows, hgoes⟩
  · exact .inl ⟨run, hlength, hsent, hends⟩
  · obtain ⟨fields, value, -, -, hanswer⟩ := hfollows.answered
    have hless := onChallenge_answersLeft base64 authenticator hanswer
    exact .inr ⟨next, leg, Forwarded.cons leg, Nat.lt_of_succ_le (Nat.le_of_eq hless),
      hfollows.sent, fun _ => rfl, hgoes⟩

end

/-! ## The caps agree -/

/-- The `Proxy-Authorization` values the requests on one connection may carry, in order:
Basic is sent once and at once, Negotiate opens without any. -/
def UpstreamAuth.Allows : UpstreamAuth σ → List (List Bytes) → Prop
  | .none, sent => sent <+: [[]]
  | .basic credentials, sent => sent <+: [[asBytes credentials]]
  | .negotiate _, sent => sent.length ≤ 11 ∧ ∀ first rest, sent = first :: rest → first = []

theorem allows_of_answers {auth : UpstreamAuth σ} {sent : List (List Bytes)}
    (hlength : sent.length ≤ auth.answers + 1)
    (hfirst : ∀ first rest, sent = first :: rest →
      first = (AuthState.new auth).initialHeader.1.toList.map asBytes) : auth.Allows sent := by
  have hsingle : sent.length ≤ 1 →
      sent <+: [(AuthState.new auth).initialHeader.1.toList.map asBytes] := by
    intro hone
    cases sent with
    | nil => exact List.nil_prefix
    | cons first rest =>
        have hrest := List.eq_nil_of_length_eq_zero (Nat.le_zero.mp (Nat.le_of_succ_le_succ hone))
        have hsent : first :: rest = [(AuthState.new auth).initialHeader.1.toList.map asBytes] := by
          rw [hfirst first rest rfl, hrest]
        exact hsent ▸ List.prefix_rfl
  cases auth with
  | none => exact hsingle hlength
  | basic credentials => exact hsingle hlength
  | negotiate factory => exact ⟨hlength, hfirst⟩

/-- A request that can be built carries the value it is given, and no other. -/
theorem authorizations_of_upstreamRequest {http : HttpCrate} {parts : Parts} {body : Bytes}
    {auth : Option Text} {request : Request}
    (hrequest : upstreamRequest http parts body auth = .ok request) :
    request.authorizations = auth.toList.map asBytes := by
  have hvalid : ∀ value, auth = some value → ValidValue value := by
    rintro value rfl
    by_contra hinvalid
    have hnone : http.headerValue value = none := by
      rw [http.headerValue_eq]
      exact if_neg hinvalid
    simp [upstreamRequest, hnone] at hrequest
  obtain ⟨built, hbuilt, hvalues⟩ := upstreamRequest_authorizations http parts body hvalid
  rw [hrequest, Except.ok.injEq] at hbuilt
  rw [hbuilt, hvalues]

section

variable {τ τ' ρ : Type} (transport : Transport τ) (reused : Bool) (http : HttpCrate)
  (parts : Parts) (body : Bytes) (sender : HttpSender τ' ρ)

theorem handshakeOver_allows (auth : UpstreamAuth σ) (stream : τ) :
    auth.Allows ((handshakeOver base64 authenticator transport reused auth stream).legs.map
      Leg.authorizations) := by
  have hspends := handshakeFrom_spends base64 authenticator transport reused
  have hleft := answersLeft_turn auth stream
  apply allows_of_answers
  · rw [List.length_map, ← answersLeft_initialHeader]
    exact hspends.length_le hleft
  · intro first rest hsent
    obtain ⟨leg, legs, hlegs, rfl, -⟩ := List.map_eq_cons_iff.mp hsent
    rw [Leg.authorizations, hspends.head hleft hlegs]
    rfl

theorem forwardHandshakeOver_allows (auth : UpstreamAuth σ) (stream : τ') :
    auth.Allows ((forwardHandshakeOver http base64 authenticator parts body sender auth
      stream).legs.map fun leg => leg.request.authorizations) := by
  have hspends := forwardFrom_spends base64 authenticator http parts body sender
  have hleft := answersLeft_turn auth stream
  apply allows_of_answers
  · rw [List.length_map, ← answersLeft_initialHeader]
    exact hspends.length_le hleft
  · intro first rest hsent
    obtain ⟨leg, legs, hlegs, rfl, -⟩ := List.map_eq_cons_iff.mp hsent
    exact authorizations_of_upstreamRequest (hspends.head hleft hlegs).2

/-! ## No fall-through -/

/-- The loop's own error after the last iteration is not the result. -/
def Exchange.NotExhausted {τ : Type} (exchange : Exchange τ) : Prop :=
  exchange.result ≠ .error (.err (.failed exhaustedLegs))

theorem sendLeg_avoids (dst : Text) (auth : Option Text) (firstReused : Bool) :
    Avoids exhaustedLegs (.failed exhaustedLegs) (sendLeg dst auth firstReused) := by
  have hown : exhaustedLegs ∉ wireErrors := by decide
  have hhead : Avoids exhaustedLegs (Failure.failed exhaustedLegs)
      (Wire.mapErr Failure.failed readHead) :=
    (avoids_readHead hown).mapErr fun _ => Failure.failed.inj
  cases firstReused with
  | false =>
      exact ((Avoids.writeAll _).mapErr fun _ => Failure.failed.inj).bind fun _ => hhead
  | true =>
      -- a stale failure goes by another name
      have hstale : ∀ error, Failure.stale error = .failed exhaustedLegs →
          error = exhaustedLegs := by simp
      exact ((Avoids.writeAll _).mapErr hstale).bind fun _ =>
        ((avoids_awaitResponse hown).mapErr hstale).bind fun _ => hhead

theorem handshakeFrom_endsWell (dst : Text) :
    EndsWell (handshakeFrom base64 authenticator (wireTransport dst) reused)
      (fun turn => turn.stream.Spares exhaustedLegs) Exchange.NotExhausted
      (fun turn => turn.authState.answersLeft) := by
  intro turn hspares
  have hsent := sendLeg_avoids dst turn.auth (reused && turn.leg == 0) turn.stream hspares
  have hdrained (headers : Headers) {socket : Socket} (hsocket : socket.Spares exhaustedLegs) :=
    avoids_drainBody (by decide : exhaustedLegs ∉ wireErrors) headers socket hsocket
  cases handshakeRound base64 authenticator (wireTransport dst) reused turn.leg turn.authState
    turn.auth turn.stream with
  | unanswered halt after hsend hround =>
      have hhalt : (sendLeg dst turn.auth (reused && turn.leg == 0) turn.stream) =
        (.error halt, after) := hsend
      rw [hhalt] at hsent
      exact .inl ⟨_, by simpa [Exchange.NotExhausted] using hsent.1, hround⟩
  | granted headers after hsend hround =>
      exact .inl ⟨_, by simp [Exchange.NotExhausted], hround⟩
  | refused status headers after halt hsend hstatus hfresh hround hcause =>
      have hhead : (sendLeg dst turn.auth (reused && turn.leg == 0) turn.stream) =
        (.ok (status, headers), after) := hsend
      rw [hhead] at hsent
      refine .inl ⟨_, ?_, hround⟩
      intro hexhausted
      have hhalt : halt = .err (.failed exhaustedLegs) := Except.error.inj hexhausted
      -- the body could not be drained, or the status or the driver refused
      rcases hcause with ⟨failed, hdrain, rfl⟩ | ⟨err, rfl, hcause⟩
      · have hne := (hdrained headers hsent.2).1
        cases failed with
        | err error =>
            have herror : error = exhaustedLegs := by simpa [Halt.mapErr] using hhalt
            exact hne (herror ▸ hdrain)
        | pending => simp [Halt.mapErr] at hhalt
      · have herror : err = exhaustedLegs := by simpa using hhalt
        rcases hcause with rfl | hanswer
        · exact refusedStatus_ne_exhausted status herror
        · exact onChallenge_ne_exhausted base64 authenticator turn.authState headers
            (herror ▸ hanswer)
  | answered headers after drained value next hsend hdrain hanswer hround =>
      have hhead : (sendLeg dst turn.auth (reused && turn.leg == 0) turn.stream) =
        (.ok (407, headers), after) := hsend
      rw [hhead] at hsent
      have hnext := (hdrained headers hsent.2).2
      have hdrain' : drainBody headers after = (.ok (), drained) := hdrain
      rw [hdrain'] at hnext
      have hless := onChallenge_answersLeft base64 authenticator hanswer
      exact .inr ⟨⟨turn.leg + 1, next, some value, drained⟩, Exchange.cons _,
        Nat.lt_of_succ_le (Nat.le_of_eq hless), hnext, fun _ => id, hround⟩

theorem forwardFrom_endsWell (hnever : sender.Never .exhausted) :
    EndsWell (forwardFrom base64 authenticator http parts body sender) (fun _ => True)
      (fun run => run.result ≠ .error .exhausted) (fun turn => turn.authState.answersLeft) := by
  intro turn _
  rcases forwardFrom_cases base64 authenticator http parts body sender turn with
    ⟨run, -, -, hresult, hends⟩ | ⟨next, leg, hfollows, hgoes⟩
  · exact .inl ⟨run, hresult hnever, hends⟩
  · obtain ⟨fields, value, -, -, hanswer⟩ := hfollows.answered
    have hless := onChallenge_answersLeft base64 authenticator hanswer
    exact .inr ⟨next, Forwarded.cons leg, Nat.lt_of_succ_le (Nat.le_of_eq hless), trivial,
      fun _ => id, hgoes⟩

/-- On either path the requests on a connection stay within what the auth mode allows,
and room for more legs changes nothing: the driver refuses a 407 before the loop's own
cap ends it. So on a socket, and with a client, that never fail with the error after
the last iteration, that error is never the result. -/
theorem handshakes_within_caps (auth : UpstreamAuth σ) (stream : τ) (stream' : τ') :
    let start := (AuthState.new auth).initialHeader
    let connect := handshakeOver base64 authenticator transport reused auth stream
    let forward := forwardHandshakeOver http base64 authenticator parts body sender auth stream'
    auth.Allows (connect.legs.map Leg.authorizations) ∧
      auth.Allows (forward.legs.map fun leg => leg.request.authorizations) ∧
      (∀ more, handshakeLegs base64 authenticator transport reused (maxLegs + more) 0 start.2
          start.1 stream = connect ∧
        forwardLegsOver http base64 authenticator parts body sender (maxLegs + more) 0 start.2
          start.1 stream' = forward) ∧
      (∀ dst (socket : Socket), socket.Spares exhaustedLegs →
        (handshake base64 authenticator reused auth dst socket).NotExhausted) ∧
      (sender.Never .exhausted → forward.result ≠ .error .exhausted) := by
  intro start connect forward
  refine ⟨handshakeOver_allows base64 authenticator transport reused auth stream,
    forwardHandshakeOver_allows base64 authenticator http parts body sender auth stream',
    fun more => ⟨?_, ?_⟩, fun dst socket hspares => ?_, fun hnever => ?_⟩
  · exact (handshakeFrom_spends base64 authenticator transport reused).add_cap
      (answersLeft_turn auth stream) more
  · exact (forwardFrom_spends base64 authenticator http parts body sender).add_cap
      (answersLeft_turn auth stream') more
  · have hstart : (auth.turn socket).stream.Spares exhaustedLegs := hspares
    exact (handshakeFrom_endsWell base64 authenticator reused dst).good hstart
      (answersLeft_turn auth socket)
  · exact (forwardFrom_endsWell base64 authenticator http parts body sender hnever).good trivial
      (answersLeft_turn auth stream')

end

/-- A gateway that continues the negotiation for ever. -/
def stubborn : List Response := List.replicate 12 continuedChallenge

theorem handshakes_within_caps_stubborn :
    let connect := handshake standardBase64 countingAuthenticator true (.negotiate 7) sampleTarget
      (responsesSocket stubborn)
    let forward := forwardHandshakeOver orderedHttp standardBase64 countingAuthenticator
      sampleParts [] (responseSender orderedHttp sampleParts.method) (.negotiate 7) (some stubborn)
    (connect.legs.length = 11 ∧ connect.NotExhausted) ∧
      forward.legs.length = 11 ∧ forward.result ≠ .error .exhausted := by
  intro connect forward
  obtain ⟨-, -, -, hconnect, hforward⟩ := handshakes_within_caps standardBase64
    countingAuthenticator (wireTransport sampleTarget) true orderedHttp sampleParts []
    (responseSender orderedHttp sampleParts.method) (.negotiate 7) (responsesSocket stubborn)
    (some stubborn)
  refine ⟨⟨by decide +kernel, hconnect sampleTarget _ ⟨?_, ?_⟩⟩, by decide +kernel,
    hforward (responseSender_never _ _)⟩
  · simp [responsesSocket]
  · simp [responsesSocket]

end Zicade.Upstream
