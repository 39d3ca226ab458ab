import Zicade.Upstream.Forward

/-! # The two authenticated paths answer a gateway alike

Both loops drive the same auth state; they differ in how they read a head and in
how they get past a body. The driver looks at the keyword a first 407 teaches and
at the continuation token, so the loops send the same values as long as both
readings give the same ones and both are at the next response after each answer.
-/

namespace Zicade.Upstream

open Zicade.Foundation Zicade.Auth Zicade.Net

/-- The headers of a response as the CONNECT loop reads them. -/
def connectHeaders (response : Response) : Headers := (parseHead response.head.encode).2

theorem connectHeaders_eq (response : Response) :
    connectHeaders response = response.head.headers := by
  rw [connectHeaders, response.head.parseHead_encode]
  rfl

/-- The headers of a response as the forward loop reads them. -/
def forwardHeaders (http : HttpCrate) (response : Response) : Headers :=
  headerPairs http response.head.fields

section

variable (base64 : Base64)

/-- The keyword a first 407 with these headers teaches, if it can be answered. -/
def taughtKeyword (headers : Headers) : Option AuthScheme :=
  (firstLegScheme headers (negotiateOffer base64 headers)).toOption

/-- The driver has a keyword to answer a 407 under, learned or taught. -/
def Answerable (learned : Bool) (headers : Headers) : Prop :=
  learned = true ∨ taughtKeyword base64 headers ≠ none

/-- Two readings of one 407 say the same to the driver: the same continuation
token and, as long as no keyword is learned, the same keyword. -/
def ReadAlike (learned : Bool) (left right : Headers) : Prop :=
  (learned = false → taughtKeyword base64 left = taughtKeyword base64 right) ∧
    (Answerable base64 learned left →
      (negotiateOffer base64 left).token = (negotiateOffer base64 right).token)

/-- Both loops are at the next response after the body of this one: the CONNECT loop
drains exactly its bytes, and the client reads it to an end of its own and keeps
the connection. -/
structure DrainedAlike (http : HttpCrate) (method : Text) (response : Response) : Prop where
  small : response.body.size ≤ maxDrainBytes
  drainable : response.Drainable
  limits : response.DrainLimit
  taken : method ≠ "HEAD".toList → http.takesBody response.body = true
  delimited : method ≠ "HEAD".toList → closeDelimited http response.head = false
  kept : closesAfter http response.head = false

/-- Every 407 up to the first other response is read alike by both loops, and the
body of each that can be answered is drained alike. -/
def AnswersAlike (http : HttpCrate) (method : Text) (learned : Bool) : List Response → Prop
  | [] => True
  | response :: rest => response.head.status = 407 →
      ReadAlike base64 learned (connectHeaders response) (forwardHeaders http response) ∧
        (Answerable base64 learned (connectHeaders response) →
          DrainedAlike http method response ∧ AnswersAlike http method true rest)

/-- Both loops take the response for an answer: it is not interim, and its head is
within the limits of both readers. -/
structure Response.Readable (http : HttpCrate) (response : Response) : Prop where
  answer : response.interim = false
  line : lineLimit response.head.encode
  taken : http.takesHead response.head = true

end

/-! ## The driver -/

section

variable {σ : Type*} (base64 : Base64) (authenticator : Authenticator σ)

theorem legKeyword_learned {keyword : AuthScheme} (headers : Headers) :
    legKeyword base64 (some keyword) headers = .ok keyword := rfl

/-- Headers that are read alike get the same answer, or none at all. -/
theorem negotiateLeg_alike (state : NegotiateState σ) {left right : Headers}
    (halike : ReadAlike base64 state.scheme.isSome left right) :
    (∃ err err', negotiateLeg base64 authenticator state left = (.error err, state) ∧
        negotiateLeg base64 authenticator state right = (.error err', state)) ∨
      negotiateLeg base64 authenticator state left =
        negotiateLeg base64 authenticator state right := by
  obtain ⟨hkeyword, htoken⟩ := halike
  unfold negotiateLeg
  cases hscheme : state.scheme with
  | some learned =>
      -- a keyword that is learned stays, whatever this 407 offers
      rw [hscheme] at htoken
      simp only [legKeyword_learned, htoken (.inl rfl)]
      exact .inr trivial
  | none =>
      rw [hscheme] at hkeyword htoken
      have hkeyword := hkeyword rfl
      simp only [legKeyword]
      unfold Answerable at htoken
      unfold taughtKeyword at hkeyword htoken
      cases hleft : firstLegScheme left (negotiateOffer base64 left) with
      | error err =>
          rw [hleft] at hkeyword
          cases hright : firstLegScheme right (negotiateOffer base64 right) with
          | error err' => exact .inl ⟨err, err', rfl, rfl⟩
          | ok keyword =>
              rw [hright] at hkeyword
              cases hkeyword
      | ok keyword =>
          rw [hleft] at hkeyword htoken
          have hright : firstLegScheme right (negotiateOffer base64 right) = .ok keyword := by
            cases hright : firstLegScheme right (negotiateOffer base64 right) with
            | error err =>
                rw [hright] at hkeyword
                cases hkeyword
            | ok other =>
                rw [hright] at hkeyword
                rw [Option.some.inj hkeyword]
          rw [hright, htoken (.inr (by simp [Except.toOption]))]
          exact .inr rfl

theorem onChallenge_alike (state : AuthState σ) {left right : Headers}
    (halike : ∀ negotiation, state = .negotiate negotiation →
      ReadAlike base64 negotiation.scheme.isSome left right) :
    (∃ err err' next next', state.onChallenge base64 authenticator left = (.error err, next) ∧
        state.onChallenge base64 authenticator right = (.error err', next')) ∨
      state.onChallenge base64 authenticator left =
        state.onChallenge base64 authenticator right := by
  cases state with
  | none => exact .inr rfl
  | basic credentials sent => exact .inr rfl
  | negotiate state =>
      rcases negotiateLeg_alike base64 authenticator state (halike state rfl) with
        ⟨err, err', hleft, hright⟩ | heq
      · refine .inl ⟨err, err', .negotiate state, .negotiate state, ?_, ?_⟩
        · simp only [AuthState.onChallenge, hleft]
        · simp only [AuthState.onChallenge, hright]
      · right
        simp only [AuthState.onChallenge, heq]

/-- An answered 407 leaves the keyword learned. -/
theorem onChallenge_learned {state : AuthState σ} {negotiation : NegotiateState σ}
    {headers : Headers} {value : Text} (hanswer :
      state.onChallenge base64 authenticator headers = (.ok value, .negotiate negotiation)) :
    negotiation.scheme.isSome = true := by
  rcases onChallenge_cases base64 authenticator hanswer with
    ⟨-, hnext⟩ | ⟨before, after, -, hnext, hleg⟩
  · cases hnext
  · obtain rfl := AuthState.negotiate.inj hnext
    obtain ⟨keyword, token, -, -, hscheme, -⟩ := negotiateLeg_ok base64 authenticator hleg
    rw [hscheme]
    rfl

/-- A mode whose one answer is given, or none, refuses every 407. -/
theorem onChallenge_spent {state : AuthState σ}
    (hspent : ∀ credentials, state ≠ .basic credentials false)
    (hplain : ∀ negotiation, state ≠ .negotiate negotiation) (headers : Headers) :
    ∃ err, (state.onChallenge base64 authenticator headers).1 = .error err := by
  cases state with
  | none => exact ⟨_, rfl⟩
  | basic credentials sent =>
      cases sent with
      | false => exact absurd rfl (hspent credentials)
      | true => exact ⟨_, rfl⟩
  | negotiate negotiation => exact absurd rfl (hplain negotiation)

/-- A 407 without a keyword to answer it under is refused. -/
theorem onChallenge_unanswerable (negotiation : NegotiateState σ) {headers : Headers}
    (hnot : ¬Answerable base64 negotiation.scheme.isSome headers) :
    ∃ err, ((AuthState.negotiate negotiation).onChallenge base64 authenticator headers).1 =
      .error err := by
  unfold Answerable taughtKeyword at hnot
  simp only [AuthState.onChallenge, negotiateLeg, legKeyword]
  cases hscheme : negotiation.scheme with
  | some learned => simp [hscheme] at hnot
  | none =>
      cases hfirst : firstLegScheme headers (negotiateOffer base64 headers) with
      | error err => exact ⟨err, rfl⟩
      | ok keyword => simp [hfirst, Except.toOption] at hnot

/-- Readings that are alike are answerable together. -/
theorem ReadAlike.answerable {learned : Bool} {left right : Headers}
    (halike : ReadAlike base64 learned left right) :
    Answerable base64 learned left ↔ Answerable base64 learned right := by
  cases learned with
  | true => simp [Answerable]
  | false => simp only [Answerable, halike.1 rfl]

/-! ## Values both paths can send -/

/-- The text can stand as a header value. -/
def ValidValue (value : Text) : Prop := (asBytes value).all isFieldByte = true

instance (value : Text) : Decidable (ValidValue value) := inferInstanceAs (Decidable (_ = true))

theorem ValidValue.append {front back : Text} (hfront : ValidValue front)
    (hback : ValidValue back) : ValidValue (front ++ back) := by
  rw [ValidValue, asBytes_append, List.all_append, hfront, hback]
  rfl

theorem validValue_encode (bytes : Bytes) : ValidValue (base64.encode bytes) := by
  have hchar : ∀ c ∈ base64Alphabet, (String.utf8EncodeChar c).all isFieldByte = true := by
    decide +kernel
  rw [ValidValue, asBytes, List.all_flatMap, List.all_eq_true]
  intro c hc
  exact hchar c (base64.encode_alphabet bytes c hc)

theorem validValue_buildProxyAuthorization (scheme : AuthScheme) (token : Bytes) :
    ValidValue (buildProxyAuthorization base64 scheme token) := by
  have hkeyword : ValidValue (scheme.keyword ++ [' ']) := by
    cases scheme <;> decide
  have hsplit : buildProxyAuthorization base64 scheme token =
      (scheme.keyword ++ [' ']) ++ base64.encode token := by
    simp [buildProxyAuthorization]
  rw [hsplit]
  exact hkeyword.append (validValue_encode base64 token)

/-! ## The loops -/

/-- The `Proxy-Authorization` values of a request. -/
def Request.authorizations (request : Request) : List Bytes :=
  (request.parts.headers.filter fun header => header.1 == proxyAuthorization).map Prod.snd

/-- The `Proxy-Authorization` values of a CONNECT leg. -/
def Leg.authorizations (leg : Leg) : List Bytes := leg.auth.toList.map asBytes

/-- The last answer was a 407, and the CONNECT handshake failed on it. -/
def Exchange.FailsOn407 {τ : Type} (exchange : Exchange τ) : Prop :=
  exchange.legs.getLast?.map (fun leg => leg.head.map Prod.fst) = some (some 407) ∧
    exchange.result ≠ .ok ()

/-- The last answer was a 407, and the forward handshake failed on it. -/
def ForwardRun.FailsOn407 (run : ForwardRun) : Prop :=
  run.legs.getLast?.map (·.status) = some (some 407) ∧ ∀ final, run.result ≠ .ok final

/-- The legs carry the same credentials, and one side fails on a 407 exactly
when the other does. -/
structure SameAnswers {τ : Type} (exchange : Exchange τ) (run : ForwardRun) : Prop where
  authorizations : exchange.legs.map Leg.authorizations =
    run.legs.map fun leg => leg.request.authorizations
  fails : exchange.FailsOn407 ↔ run.FailsOn407

variable (http : HttpCrate) (parts : Parts) (body : Bytes)

/-- A request carries the value it is given and none of the client's. -/
theorem upstreamRequest_authorizations {auth : Option Text}
    (hauth : ∀ value, auth = some value → ValidValue value) :
    ∃ request, upstreamRequest http parts body auth = .ok request ∧
      request.authorizations = auth.toList.map asBytes := by
  have hkept : ((parts.headers.filter fun header => !strippedHeaders.contains header.1) ++
      [("connection".toList, ascii "keep-alive".toList)]).filter
        (fun header => header.1 == proxyAuthorization) = [] := by
    rw [List.filter_append, List.filter_filter]
    have hclient : parts.headers.filter (fun header =>
        (header.1 == proxyAuthorization) && !strippedHeaders.contains header.1) = [] := by
      rw [List.filter_eq_nil_iff]
      intro header _ hboth
      simp only [Bool.and_eq_true, beq_iff_eq, Bool.not_eq_true'] at hboth
      rw [hboth.1] at hboth
      exact absurd hboth.2 (by decide)
    rw [hclient]
    decide
  cases auth with
  | none => exact ⟨_, rfl, by simp only [Request.authorizations, hkept]; rfl⟩
  | some value =>
      have hvalue : http.headerValue value = some (asBytes value) := by
        rw [http.headerValue_eq]
        exact if_pos (hauth value rfl)
      refine ⟨_, by simp only [upstreamRequest, hvalue]; rfl, ?_⟩
      simp only [Request.authorizations]
      rw [List.filter_append, hkept]
      rfl

/-- One leg on each side, ended on the same answer. -/
theorem SameAnswers.of_single {τ : Type} {leg : Leg} {forwardLeg : ForwardLeg} {stream : τ}
    {result : Except (Halt Failure) Unit} {final : Except ForwardError (Response × Nat)}
    (hauthorizations : leg.authorizations = forwardLeg.request.authorizations)
    (hstatus : leg.head.map Prod.fst = forwardLeg.status)
    (hfails : forwardLeg.status = some 407 → (result ≠ .ok () ↔ ∀ response, final ≠ .ok response)) :
    SameAnswers ⟨[leg], result, stream⟩ ⟨[forwardLeg], final⟩ := by
  refine ⟨by simp [hauthorizations], ?_⟩
  simp only [Exchange.FailsOn407, ForwardRun.FailsOn407, List.getLast?_singleton, Option.map_some,
    Option.some.injEq, hstatus]
  exact and_congr_right hfails

theorem SameAnswers.cons {τ : Type} {exchange : Exchange τ} {run : ForwardRun}
    (h : SameAnswers exchange run) {leg : Leg} {forwardLeg : ForwardLeg}
    (hauthorizations : leg.authorizations = forwardLeg.request.authorizations)
    (hstatus : leg.head.map Prod.fst = forwardLeg.status)
    (hempty : exchange.legs = [] → exchange.result ≠ .ok () ∧ ∀ final, run.result ≠ .ok final) :
    SameAnswers (exchange.cons leg) (run.cons forwardLeg) := by
  obtain ⟨hlegs, hfails⟩ := h
  refine ⟨by simp [Exchange.cons, ForwardRun.cons, hauthorizations, hlegs], ?_⟩
  have hlength := congrArg List.length hlegs
  rw [List.length_map, List.length_map] at hlength
  unfold Exchange.FailsOn407 ForwardRun.FailsOn407 at hfails ⊢
  -- with legs behind it the new one is not the last, so the verdicts stand
  cases hexchange : exchange.legs with
  | nil =>
      have hrun : run.legs = [] := by
        apply List.length_eq_zero_iff.mp
        rw [← hlength, hexchange]
        rfl
      obtain ⟨herror, hforward⟩ := hempty hexchange
      simp [Exchange.cons, ForwardRun.cons, hexchange, hrun, hstatus, herror, hforward]
  | cons first legs =>
      cases hrun : run.legs with
      | nil =>
          rw [hexchange, hrun] at hlength
          cases hlength
      | cons firstForward forwardLegs =>
          rw [hexchange, hrun] at hfails
          simpa [Exchange.cons, ForwardRun.cons, hexchange, hrun] using hfails

/-- A 407 that the driver refuses ends the CONNECT loop, whatever its body does. -/
theorem handshakeLegs_of_refused407 {τ : Type} (transport : Transport τ) {reused : Bool}
    (left : Nat) {leg : Nat} {authState : AuthState σ} {auth : Option Text} {stream after : τ}
    {headers : Headers}
    (hsend : transport.sendLeg auth (reused && leg == 0) stream = (.ok (407, headers), after))
    (hrefused : ∃ err, (authState.onChallenge base64 authenticator headers).1 = .error err) :
    ∃ halt stream', handshakeLegs base64 authenticator transport reused (left + 1) leg authState
      auth stream = ⟨[⟨auth, some (407, headers)⟩], .error halt, stream'⟩ := by
  rw [handshakeLegs_of_answered base64 authenticator (by decide) hsend]
  obtain ⟨err, herr⟩ := hrefused
  split
  next halt drained _ => exact ⟨_, _, rfl⟩
  next drained _ =>
    rw [if_neg (by simp)]
    split
    next => exact ⟨_, _, rfl⟩
    next hanswer =>
      rw [hanswer] at herr
      cases herr

section

variable (transport : Transport Socket) {reused : Bool} (left : Nat) {leg : Nat}
  {authState : AuthState σ} {auth : Option Text} {response : Response} {socket after : Socket}

theorem parsed_of_status407 (hstatus : response.head.status = 407) :
    response.head.parsed = (407, connectHeaders response) := by
  rw [connectHeaders_eq, ← hstatus]
  rfl

theorem handshakeLegs_of_answered407 {value : Text} {next : AuthState σ} {drained : Socket}
    (hstatus : response.head.status = 407)
    (hsend : transport.sendLeg auth (reused && leg == 0) socket = (.ok response.head.parsed, after))
    (hdrain : transport.drainBody (connectHeaders response) after = (.ok (), drained))
    (hanswer : authState.onChallenge base64 authenticator (connectHeaders response) =
      (.ok value, next)) :
    handshakeLegs base64 authenticator transport reused (left + 1) leg authState auth socket =
      (handshakeLegs base64 authenticator transport reused left (leg + 1) next (some value)
        drained).cons ⟨auth, some (407, connectHeaders response)⟩ := by
  rw [parsed_of_status407 hstatus] at hsend
  rw [handshakeLegs_of_answered base64 authenticator (by decide) hsend]
  simp only [hdrain, hanswer, ne_eq, not_true_eq_false, if_false]

variable (authState) in
/-- Any answer but a 407 ends the loop. -/
theorem handshakeLegs_of_final (hstatus : response.head.status ≠ 407)
    (hsend : transport.sendLeg auth (reused && leg == 0) socket =
      (.ok response.head.parsed, after)) :
    ∃ result stream, handshakeLegs base64 authenticator transport reused (left + 1) leg authState
      auth socket = ⟨[⟨auth, some response.head.parsed⟩], result, stream⟩ := by
  by_cases hgranted : response.head.status = 200
  · rw [ResponseHead.parsed_of_granted hgranted] at hsend ⊢
    exact ⟨_, _, handshakeLegs_of_granted base64 authenticator hsend⟩
  · rw [handshakeLegs_of_answered base64 authenticator hgranted hsend]
    split
    next => exact ⟨_, _, rfl⟩
    next =>
      rw [if_pos hstatus]
      exact ⟨_, _, rfl⟩

end

section

variable {http parts body} {left leg : Nat} {authState : AuthState σ} {auth : Option Text}
  {request : Request} {response : Response} {rest : List Response}

/-- The round of a request whose answer the client takes. -/
theorem forwardLegs_of_answered (hrequest : upstreamRequest http parts body auth = .ok request)
    (hreadable : response.Readable http) :
    forwardLegs http base64 authenticator parts body (left + 1) leg authState auth
        (some (response :: rest)) =
      if response.head.status ≠ 407 then
        ⟨[⟨request, some response.head.status⟩], .ok (response, leg + 1)⟩
      else match collectBody http parts.method response rest with
        | .error err => ⟨[⟨request, some response.head.status⟩], .error err⟩
        | .ok connection =>
            match authState.onChallenge base64 authenticator (forwardHeaders http response) with
            | (.error err, _) => ⟨[⟨request, some response.head.status⟩], .error (.io err)⟩
            | (.ok value, authState) =>
                (forwardLegs http base64 authenticator parts body left (leg + 1) authState
                  (some value) connection).cons ⟨request, some response.head.status⟩ :=
  forwardLegs_of_taken http base64 authenticator parts body hrequest hreadable.answer
    hreadable.taken

variable (left leg rest) in
/-- A 407 that the driver refuses ends the forward loop, whatever its body does. -/
theorem forwardLegs_of_refused407 (hrequest : upstreamRequest http parts body auth = .ok request)
    (hreadable : response.Readable http) (hstatus : response.head.status = 407)
    (hrefused : ∃ err, (authState.onChallenge base64 authenticator
      (forwardHeaders http response)).1 = .error err) :
    ∃ err, forwardLegs http base64 authenticator parts body (left + 1) leg authState auth
      (some (response :: rest)) = ⟨[⟨request, some 407⟩], .error err⟩ := by
  rw [forwardLegs_of_answered base64 authenticator hrequest hreadable, hstatus, if_neg (by simp)]
  obtain ⟨err, herr⟩ := hrefused
  split
  next => exact ⟨_, rfl⟩
  next =>
    split
    next => exact ⟨_, rfl⟩
    next hanswer =>
      rw [hanswer] at herr
      cases herr

/-- The client is at the next response. -/
theorem DrainedAlike.collectBody_eq (hdrained : DrainedAlike http parts.method response) :
    collectBody http parts.method response rest = .ok (some rest) := by
  rw [collectBody, hdrained.kept]
  by_cases hhead : parts.method = "HEAD".toList
  · rw [if_pos hhead]
    rfl
  · rw [if_neg hhead, hdrained.delimited hhead, hdrained.taken hhead]
    exact if_neg (Nat.not_lt.mpr hdrained.small)

theorem forwardLegs_of_answered407 (hrequest : upstreamRequest http parts body auth = .ok request)
    (hreadable : response.Readable http) (hstatus : response.head.status = 407)
    (hdrained : DrainedAlike http parts.method response) {value : Text} {next : AuthState σ}
    (hanswer : authState.onChallenge base64 authenticator (forwardHeaders http response) =
      (.ok value, next)) :
    forwardLegs http base64 authenticator parts body (left + 1) leg authState auth
        (some (response :: rest)) =
      (forwardLegs http base64 authenticator parts body left (leg + 1) next (some value)
        (some rest)).cons ⟨request, some 407⟩ := by
  rw [forwardLegs_of_answered base64 authenticator hrequest hreadable, if_neg (by simp [hstatus])]
  simp only [hdrained.collectBody_eq, hanswer, hstatus]

end

/-- A gateway that is still to send these responses, the last of which may be followed by
anything; one of them is not a 407. -/
structure Answering (http : HttpCrate) (responses : List Response) (socket : Socket) : Prop where
  accepting : socket.Accepting
  incoming : ∃ tail, socket.incoming = responses.flatMap Response.encode ++ tail
  readable : ∀ response ∈ responses, response.Readable http
  ended : ∃ response ∈ responses, response.head.status ≠ 407

/-- A leg on the wire reads the head of the next response. -/
theorem Answering.sendLeg {http : HttpCrate} {response : Response} {rest : List Response}
    {socket : Socket} (hanswering : Answering http (response :: rest) socket) (dst : Text)
    (auth : Option Text) (firstReused : Bool) :
    ∃ after, Upstream.sendLeg dst auth firstReused socket = (.ok response.head.parsed, after) ∧
      after.Accepting ∧
      ∃ tail, after.incoming =
        response.body.encode ++ (rest.flatMap Response.encode ++ tail) := by
  obtain ⟨tail, hincoming⟩ := hanswering.incoming
  have hbytes : socket.incoming = response.head.encode ++
      (response.body.encode ++ (rest.flatMap Response.encode ++ tail)) := by
    rw [hincoming]
    simp [Response.encode]
  obtain ⟨after, ⟨hrest, hwrites, hsend⟩ | ⟨hnot, -⟩⟩ :=
    sendLeg_reads dst auth firstReused response.head hbytes
  · exact ⟨after, hsend, accepting_of_writes_tail hanswering.accepting hwrites, tail, hrest⟩
  · exact absurd ⟨hanswering.accepting,
      (hanswering.readable response List.mem_cons_self).line⟩ hnot

/-- Past a 407 that is drained alike the gateway is at its next response. -/
theorem Answering.drained {http : HttpCrate} {method : Text} {response : Response}
    {rest : List Response} {socket after : Socket}
    (hanswering : Answering http (response :: rest) socket) (hstatus : response.head.status = 407)
    (hdrained : DrainedAlike http method response) (haccepting : after.Accepting) {tail : Bytes}
    (hincoming : after.incoming = response.body.encode ++ (rest.flatMap Response.encode ++ tail)) :
    ∃ next, drainBody (connectHeaders response) after = (.ok (), next) ∧
      Answering http rest next := by
  rw [connectHeaders_eq]
  obtain ⟨next, hdrain, hconsumed⟩ := (Response.drain407_reads hstatus hdrained.small
    hdrained.drainable hincoming).exists_ok hdrained.limits
  refine ⟨next, hdrain, ?_, ⟨tail, hconsumed.incoming_eq hincoming⟩,
    fun other hmem => hanswering.readable other (List.mem_cons_of_mem _ hmem), ?_⟩
  · intro outcome hmem
    rw [hconsumed.writes] at hmem
    exact haccepting outcome hmem
  · -- the answer that is no 407 is still to come
    obtain ⟨final, hmem, hfinal⟩ := hanswering.ended
    rcases List.mem_cons.mp hmem with rfl | hmem
    · exact absurd hstatus hfinal
    · exact ⟨final, hmem, hfinal⟩

variable (dst : Text) (reused : Bool)

/-- A 407 is refused by both loops, or answered by both with one value and drained alike. -/
theorem challenge_alike (method : Text) {authState : AuthState σ}
    (hspent : ∀ credentials, authState ≠ .basic credentials false) {response : Response}
    {rest : List Response} (halike : ∀ negotiation, authState = .negotiate negotiation →
      AnswersAlike base64 http method negotiation.scheme.isSome (response :: rest))
    (hstatus : response.head.status = 407) :
    let connect := authState.onChallenge base64 authenticator (connectHeaders response)
    let forward := authState.onChallenge base64 authenticator (forwardHeaders http response)
    ((∃ err, connect.1 = .error err) ∧ ∃ err, forward.1 = .error err) ∨
      ∃ value learned, ValidValue value ∧ DrainedAlike http method response ∧
        connect = (.ok value, .negotiate learned) ∧ forward = (.ok value, .negotiate learned) ∧
        AnswersAlike base64 http method learned.scheme.isSome rest := by
  by_cases hnegotiate : ∃ negotiation, authState = .negotiate negotiation
  · obtain ⟨negotiation, rfl⟩ := hnegotiate
    obtain ⟨hread, hanswered⟩ := halike negotiation rfl hstatus
    by_cases hanswerable : Answerable base64 negotiation.scheme.isSome (connectHeaders response)
    · obtain ⟨hdrained, hrest⟩ := hanswered hanswerable
      -- the driver refuses both readings, or answers them alike
      rcases onChallenge_alike base64 authenticator (.negotiate negotiation)
          (fun other hother => AuthState.negotiate.inj hother ▸ hread) with
        ⟨err, err', next, next', hconnect, hforward⟩ | heq
      · exact .inl ⟨⟨err, by rw [hconnect]⟩, err', by rw [hforward]⟩
      · cases hanswer : (AuthState.negotiate negotiation).onChallenge base64 authenticator
            (connectHeaders response) with
        | mk result next =>
            cases result with
            | error err => exact .inl ⟨⟨err, rfl⟩, err, by rw [← heq, hanswer]⟩
            | ok value =>
                obtain ⟨hplain, -⟩ | ⟨before, learned, -, rfl, hleg⟩ :=
                  onChallenge_cases base64 authenticator hanswer
                · cases hplain
                obtain ⟨keyword, token, -, rfl, -, -⟩ := negotiateLeg_ok base64 authenticator hleg
                refine .inr ⟨_, learned, validValue_buildProxyAuthorization base64 keyword token,
                  hdrained, rfl, heq ▸ hanswer, ?_⟩
                rw [onChallenge_learned base64 authenticator hanswer]
                exact hrest
    · exact .inl ⟨onChallenge_unanswerable base64 authenticator _ hanswerable,
        onChallenge_unanswerable base64 authenticator _ (mt hread.answerable.mpr hanswerable)⟩
  · have hplain : ∀ negotiation, authState ≠ .negotiate negotiation := fun negotiation heq =>
      hnegotiate ⟨negotiation, heq⟩
    exact .inl ⟨onChallenge_spent base64 authenticator hspent hplain _,
      onChallenge_spent base64 authenticator hspent hplain _⟩

/-- On both sides the 407 ends the loop. -/
theorem sameAnswers_of_refused407 (left leg leg' : Nat) (authState : AuthState σ)
    {auth : Option Text} {request : Request} {response : Response} (rest : List Response)
    {socket after : Socket} (hrequest : upstreamRequest http parts body auth = .ok request)
    (hauthorizations : request.authorizations = auth.toList.map asBytes)
    (hreadable : response.Readable http) (hstatus : response.head.status = 407)
    (hsend : sendLeg dst auth (reused && leg == 0) socket = (.ok response.head.parsed, after))
    (hconnect : ∃ err, (authState.onChallenge base64 authenticator
      (connectHeaders response)).1 = .error err)
    (hforward : ∃ err, (authState.onChallenge base64 authenticator
      (forwardHeaders http response)).1 = .error err) :
    let exchange := handshakeLegs base64 authenticator (wireTransport dst) reused (left + 1) leg
      authState auth socket
    let run := forwardLegs http base64 authenticator parts body (left + 1) leg' authState auth
      (some (response :: rest))
    SameAnswers exchange run ∧
      (exchange.legs = [] → exchange.result ≠ .ok () ∧ ∀ final, run.result ≠ .ok final) := by
  rw [parsed_of_status407 hstatus] at hsend
  obtain ⟨halt, stream, hleft⟩ := handshakeLegs_of_refused407 base64 authenticator
    (wireTransport dst) left hsend hconnect
  obtain ⟨err, hright⟩ := forwardLegs_of_refused407 base64 authenticator left leg' rest hrequest
    hreadable hstatus hforward
  rw [hleft, hright]
  exact ⟨.of_single hauthorizations.symm rfl (by simp), by simp⟩

theorem legs_sameAnswers (left leg leg' : Nat) {authState : AuthState σ} {auth : Option Text}
    (hspent : ∀ credentials, authState ≠ .basic credentials false)
    (hauth : ∀ value, auth = some value → ValidValue value) {responses : List Response}
    {socket : Socket} (hanswering : Answering http responses socket)
    (halike : ∀ negotiation, authState = .negotiate negotiation →
      AnswersAlike base64 http parts.method negotiation.scheme.isSome responses) :
    let exchange := handshakeLegs base64 authenticator (wireTransport dst) reused left leg authState
      auth socket
    let run := forwardLegs http base64 authenticator parts body left leg' authState auth
      (some responses)
    SameAnswers exchange run ∧
      (exchange.legs = [] → exchange.result ≠ .ok () ∧ ∀ final, run.result ≠ .ok final) := by
  induction left generalizing leg leg' authState auth responses socket with
  | zero =>
      refine ⟨⟨rfl, ?_⟩, fun _ => ⟨by simp [handshakeLegs], by simp [forwardLegs]⟩⟩
      simp [Exchange.FailsOn407, ForwardRun.FailsOn407, handshakeLegs, forwardLegs]
  | succ left ih =>
      obtain ⟨request, hrequest, hauthorizations⟩ :=
        upstreamRequest_authorizations http parts body hauth
      cases responses with
      | nil =>
          obtain ⟨final, hmem, -⟩ := hanswering.ended
          cases hmem
      | cons response rest =>
          have hreadable := hanswering.readable response List.mem_cons_self
          obtain ⟨after, hsend, haccepting, tail, hincoming⟩ :=
            hanswering.sendLeg dst auth (reused && leg == 0)
          by_cases hstatus : response.head.status = 407
          · rcases challenge_alike base64 authenticator http parts.method hspent halike hstatus with
              ⟨hconnect, hforward⟩ | ⟨value, learned, hvalue, hdrained, hconnect, hforward, hrest⟩
            · exact sameAnswers_of_refused407 base64 authenticator http parts body dst reused left
                leg leg' authState rest hrequest hauthorizations hreadable hstatus hsend hconnect
                hforward
            · -- both answer with the same value and are at the next response
              obtain ⟨drained, hdrain, hnext⟩ :=
                hanswering.drained hstatus hdrained haccepting hincoming
              have hnegotiates : ∀ credentials, AuthState.negotiate learned ≠
                  .basic credentials false := by simp
              have halike' : ∀ negotiation, AuthState.negotiate learned = .negotiate negotiation →
                  AnswersAlike base64 http parts.method negotiation.scheme.isSome rest := by
                rintro negotiation hsame
                rwa [← AuthState.negotiate.inj hsame]
              have hvalid : ∀ other, some value = some other → ValidValue other := by
                rintro other hsame
                rwa [← Option.some.inj hsame]
              have hread : (wireTransport dst).drainBody (connectHeaders response) after =
                  (.ok (), drained) := by rw [wireTransport_drainBody, hdrain]
              obtain ⟨hsame, hempty⟩ := ih (leg + 1) (leg' + 1) hnegotiates hvalid hnext halike'
              rw [handshakeLegs_of_answered407 base64 authenticator (wireTransport dst) left hstatus
                  hsend hread hconnect,
                forwardLegs_of_answered407 base64 authenticator hrequest hreadable hstatus hdrained
                  hforward]
              exact ⟨hsame.cons hauthorizations.symm rfl hempty, by simp [Exchange.cons]⟩
          · -- any other answer ends both loops
            obtain ⟨result, stream, hleft⟩ := handshakeLegs_of_final base64 authenticator
              (wireTransport dst) left authState hstatus hsend
            rw [hleft, forwardLegs_of_answered base64 authenticator hrequest hreadable,
              if_pos hstatus]
            exact ⟨.of_single hauthorizations.symm rfl (by simp [hstatus]), by simp⟩

end

/-! ## Challenges in visible ASCII -/

theorem isWhitespace_asciiChar {b : UInt8} (hb : isVisibleAscii b = true) :
    isWhitespace (asciiChar b) = (b == 32 || b == 9) := by
  have hall : ∀ n < 256, isVisibleAscii (UInt8.ofNat n) = true →
      isWhitespace (asciiChar (UInt8.ofNat n)) =
        (UInt8.ofNat n == 32 || UInt8.ofNat n == 9) := by decide +kernel
  have hbyte := hall b.toNat b.toNat_lt
  rw [UInt8.ofNat_toNat] at hbyte
  exact hbyte hb

theorem isAscii_of_isVisibleAscii {b : UInt8} (hb : isVisibleAscii b = true) :
    isAscii b = true := by
  simp only [isVisibleAscii, Bool.or_eq_true, Bool.and_eq_true, decide_eq_true_eq,
    beq_iff_eq] at hb
  simp only [isAscii, decide_eq_true_eq]
  omega

theorem dropWhile_asciiChar {value : Bytes} (hvisible : ∀ b ∈ value, isVisibleAscii b = true) :
    (value.map asciiChar).dropWhile isWhitespace =
      (value.dropWhile fun b => b == 32 || b == 9).map asciiChar := by
  induction value with
  | nil => rfl
  | cons b rest ih =>
      have hb := isWhitespace_asciiChar (hvisible b List.mem_cons_self)
      rw [List.map_cons, List.dropWhile_cons, List.dropWhile_cons, hb]
      split
      next => exact ih fun c hc => hvisible c (List.mem_cons_of_mem b hc)
      next => rfl

/-- On visible ASCII the two ways of trimming a value agree. -/
theorem trim_asciiChar {value : Bytes} (hvisible : ∀ b ∈ value, isVisibleAscii b = true) :
    trim (value.map asciiChar) = (trimOws value).map asciiChar := by
  have hdropped : ∀ b ∈ (value.dropWhile fun b => b == 32 || b == 9).reverse,
      isVisibleAscii b = true := fun b hb =>
    hvisible b (List.dropWhile_subset _ (List.mem_reverse.mp hb))
  rw [trim, dropWhile_asciiChar hvisible, List.rdropWhile, ← List.map_reverse,
    dropWhile_asciiChar hdropped, ← List.map_reverse]
  rfl

theorem challenges_eq_of_fieldValues {left right : Headers}
    (heq : fieldValues left proxyAuthenticate = fieldValues right proxyAuthenticate) :
    challenges left = challenges right := by
  have hvalues : ∀ headers : Headers, challenges headers =
      ((fieldValues headers proxyAuthenticate).flatMap valuePieces).filter startsChallenge := by
    intro headers
    rw [challenges, fieldValues, List.flatMap_map]
  rw [hvalues, hvalues, heq]

/-- A head whose challenges are visible ASCII is read alike by both loops. -/
theorem challenges_headerPairs (http : HttpCrate) {fields : List Field}
    (hvisible : ∀ field ∈ fields, toAsciiLowercase field.name = proxyAuthenticate →
      ∀ b ∈ field.value, isVisibleAscii b = true) :
    challenges (headerPairs http fields) = challenges (fields.map Field.read) := by
  apply challenges_eq_of_fieldValues
  have hpairs : fieldValues (headerPairs http fields) proxyAuthenticate =
      ((http.iter fields).filter fun header => header.1 == proxyAuthenticate).filterMap
        fun header => http.toStr header.2 := by
    rw [fieldValues, headerPairs]
    induction http.iter fields with
    | nil => rfl
    | cons header rest ih =>
        by_cases hnamed : (header.1 == proxyAuthenticate) = true
        · cases hstr : http.toStr header.2 with
          | none => simp [hstr, hnamed, ih]
          | some text => simp [hstr, hnamed, ih]
        · cases hstr : http.toStr header.2 with
          | none => simp [hstr, hnamed, ih]
          | some text => simp [hstr, hnamed, ih]
  rw [hpairs, http.iter_filter, fieldValues, List.filter_map, List.filter_map, List.map_map,
    List.filterMap_map]
  have hname : ∀ field : Field, (field.received.1 == proxyAuthenticate) =
      (field.read.1 == proxyAuthenticate) := fun _ => rfl
  have hread : ∀ field ∈ fields.filter fun field => field.read.1 == proxyAuthenticate,
      http.toStr field.received.2 = some field.read.2 := by
    intro field hmem
    obtain ⟨hfield, hnamed⟩ := List.mem_filter.mp hmem
    have hbytes := hvisible field hfield (beq_iff_eq.mp hnamed)
    have htrimmed : (trimOws field.value).all isVisibleAscii = true := by
      rw [List.all_eq_true]
      intro b hb
      exact hbytes b (List.dropWhile_subset _ ((List.rdropWhile_prefix ..).subset hb))
    have hascii : fromUtf8Lossy field.value = field.value.map asciiChar :=
      fromUtf8Lossy_of_ascii fun b hb => isAscii_of_isVisibleAscii (hbytes b hb)
    simp only [Field.received, Field.read, http.toStr_eq, if_pos htrimmed, hascii,
      trim_asciiChar hbytes]
  simp only [Function.comp_def, hname]
  rw [← List.filterMap_eq_map]
  exact List.filterMap_congr hread

/-- Challenges in visible ASCII are read alike, so only the draining is left to ask for. -/
theorem answersAlike_of_visible (base64 : Base64) (http : HttpCrate) (method : Text)
    (learned : Bool) {responses : List Response} (hvisible : ∀ response ∈ responses,
      ∀ field ∈ response.head.fields, toAsciiLowercase field.name = proxyAuthenticate →
        ∀ b ∈ field.value, isVisibleAscii b = true)
    (hdrained : ∀ response ∈ responses, response.head.status = 407 →
      DrainedAlike http method response) :
    AnswersAlike base64 http method learned responses := by
  induction responses generalizing learned with
  | nil => trivial
  | cons response rest ih =>
      intro hstatus
      have hchallenges : challenges (forwardHeaders http response) =
          challenges (connectHeaders response) := by
        rw [connectHeaders_eq]
        exact challenges_headerPairs http (hvisible response List.mem_cons_self)
      have hoffer := negotiateOffer_of_challenges_eq base64 hchallenges
      refine ⟨⟨fun _ => ?_, fun _ => by rw [hoffer]⟩, fun _ => ⟨?_, ?_⟩⟩
      · simp only [taughtKeyword, firstLegScheme, hoffer, hchallenges]
      · exact hdrained response List.mem_cons_self hstatus
      · exact ih true (fun other hmem => hvisible other (List.mem_cons_of_mem _ hmem))
          fun other hmem => hdrained other (List.mem_cons_of_mem _ hmem)

/-- A body of a declared length is drained alike, if the client keeps the connection. -/
theorem drainedAlike_of_sized {http : HttpCrate} {method : Text} {response : Response}
    {data : Bytes} (hbody : response.body = .sized data)
    (hsmall : response.body.size ≤ maxDrainBytes) (htaken : http.takesBody response.body = true)
    (hdelimited : closeDelimited http response.head = false)
    (hkept : closesAfter http response.head = false) : DrainedAlike http method response := by
  have hlength := Response.contentLength_of_sized hbody hsmall
  refine ⟨hsmall, ?_, ?_, fun _ => htaken, fun _ => hdelimited, hkept⟩
  · rw [Response.Drainable, hlength, hbody]
    rfl
  · rw [hbody] at hsmall
    rw [Response.DrainLimit, hlength]
    exact hsmall

/-! ## A realm beyond ASCII -/

/-- `Basic realm="é"`, the realm in UTF-8. -/
def accentedField : Field :=
  { offerField with
    value := ascii " Basic realm=\"".toList ++ [UInt8.ofNat 0xC3, UInt8.ofNat 0xA9] ++
      ascii "\"".toList
    value_field := by decide }

def emptyField : Field :=
  ⟨"content-length".toList, ascii " 0".toList, by decide, by decide, by decide⟩

/-- A 407 with an empty body of length 0. -/
def emptyChallenge (fields : List Field)
    (hframed : Framed { sizedChallenge.head with fields := fields ++ [emptyField] } (.sized [])) :
    Response where
  head := { sizedChallenge.head with fields := fields ++ [emptyField] }
  body := .sized []
  framed := hframed

def bareGrant : Response where
  head := grantedHead
  body := .empty
  framed := .inr ⟨by decide, by decide⟩

def accentedChallenge : Response :=
  emptyChallenge [accentedField] ⟨by decide, _, rfl, by decide, by decide⟩

def accentedOffer : Response :=
  emptyChallenge [accentedField, offerField] ⟨by decide, _, rfl, by decide, by decide⟩

def continuedChallenge : Response :=
  emptyChallenge [tokenField] ⟨by decide, _, rfl, by decide, by decide⟩

def sampleParts : Parts :=
  ⟨"GET".toList, "http://example.com/".toList, [(proxyAuthorization, ascii "mine".toList)]⟩

/-- A socket whose peer sends these responses. -/
def responsesSocket (responses : List Response) : Socket :=
  ⟨responses.flatMap Response.encode, [], .silent, [], []⟩

end Zicade.Upstream
