import Zicade.Upstream.Forward

/-! # The forward path over any connection

The forward loop is written over what it uses of its HTTP client: a connection that
gets ready, sends a request and reads the head that answers it, and reads the body of
a 407 to its end. A gateway that answers with well-formed responses is one of them.
-/

namespace Zicade.Upstream

open Zicade.Foundation Zicade.Auth

/-- The head of a response, and what the client holds of its body. -/
structure Answer (ρ : Type) where
  status : Nat
  fields : List Field
  body : ρ

/-- `SendRequest` of the HTTP client, and `Limited` on a body of it. -/
structure HttpSender (τ ρ : Type) where
  ready : τ → Except ForwardError Unit × τ
  sendRequest : Request → τ → Except ForwardError (Answer ρ) × τ
  collect : ρ → τ → Except ForwardError Unit × τ

/-- The client never fails with this error. -/
structure HttpSender.Never {τ ρ : Type} (sender : HttpSender τ ρ) (err : ForwardError) : Prop where
  ready : ∀ stream, (sender.ready stream).1 ≠ .error err
  sendRequest : ∀ request stream, (sender.sendRequest request stream).1 ≠ .error err
  collect : ∀ body stream, (sender.collect body stream).1 ≠ .error err

/-- One request of the loop, the header it was built with, and the status and fields
that answered it, if a head did. -/
structure SentLeg where
  auth : Option Text
  request : Request
  answer : Option (Nat × List Field)

structure Forwarded (τ ρ : Type) where
  legs : List SentLeg
  result : Except ForwardError (Answer ρ × Nat)
  stream : τ

def Forwarded.cons {τ ρ : Type} (leg : SentLeg) (run : Forwarded τ ρ) : Forwarded τ ρ :=
  { run with legs := leg :: run.legs }

section

variable (http : HttpCrate) {σ : Type*} (base64 : Base64) (authenticator : Authenticator σ)
  (parts : Parts) (body : Bytes) {τ ρ : Type} (sender : HttpSender τ ρ)

/-- The legs that are left, `leg` of them sent already. -/
def forwardLegsOver : Nat → Nat → AuthState σ → Option Text → τ → Forwarded τ ρ
  | 0, _, _, _, stream => ⟨[], .error .exhausted, stream⟩
  | left + 1, leg, authState, auth, stream =>
      match sender.ready stream with
      | (.error err, stream) => ⟨[], .error err, stream⟩
      | (.ok (), stream) =>
          match upstreamRequest http parts body auth with
          | .error err => ⟨[], .error err, stream⟩
          | .ok request =>
              match sender.sendRequest request stream with
              | (.error err, stream) => ⟨[⟨auth, request, none⟩], .error err, stream⟩
              | (.ok answer, stream) =>
                  let sent : SentLeg := ⟨auth, request, some (answer.status, answer.fields)⟩
                  if answer.status ≠ 407 then ⟨[sent], .ok (answer, leg + 1), stream⟩
                  else match sender.collect answer.body stream with
                    | (.error err, stream) => ⟨[sent], .error err, stream⟩
                    | (.ok (), stream) =>
                        match authState.onChallenge base64 authenticator
                            (headerPairs http answer.fields) with
                        | (.error err, _) => ⟨[sent], .error (.io err), stream⟩
                        | (.ok value, authState) =>
                            (forwardLegsOver left (leg + 1) authState (some value) stream).cons sent

/-- The rest of a round whose request is sent. -/
theorem forwardLegsOver_of_sent {left leg : Nat} {authState : AuthState σ} {auth : Option Text}
    {stream ready : τ} {request : Request} (hready : sender.ready stream = (.ok (), ready))
    (hrequest : upstreamRequest http parts body auth = .ok request) :
    forwardLegsOver http base64 authenticator parts body sender (left + 1) leg authState auth
        stream =
      match sender.sendRequest request ready with
      | (.error err, stream) => ⟨[⟨auth, request, none⟩], .error err, stream⟩
      | (.ok answer, stream) =>
          let sent : SentLeg := ⟨auth, request, some (answer.status, answer.fields)⟩
          if answer.status ≠ 407 then ⟨[sent], .ok (answer, leg + 1), stream⟩
          else match sender.collect answer.body stream with
            | (.error err, stream) => ⟨[sent], .error err, stream⟩
            | (.ok (), stream) =>
                match authState.onChallenge base64 authenticator
                    (headerPairs http answer.fields) with
                | (.error err, _) => ⟨[sent], .error (.io err), stream⟩
                | (.ok value, authState) =>
                    (forwardLegsOver http base64 authenticator parts body sender left (leg + 1)
                      authState (some value) stream).cons sent := by
  simp only [forwardLegsOver, hready, hrequest]

/-- `forward_handshake`. -/
def forwardHandshakeOver (auth : UpstreamAuth σ) (stream : τ) : Forwarded τ ρ :=
  let start := (AuthState.new auth).initialHeader
  forwardLegsOver http base64 authenticator parts body sender maxLegs 0 start.2 start.1 stream

end

/-! ## A gateway that answers with responses -/

/-- The client on a connection on which these responses are still to come, if it is
still open; the requests are of one method. -/
def responseSender (http : HttpCrate) (method : Text) :
    HttpSender (Option (List Response)) Response where
  ready connection :=
    match connection with
    | none => (.error .connectionClosed, none)
    | some responses => (.ok (), some responses)
  sendRequest _ connection :=
    match (connection.getD []).dropWhile Response.interim with
    | [] => (.error .connectionClosed, none)
    | response :: rest =>
        if !http.takesHead response.head then (.error .invalidResponse, none)
        else (.ok ⟨response.head.status, response.head.fields, response⟩, some rest)
  collect response connection :=
    match collectBody http method response (connection.getD []) with
    | .error err => (.error err, none)
    | .ok connection => (.ok (), connection)

theorem collectBody_ne_exhausted (http : HttpCrate) (method : Text) (response : Response)
    (rest : List Response) : collectBody http method response rest ≠ .error .exhausted := by
  unfold collectBody
  dsimp only
  split_ifs <;> simp

/-- A client of such a gateway never says that the legs ran out. -/
theorem responseSender_never (http : HttpCrate) (method : Text) :
    (responseSender http method).Never .exhausted where
  ready connection := by cases connection <;> simp [responseSender]
  sendRequest request connection := by
    simp only [responseSender]
    split
    next => simp
    next => split_ifs <;> simp
  collect response connection := by
    have hcollect := collectBody_ne_exhausted http method response (connection.getD [])
    simp only [responseSender]
    split
    next err heq =>
      rw [heq] at hcollect
      simpa using hcollect
    next => simp

/-- The legs and the final response. -/
def Forwarded.run {τ : Type} (forwarded : Forwarded τ Response) : ForwardRun where
  legs := forwarded.legs.map fun leg => ⟨leg.request, leg.answer.map Prod.fst⟩
  result := forwarded.result.map fun final => (final.1.body, final.2)

theorem Forwarded.run_cons {τ : Type} (leg : SentLeg) (forwarded : Forwarded τ Response) :
    (forwarded.cons leg).run =
      forwarded.run.cons ⟨leg.request, leg.answer.map Prod.fst⟩ := rfl

section

variable (http : HttpCrate) {σ : Type*} (base64 : Base64) (authenticator : Authenticator σ)
  (parts : Parts) (body : Bytes)

/-- Against such a gateway the loop is the one that reads its responses. -/
theorem forwardLegsOver_responses (left leg : Nat) (authState : AuthState σ)
    (auth : Option Text) (connection : Option (List Response)) :
    (forwardLegsOver http base64 authenticator parts body (responseSender http parts.method) left
        leg authState auth connection).run =
      forwardLegs http base64 authenticator parts body left leg authState auth connection := by
  induction left generalizing leg authState auth connection with
  | zero => cases connection <;> rfl
  | succ left ih =>
      cases connection with
      | none => rfl
      | some responses =>
          simp only [forwardLegsOver, forwardLegs, responseSender]
          cases hrequest : upstreamRequest http parts body auth with
          | error err => rfl
          | ok request =>
              simp only [Option.getD_some]
              cases responses.dropWhile Response.interim with
              | nil => rfl
              | cons response rest =>
                  simp only
                  by_cases htaken : (!http.takesHead response.head) = true
                  · simp only [if_pos htaken]
                    rfl
                  simp only [if_neg htaken]
                  by_cases hfinal : response.head.status ≠ 407
                  · simp only [if_pos hfinal]
                    rfl
                  simp only [if_neg hfinal, Option.getD_some]
                  cases collectBody http parts.method response rest with
                  | error err => rfl
                  | ok connection =>
                      simp only
                      cases authState.onChallenge base64 authenticator
                          (headerPairs http response.head.fields) with
                      | mk answer next =>
                          cases answer with
                          | error err => rfl
                          | ok value =>
                              simp only [Forwarded.run_cons]
                              exact congrArg _ (ih (leg + 1) next (some value) connection)

theorem forwardHandshakeOver_responses (auth : UpstreamAuth σ) (responses : List Response) :
    (forwardHandshakeOver http base64 authenticator parts body (responseSender http parts.method)
        auth (some responses)).run =
      forwardHandshake http base64 authenticator parts body auth responses :=
  forwardLegsOver_responses http base64 authenticator parts body maxLegs 0 _ _ (some responses)

end

end Zicade.Upstream
