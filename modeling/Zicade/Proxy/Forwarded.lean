import Zicade.Proxy.Origin
import Zicade.Proxy.Tracker
import Zicade.Upstream.LegCaps

/-! # A forwarded request and its body

The client's body is counted frame by frame while it is collected, once; the legs then
send the collected bytes again and again, and count nothing.
-/

namespace Zicade.Proxy

open Zicade.Foundation Zicade.Auth Zicade.Upstream

/-! ## Bodies -/

inductive Frame
  | data (bytes : Bytes)
  | trailers (fields : HeaderMap)
  deriving DecidableEq, Repr

def Frame.dataRef : Frame → Option Bytes
  | .data bytes => some bytes
  | .trailers _ => none

/-- What polling a body gives: its frames, and then its end or an error. -/
structure BoxedBody where
  frames : List Frame
  ending : Except ForwardError Unit

/-- The concatenation of the data frames. -/
def BoxedBody.data (body : BoxedBody) : Bytes := body.frames.flatMap fun frame =>
  frame.dataRef.getD []

/-- Which way a counted body flows. -/
inductive Flow
  | up
  | down
  deriving DecidableEq, Repr

/-- `Counting::poll_frame` on a frame that is ready. -/
def countFrame (flow : Flow) (tracked : Tracked) (frame : Frame) : Tracked :=
  match frame.dataRef with
  | some data =>
      match flow with
      | .up => tracked.addUp data.length
      | .down => tracked.addDown data.length
  | none => tracked

/-- `collect` and `to_bytes` on a counted body, `collected` of it already there. -/
def collectFrames (flow : Flow) (ending : Except ForwardError Unit) :
    List Frame → Bytes → Tracked → Except ForwardError Bytes × Tracked
  | [], collected, tracked =>
      match ending with
      | .ok () => (.ok collected, tracked)
      | .error err => (.error err, tracked)
  | frame :: rest, collected, tracked =>
      collectFrames flow ending rest (collected ++ frame.dataRef.getD [])
        (countFrame flow tracked frame)

def BoxedBody.collect (body : BoxedBody) (flow : Flow) (tracked : Tracked) :
    Except ForwardError Bytes × Tracked :=
  collectFrames flow body.ending body.frames [] tracked

/-! ## Forwarding -/

/-- The legs of a forwarded request, its outcome, and the entry it leaves. -/
structure ForwardedRequest (ρ : Type) where
  legs : List SentLeg
  result : Except ForwardError (Answer ρ × Nat)
  tracked : Tracked

/-- A tracked entry that has counted nothing. -/
def Tracked.start (metrics : Metrics) : Tracked := ⟨⟨0, 0, false, .connecting⟩, metrics⟩

section

variable (http : HttpCrate) {σ : Type*} (base64 : Base64) (authenticator : Authenticator σ)
  {τ ρ : Type} (sender : HttpSender τ ρ)

/-- `forward_via_upstream`, `conn` being what `open_upstream_conn` gives. -/
def forwardViaUpstream (conn : Except ForwardError τ) (parts : Parts) (body : BoxedBody)
    (auth : UpstreamAuth σ) (tracked : Tracked) : ForwardedRequest ρ :=
  match body.collect .up tracked with
  | (.error err, tracked) => ⟨[], .error err, tracked⟩
  | (.ok bytes, tracked) =>
      match conn with
      | .error err => ⟨[], .error err, tracked⟩
      | .ok stream =>
          let run := forwardHandshakeOver http base64 authenticator parts bytes sender auth stream
          ⟨run.legs, run.result, tracked⟩

/-- `forward_tracked` in upstream mode: a failure is reported to the entry. -/
def forwardTracked (display : ForwardError → String) (conn : Except ForwardError τ)
    (parts : Parts) (body : BoxedBody) (auth : UpstreamAuth σ) (tracked : Tracked) :
    ForwardedRequest ρ :=
  let sent := forwardViaUpstream http base64 authenticator sender conn parts body auth tracked
  match sent.result with
  | .ok _ => sent
  | .error err => { sent with tracked := sent.tracked.fail (display err) }

end

/-! ## Collecting counts every byte once -/

theorem fail_up (tracked : Tracked) (reason : String) :
    (tracked.fail reason).entry.up = tracked.entry.up := by
  unfold Tracked.fail
  split <;> rfl

theorem countFrame_up (tracked : Tracked) (frame : Frame) :
    (countFrame .up tracked frame).entry.up =
      tracked.entry.up + (frame.dataRef.getD []).length := by
  cases frame <;> rfl

theorem collectFrames_up (ending : Except ForwardError Unit) (frames : List Frame)
    (collected : Bytes) (tracked : Tracked) :
    (collectFrames .up ending frames collected tracked).2.entry.up =
      tracked.entry.up + (frames.flatMap fun frame => frame.dataRef.getD []).length := by
  induction frames generalizing collected tracked with
  | nil => cases ending <;> rfl
  | cons frame rest ih =>
      rw [collectFrames, ih, countFrame_up, List.flatMap_cons, List.length_append, Nat.add_assoc]

theorem collectFrames_ok {flow : Flow} {ending : Except ForwardError Unit} {frames : List Frame}
    {collected bytes : Bytes} {tracked after : Tracked}
    (hok : collectFrames flow ending frames collected tracked = (.ok bytes, after)) :
    bytes = collected ++ frames.flatMap fun frame => frame.dataRef.getD [] := by
  induction frames generalizing collected tracked with
  | nil =>
      cases ending with
      | ok =>
          rw [List.flatMap_nil, List.append_nil]
          exact (Except.ok.inj (Prod.mk.inj hok).1).symm
      | error err => cases (Prod.mk.inj hok).1
  | cons frame rest ih => rw [ih hok, List.flatMap_cons, List.append_assoc]

/-! ## Every leg is the same request -/

section

variable (http : HttpCrate) {σ : Type*} (base64 : Base64) (authenticator : Authenticator σ)

/-- The auth header of each leg, as the driver gives it for the challenges of the legs before. -/
def currentHeaders (authState : AuthState σ) (auth : Option Text) :
    List Headers → List (Option Text)
  | [] => [auth]
  | headers :: rest =>
      match authState.onChallenge base64 authenticator headers with
      | (.error _, _) => [auth]
      | (.ok value, next) => auth :: currentHeaders next (some value) rest

/-- The headers of the head that answered a leg. -/
def challengeOf (leg : SentLeg) : Option Headers :=
  leg.answer.map fun answer => headerPairs http answer.2

/-- The client's header fields as every leg sends them. -/
def sentHeaders (parts : Parts) : HeaderMap :=
  (parts.headers.filter fun header => !strippedHeaders.contains header.1) ++
    [(connection, ascii "keep-alive".toList)]

/-- The leg sends the client's request, and a `Proxy-Authorization` if it has a value for it. -/
structure ResentIntact (parts : Parts) (body : Bytes) (leg : SentLeg) : Prop where
  method : leg.request.parts.method = parts.method
  uri : leg.request.parts.uri = parts.uri
  body : leg.request.body = body
  headers : leg.request.parts.headers = sentHeaders parts ++
    (leg.auth.map fun value => (proxyAuthorization, asBytes value)).toList

/-- The legs all send the request, each but the last met a 407, and each carries the header
that is current when it is sent. -/
structure Resends (parts : Parts) (body : Bytes) (authState : AuthState σ) (auth : Option Text)
    (legs : List SentLeg) : Prop where
  intact : ∀ leg ∈ legs, ResentIntact parts body leg
  challenged : ∀ leg ∈ legs.dropLast, ∃ fields, leg.answer = some (407, fields)
  current : legs ≠ [] → legs.map SentLeg.auth =
    currentHeaders base64 authenticator authState auth (legs.dropLast.filterMap (challengeOf http))

theorem values_sentHeaders (parts : Parts) :
    values (sentHeaders parts) proxyAuthorization = [] := by
  rw [sentHeaders, values_append]
  have hkept := values_filter (fun name => !strippedHeaders.contains name) parts.headers
    proxyAuthorization
  rw [if_neg (by decide)] at hkept
  rw [hkept]
  rfl

variable {http base64 authenticator} {parts : Parts} {body : Bytes}

theorem resentIntact_of_upstreamRequest {leg : SentLeg}
    (hrequest : upstreamRequest http parts body leg.auth = .ok leg.request) :
    ResentIntact parts body leg := by
  obtain ⟨auth, request, answer⟩ := leg
  dsimp only at hrequest
  unfold upstreamRequest at hrequest
  cases auth with
  | none =>
      rw [← Except.ok.inj hrequest]
      exact ⟨rfl, rfl, rfl, (List.append_nil _).symm⟩
  | some value =>
      dsimp only at hrequest
      split at hrequest
      next => cases hrequest
      next bytes hvalue =>
        rw [http.headerValue_eq] at hvalue
        split at hvalue
        next =>
          rw [← Except.ok.inj hrequest, ← Option.some.inj hvalue]
          exact ⟨rfl, rfl, rfl, rfl⟩
        next => cases hvalue

variable {τ ρ : Type} (sender : HttpSender τ ρ)

theorem resends_nil (parts : Parts) (body : Bytes) (authState : AuthState σ)
    (auth : Option Text) : Resends http base64 authenticator parts body authState auth [] :=
  ⟨by simp, by simp, by simp⟩

theorem resends_of_sentIn {turn : Turn σ τ} {legs : List SentLeg} (hone : legs.length ≤ 1)
    (hsent : ∀ leg ∈ legs, SentIn http parts body turn leg) :
    Resends http base64 authenticator parts body turn.authState turn.auth legs := by
  have hintact : ∀ leg ∈ legs, ResentIntact parts body leg := fun leg hmem =>
    resentIntact_of_upstreamRequest ((hsent leg hmem).1 ▸ (hsent leg hmem).2)
  match legs with
  | [] => exact ⟨hintact, by simp, by simp⟩
  | [leg] =>
      refine ⟨hintact, by simp, fun _ => ?_⟩
      rw [List.map_singleton, (hsent leg (List.mem_singleton_self leg)).1]
      rfl
  | _ :: _ :: _ => simp at hone

/-- A leg in front of the legs that follow its 407. -/
theorem Resends.cons {turn next : Turn σ τ} {leg : SentLeg} {legs : List SentLeg}
    (hrest : Resends http base64 authenticator parts body next.authState next.auth legs)
    (hfollows : TurnFollows base64 authenticator http parts body turn leg next) :
    Resends http base64 authenticator parts body turn.authState turn.auth (leg :: legs) := by
  obtain ⟨fields, value, hanswer, hvalue, hchallenge⟩ := hfollows.answered
  obtain ⟨hauth, hrequest⟩ := hfollows.sent
  have hintact : ∀ sent ∈ leg :: legs, ResentIntact parts body sent := by
    intro sent hmem
    rcases List.mem_cons.mp hmem with rfl | hmem
    · exact resentIntact_of_upstreamRequest (hauth ▸ hrequest)
    · exact hrest.intact sent hmem
  cases legs with
  | nil =>
      refine ⟨hintact, by simp, fun _ => ?_⟩
      rw [List.map_singleton, hauth]
      rfl
  | cons second rest =>
      have hdrop : (leg :: second :: rest).dropLast = leg :: (second :: rest).dropLast := rfl
      refine ⟨hintact, ?_, fun _ => ?_⟩
      · intro sent hmem
        rw [hdrop] at hmem
        rcases List.mem_cons.mp hmem with rfl | hmem
        · exact ⟨fields, hanswer⟩
        · exact hrest.challenged sent hmem
      · have hof : challengeOf http leg = some (headerPairs http fields) := by
          rw [challengeOf, hanswer]
          rfl
        rw [hdrop, List.filterMap_cons_some hof, currentHeaders, hchallenge, List.map_cons,
          hrest.current (List.cons_ne_nil _ _), hauth, hvalue]

theorem forwardFrom_resends (left : Nat) (turn : Turn σ τ) :
    Resends http base64 authenticator parts body turn.authState turn.auth
      (forwardFrom base64 authenticator http parts body sender left turn).legs := by
  induction left generalizing turn with
  | zero => exact resends_nil parts body turn.authState turn.auth
  | succ left ih =>
      rcases forwardFrom_cases base64 authenticator http parts body sender turn with
        ⟨run, hone, hsent, -, hends⟩ | ⟨next, leg, hfollows, hgoes⟩
      · rw [hends left]
        exact resends_of_sentIn hone hsent
      · rw [hgoes left]
        exact (ih next).cons hfollows

theorem forwardViaUpstream_resends (conn : Except ForwardError τ) (parts : Parts)
    (body : BoxedBody) (auth : UpstreamAuth σ) (tracked : Tracked) :
    let sent := forwardViaUpstream http base64 authenticator sender conn parts body auth tracked
    let start := (AuthState.new auth).initialHeader
    Resends http base64 authenticator parts body.data start.2 start.1 sent.legs ∧
      sent.tracked.entry.up = tracked.entry.up + body.data.length := by
  intro sent start
  have hcounted : (body.collect .up tracked).2.entry.up = tracked.entry.up + body.data.length :=
    collectFrames_up body.ending body.frames [] tracked
  simp only [sent, forwardViaUpstream]
  cases hcollect : body.collect .up tracked with
  | mk outcome after =>
      rw [hcollect] at hcounted
      cases outcome with
      | error err => exact ⟨resends_nil parts _ _ _, hcounted⟩
      | ok bytes =>
          have hbytes : bytes = body.data := collectFrames_ok hcollect
          cases conn with
          | error err => exact ⟨resends_nil parts _ _ _, hcounted⟩
          | ok stream =>
              exact ⟨hbytes ▸ forwardFrom_resends sender maxLegs (auth.turn stream), hcounted⟩

/-- Whatever the upstream answers, and however many legs that takes, every leg sends the
client's request with the whole of its body, and the body is counted once. -/
theorem forwardTracked_resends (display : ForwardError → String) (conn : Except ForwardError τ)
    (parts : Parts) (body : BoxedBody) (auth : UpstreamAuth σ) (metrics : Metrics) :
    let sent := forwardTracked http base64 authenticator sender display conn parts body auth
      (Tracked.start metrics)
    let start := (AuthState.new auth).initialHeader
    Resends http base64 authenticator parts body.data start.2 start.1 sent.legs ∧
      values (sentHeaders parts) proxyAuthorization = [] ∧
      sent.tracked.entry.up = body.data.length := by
  intro sent start
  have hsent : sent.legs = (forwardViaUpstream http base64 authenticator sender conn parts body auth
      (Tracked.start metrics)).legs ∧ sent.tracked.entry.up =
      (forwardViaUpstream http base64 authenticator sender conn parts body auth
        (Tracked.start metrics)).tracked.entry.up := by
    simp only [sent, forwardTracked]
    split
    next => exact ⟨rfl, rfl⟩
    next => exact ⟨rfl, fail_up _ _⟩
  obtain ⟨hlegs, hup⟩ := forwardViaUpstream_resends sender conn parts body auth
    (Tracked.start metrics)
  refine ⟨?_, values_sentHeaders parts, ?_⟩
  · rw [hsent.1]
    exact hlegs
  · rw [hsent.2, hup]
    exact Nat.zero_add _

end

/-- An upstream that answers once it has sent the challenges that are left. -/
def challengingSender : HttpSender Nat BoxedBody where
  ready left := (.ok (), left)
  sendRequest _ left :=
    match left with
    | 0 => (.ok ⟨204, [], ⟨[], .ok ()⟩⟩, 0)
    | left + 1 => (.ok ⟨407, [tokenField], ⟨[], .ok ()⟩⟩, left)
  collect _ left := (.ok (), left)

def plainParts : Parts := ⟨"GET".toList, "http://o/x".toList, []⟩

/-- A request of two frames through an upstream with this many challenges. -/
def challengedRequest (challenges : Nat) : ForwardedRequest BoxedBody :=
  forwardTracked orderedHttp standardBase64 countingAuthenticator challengingSender
    (fun _ => "failed") (.ok challenges) plainParts
    ⟨[.data [1, 2], .data [3]], .ok ()⟩ (.negotiate 7) (Tracked.start ⟨0, 0, 0⟩)

/-- Three legs send the body, which is counted once. -/
theorem forwardTracked_resends_challenged :
    (challengedRequest 2).legs.length = 3 ∧
      (∀ leg ∈ (challengedRequest 2).legs, ResentIntact plainParts [1, 2, 3] leg) ∧
      (challengedRequest 2).tracked.entry.up = 3 := by
  obtain ⟨hresends, -, hup⟩ := forwardTracked_resends challengingSender (fun _ => "failed")
    (.ok 2) plainParts ⟨[.data [1, 2], .data [3]], .ok ()⟩ (.negotiate 7) ⟨0, 0, 0⟩
  exact ⟨by decide +kernel, hresends.intact, hup⟩

end Zicade.Proxy
