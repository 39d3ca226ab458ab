import Zicade.Auth.Base64
import Zicade.Upstream.AuthState

/-! # Continuation tokens of a Negotiate handshake

One driver answers the 407s of a connection until it refuses one. The keyword
is learned from the first of them. The token fed to the authenticator is that
of the first offer of either keyword, so a challenge under the learned keyword
is heard when no other offer stands before it.
-/

namespace Zicade.Upstream

open Zicade.Foundation Zicade.Auth

/-! ## Recorded runs -/

/-- A step of an authenticator: what it was fed and what it answered. -/
abbrev AuthStep := Option Bytes × Except AuthError Bytes

/-- A context and the steps it has taken. -/
structure Recorded (σ : Type*) where
  context : σ
  steps : List AuthStep

/-- The same authenticator, with its steps recorded. -/
def recording {σ : Type*} (authenticator : Authenticator σ) : Authenticator (Recorded σ) :=
  ⟨fun recorded challenge =>
    let (answer, context) := authenticator.step recorded.context challenge
    (answer, ⟨context, recorded.steps ++ [(challenge, answer)]⟩)⟩

/-- A 407, what the driver returned for it, and the steps it made the
authenticator take. -/
structure AnsweredChallenge where
  headers : Headers
  result : Except IoError Text
  steps : List AuthStep
  deriving DecidableEq

section

variable {σ : Type*}

def AuthState.steps : AuthState (Recorded σ) → List AuthStep
  | .none => []
  | .basic _ _ => []
  | .negotiate state => state.handshake.auth.steps

variable (base64 : Base64) (authenticator : Authenticator σ)

/-- Answer one 407 after another; both loops stop at the first error. -/
def answerChallenges (state : AuthState (Recorded σ)) : List Headers → List AnsweredChallenge
  | [] => []
  | headers :: rest =>
      let (result, next) := state.onChallenge base64 (recording authenticator) headers
      let answered : AnsweredChallenge :=
        ⟨headers, result, next.steps.drop state.steps.length⟩
      match result with
      | .error _ => [answered]
      | .ok _ => answered :: answerChallenges next rest

/-- The 407s of one connection, answered from a fresh authenticator. -/
def negotiation (factory : σ) (challenges : List Headers) : List AnsweredChallenge :=
  answerChallenges base64 authenticator (.new (.negotiate ⟨factory, []⟩)) challenges

/-- What the challenges of a 407 offer, in order. -/
def offers (headers : Headers) : List NegotiateOffer :=
  (challenges headers).map (parseProxyAuthenticate base64)

/-- The keyword a first 407 fixes: that of its first offer, or Negotiate. -/
def fixedKeyword : List Headers → AuthScheme
  | [] => .negotiate
  | first :: _ => (negotiateOffer base64 first).scheme.getD .negotiate

/-- The driver's result for a leg on which the authenticator answered. -/
def reported (keyword : AuthScheme) : Except AuthError Bytes → Except IoError Text
  | .ok token => .ok (buildProxyAuthorization base64 keyword token)
  | .error err => .error (authIoErr err)

/-- Every value carries the fixed keyword. On every admitted later leg a token
under that keyword is what the authenticator is fed, and its answer is what the
driver reports. -/
structure LearnedTokenDrives (admitted : Nat → Headers → Bytes → Prop) (factory : σ)
    (challenges : List Headers) : Prop where
  keyword : ∀ answered ∈ negotiation base64 authenticator factory challenges, ∀ value,
    answered.result = .ok value →
      ∃ token, value = buildProxyAuthorization base64 (fixedKeyword base64 challenges) token
  token : ∀ leg answered,
    (negotiation base64 authenticator factory challenges)[leg + 1]? = some answered →
      ∀ token, .challenge (fixedKeyword base64 challenges) token ∈
        offers base64 answered.headers → admitted (leg + 1) answered.headers token →
          ∃ answer, answered.steps = [(some token, answer)] ∧
            answered.result = reported base64 (fixedKeyword base64 challenges) answer

/-- The handshake has legs left, and the token is that of the first offer. -/
def HeardFirst (leg : Nat) (headers : Headers) (token : Bytes) : Prop :=
  leg < defaultMaxLegs ∧ (negotiateOffer base64 headers).token = some token

/-! ## One leg -/

/-- A handshake that has sent `count` tokens. -/
structure Sent (count : Nat) (handshake : NegotiateHandshake (Recorded σ)) : Prop where
  done : handshake.done = false
  maxLegs : handshake.maxLegs = defaultMaxLegs
  legs : handshake.legs = count

/-- With legs left, a continuation token is fed and the answer is reported. -/
theorem advanceHandshake_fed {count : Nat} {handshake : NegotiateHandshake (Recorded σ)}
    (hsent : Sent count handshake) (hcount : count < defaultMaxLegs) (token : Bytes) :
    ∃ answer, (advanceHandshake (recording authenticator) handshake (some token)).2.auth.steps =
        handshake.auth.steps ++ [(some token, answer)] ∧
      (advanceHandshake (recording authenticator) handshake (some token)).1 =
        match answer with
        | .ok next => .ok next
        | .error err => .error (authIoErr err) := by
  refine ⟨(authenticator.step handshake.auth.context (some token)).1, ?_⟩
  have hlegs : ¬ handshake.maxLegs ≤ handshake.legs := by
    rw [hsent.maxLegs, hsent.legs]
    exact Nat.not_le.mpr hcount
  simp only [advanceHandshake, NegotiateHandshake.onResponse, NegotiateHandshake.advance,
    hsent.done, hlegs, recording]
  cases (authenticator.step handshake.auth.context (some token)).1 <;> simp

theorem advanceHandshake_sent {count : Nat} {handshake next : NegotiateHandshake (Recorded σ)}
    {challenge : Option Bytes} {token : Bytes} (hsent : Sent count handshake)
    (hok : advanceHandshake (recording authenticator) handshake challenge = (.ok token, next)) :
    Sent (count + 1) next := by
  simp only [advanceHandshake, NegotiateHandshake.onResponse, NegotiateHandshake.advance,
    hsent.done] at hok
  by_cases hrefused : handshake.started = true ∧ challenge = none
  · simp [hrefused] at hok
  by_cases hlegs : handshake.maxLegs ≤ handshake.legs
  · simp [hrefused, hlegs] at hok
  simp only [hrefused, hlegs, recording] at hok
  cases hanswer : (authenticator.step handshake.auth.context challenge).1 with
  | error err => simp [hanswer] at hok
  | ok answer =>
      simp only [hanswer] at hok
      obtain ⟨-, rfl⟩ := Prod.mk.inj hok
      exact ⟨rfl, hsent.maxLegs, congrArg (· + 1) hsent.legs⟩

/-- A learned keyword and a token at the first offer decide a leg. -/
theorem negotiateLeg_fed {count : Nat} {state : NegotiateState (Recorded σ)}
    {keyword : AuthScheme} {headers : Headers} {token : Bytes}
    (hsent : Sent count state.handshake) (hscheme : state.scheme = some keyword)
    (hcount : count < defaultMaxLegs)
    (htoken : (negotiateOffer base64 headers).token = some token) :
    ∃ answer, (negotiateLeg base64 (recording authenticator) state headers).2.handshake.auth.steps =
        state.handshake.auth.steps ++ [(some token, answer)] ∧
      (negotiateLeg base64 (recording authenticator) state headers).1 =
        reported base64 keyword answer := by
  obtain ⟨answer, hsteps, hresult⟩ :=
    advanceHandshake_fed authenticator hsent hcount token
  refine ⟨answer, ?_⟩
  unfold negotiateLeg
  rw [hscheme, htoken]
  simp only [legKeyword]
  cases hadvance : advanceHandshake (recording authenticator) state.handshake (some token) with
  | mk result handshake =>
      rw [hadvance] at hsteps hresult
      cases answer with
      | ok next =>
          obtain rfl : result = .ok next := hresult
          exact ⟨hsteps, rfl⟩
      | error err =>
          obtain rfl : result = .error (authIoErr err) := hresult
          exact ⟨hsteps, rfl⟩

/-! ## A whole connection -/

theorem answerChallenges_cons (state : NegotiateState (Recorded σ)) (headers : Headers)
    (rest : List Headers) :
    answerChallenges base64 authenticator (.negotiate state) (headers :: rest) =
      match negotiateLeg base64 (recording authenticator) state headers with
      | (.error err, next) =>
          [⟨headers, .error err,
            next.handshake.auth.steps.drop state.handshake.auth.steps.length⟩]
      | (.ok value, next) =>
          ⟨headers, .ok value,
            next.handshake.auth.steps.drop state.handshake.auth.steps.length⟩ ::
              answerChallenges base64 authenticator (.negotiate next) rest := by
  rw [answerChallenges]
  simp only [AuthState.onChallenge]
  cases negotiateLeg base64 (recording authenticator) state headers with
  | mk result next => cases result <;> rfl

/-- Once a keyword is learned, every value carries it. -/
theorem answerChallenges_keyword {state : NegotiateState (Recorded σ)} {keyword : AuthScheme}
    (hscheme : state.scheme = some keyword) (challenges : List Headers) :
    ∀ answered ∈ answerChallenges base64 authenticator (.negotiate state) challenges, ∀ value,
      answered.result = .ok value →
        ∃ token, value = buildProxyAuthorization base64 keyword token := by
  induction challenges generalizing state with
  | nil => simp [answerChallenges]
  | cons headers rest ih =>
      rw [answerChallenges_cons]
      split
      next err next hleg => simp
      next value next hleg =>
        obtain ⟨learned, token, hkeyword, hvalue, hnext, -⟩ :=
          negotiateLeg_ok base64 (recording authenticator) hleg
        rw [hscheme] at hkeyword
        obtain rfl : keyword = learned := Except.ok.inj hkeyword
        intro answered hmem other hother
        rcases List.mem_cons.mp hmem with rfl | hmem
        · exact ⟨token, by rw [← Except.ok.inj hother, hvalue]⟩
        · exact ih hnext answered hmem other hother

/-- While legs are left, the token of the first offer is what is fed. -/
theorem answerChallenges_fed {count : Nat} {state : NegotiateState (Recorded σ)}
    {keyword : AuthScheme} (hsent : Sent count state.handshake)
    (hscheme : state.scheme = some keyword) (challenges : List Headers)
    {leg : Nat} {answered : AnsweredChallenge} {token : Bytes}
    (hanswered :
      (answerChallenges base64 authenticator (.negotiate state) challenges)[leg]? = some answered)
    (hleg : count + leg < defaultMaxLegs)
    (htoken : (negotiateOffer base64 answered.headers).token = some token) :
    ∃ answer, answered.steps = [(some token, answer)] ∧
      answered.result = reported base64 keyword answer := by
  induction challenges generalizing state count leg with
  | nil => simp [answerChallenges] at hanswered
  | cons headers rest ih =>
      rw [answerChallenges_cons] at hanswered
      cases leg with
      | zero =>
          -- the steps of this leg are what it adds to those recorded before
          cases hnegotiate : negotiateLeg base64 (recording authenticator) state headers with
          | mk result next =>
              have hfirst : answered = ⟨headers, result,
                  next.handshake.auth.steps.drop state.handshake.auth.steps.length⟩ := by
                rw [hnegotiate] at hanswered
                cases result <;> simpa using hanswered.symm
              subst hfirst
              obtain ⟨answer, hsteps, hresult⟩ := negotiateLeg_fed base64 authenticator hsent
                hscheme (by simpa using hleg) htoken
              rw [hnegotiate] at hsteps hresult
              refine ⟨answer, ?_, hresult⟩
              have hdrop := congrArg (List.drop state.handshake.auth.steps.length) hsteps
              rwa [List.drop_left] at hdrop
      | succ leg =>
          split at hanswered
          next => simp at hanswered
          next value next hnegotiate =>
            obtain ⟨learned, answer, hkeyword, -, hnext, hadvance⟩ :=
              negotiateLeg_ok base64 (recording authenticator) hnegotiate
            rw [hscheme] at hkeyword
            obtain rfl : keyword = learned := Except.ok.inj hkeyword
            rw [List.getElem?_cons_succ] at hanswered
            apply ih (advanceHandshake_sent authenticator hsent hadvance) hnext hanswered
            omega

theorem legKeyword_first {headers : Headers} {keyword : AuthScheme}
    (hkeyword : legKeyword base64 none headers = .ok keyword) :
    keyword = (negotiateOffer base64 headers).scheme.getD .negotiate := by
  simp only [legKeyword, firstLegScheme] at hkeyword
  split at hkeyword
  next advertised hadvertised =>
    rw [hadvertised, ← Except.ok.inj hkeyword]
    rfl
  next hnone =>
    rw [hnone]
    split at hkeyword
    next => exact (Except.ok.inj hkeyword).symm
    next => cases hkeyword

/-- Every value of a connection carries the keyword its first 407 fixes, and a
token that is heard first on a later leg drives it. -/
theorem negotiation_learnedTokenDrives (factory : σ) (challenges : List Headers) :
    LearnedTokenDrives base64 authenticator (HeardFirst base64) factory challenges := by
  cases challenges with
  | nil => exact ⟨by simp [negotiation, answerChallenges], by simp [negotiation, answerChallenges]⟩
  | cons headers rest =>
      have hnew : Sent 0 (NegotiateHandshake.new (⟨factory, []⟩ : Recorded σ)) :=
        ⟨rfl, rfl, rfl⟩
      have hcons := answerChallenges_cons base64 authenticator
        ⟨.new ⟨factory, []⟩, none⟩ headers rest
      cases hnegotiate : negotiateLeg base64 (recording authenticator)
          ⟨.new ⟨factory, []⟩, none⟩ headers with
      | mk result next =>
          rw [hnegotiate] at hcons
          cases result with
          | error err =>
              have hlegs : negotiation base64 authenticator factory (headers :: rest) = _ := hcons
              constructor
              · rw [hlegs]
                simp
              · rw [hlegs]
                simp
          | ok value =>
              have hlegs : negotiation base64 authenticator factory (headers :: rest) = _ := hcons
              obtain ⟨keyword, answer, hkeyword, hvalue, hnext, hadvance⟩ :=
                negotiateLeg_ok base64 (recording authenticator) hnegotiate
              have hfixed : fixedKeyword base64 (headers :: rest) = keyword :=
                (legKeyword_first base64 hkeyword).symm
              constructor
              · rw [hlegs, hfixed]
                intro answered hmem other hother
                rcases List.mem_cons.mp hmem with rfl | hmem
                · exact ⟨answer, by rw [← Except.ok.inj hother, hvalue]⟩
                · exact answerChallenges_keyword base64 authenticator hnext rest
                    answered hmem other hother
              · rw [hlegs, hfixed]
                intro leg answered hanswered token _ hheard
                rw [List.getElem?_cons_succ] at hanswered
                apply answerChallenges_fed base64 authenticator
                  (advanceHandshake_sent authenticator hnew hadvance) hnext rest hanswered _
                  hheard.2
                have := hheard.1
                omega

end

/-! ## Tokens that do not drive the handshake -/

def challengeHeader (value : String) : Text × Text := (proxyAuthenticate, value.toList)

example : (negotiation standardBase64 countingAuthenticator 0
    [[challengeHeader "Basic realm=x, NTLM"], [challengeHeader "NTLM bG9s"]]).map (·.steps) =
      [[(none, .ok [0])], [(some [108, 111, 108], .ok [1])]] := by decide +kernel

/-- The learned scheme's token stands after a bare offer of the other keyword. -/
def maskedToken : List Headers :=
  [[challengeHeader "NTLM"], [challengeHeader "Negotiate", challengeHeader "NTLM bG9s"]]

/-- More legs than the handshake answers. -/
def elevenLegs : List Headers :=
  [challengeHeader "NTLM"] :: List.replicate 10 [challengeHeader "NTLM bG9s"]

/-- Without its condition the token part fails: a token behind another offer is
refused, and so is one past the last leg. -/
theorem learnedToken_refused :
    ¬ LearnedTokenDrives standardBase64 countingAuthenticator (fun _ _ _ => True) 0 maskedToken ∧
    ¬ LearnedTokenDrives standardBase64 countingAuthenticator (fun _ _ _ => True) 0 elevenLegs := by
  constructor
  · intro hdrives
    obtain ⟨answer, hsteps, -⟩ := hdrives.token 0 ⟨maskedToken[1], .error
      (authIoErr .rejected), []⟩ (by decide +kernel) [108, 111, 108] (by decide +kernel) trivial
    cases hsteps
  · intro hdrives
    obtain ⟨answer, hsteps, -⟩ := hdrives.token 9 ⟨elevenLegs[1], .error
      (authIoErr (.tooManyLegs 10)), []⟩ (by decide +kernel) [108, 111, 108] (by decide +kernel)
      trivial
    cases hsteps

end Zicade.Upstream
