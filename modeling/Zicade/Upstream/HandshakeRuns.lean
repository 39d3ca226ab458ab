import Zicade.Foundation.Runs
import Zicade.Upstream.Continuation

/-! # Runs of the Negotiate handshake

The machine may be fed any responses in any order, and is fed on after its errors. Its
flags and its count of tokens follow from the answers it has given, and its authenticator
takes a step only where the machine lets it.
-/

namespace Zicade.Upstream

open Zicade.Foundation Zicade.Auth

variable {σ : Type*} (authenticator : Authenticator σ)

abbrev HandshakeReply := Except AuthError HandshakeStep

/-- `on_response` on a machine whose authenticator keeps its steps. -/
def respond (handshake : NegotiateHandshake (Recorded σ)) (response : UpstreamResponse) :
    HandshakeReply × NegotiateHandshake (Recorded σ) :=
  handshake.onResponse (recording authenticator) response

/-- A fresh machine over a fresh authenticator. -/
def freshHandshake (context : σ) (maxLegs : Nat) : NegotiateHandshake (Recorded σ) :=
  (NegotiateHandshake.new ⟨context, []⟩).withMaxLegs maxLegs

def isToken : HandshakeReply → Bool
  | .ok (.sendToken _) => true
  | .ok .complete => false
  | .error _ => false

/-! ## One call -/

/-- What a call does to the machine: it is over, or it ends here, or the 407 is refused, or
the authenticator takes a step and fails or gives a token. -/
inductive Responds (handshake : NegotiateHandshake (Recorded σ)) :
    UpstreamResponse → HandshakeReply → NegotiateHandshake (Recorded σ) → Prop
  | finished (response : UpstreamResponse) (hdone : handshake.done = true) :
      Responds handshake response (.ok .complete) handshake
  | ends {response : UpstreamResponse} (hdone : handshake.done = false)
      (hother : ∀ challenge, response ≠ .proxyAuthRequired challenge) :
      Responds handshake response (.ok .complete) { handshake with done := true }
  | refused {challenge : Option Bytes} {err : AuthError} (hdone : handshake.done = false)
      (hrejected : handshake.started = true → challenge = none → err = .rejected) :
      Responds handshake (.proxyAuthRequired challenge) (.error err) handshake
  | failed {challenge : Option Bytes} {err : AuthError} {context : σ}
      (hdone : handshake.done = false)
      (hcontinues : handshake.started = true → challenge ≠ none) :
      Responds handshake (.proxyAuthRequired challenge) (.error err)
        { handshake with
          auth := ⟨context, handshake.auth.steps ++ [(challenge, .error err)]⟩ }
  | sends {challenge : Option Bytes} {token : Bytes} {context : σ}
      (hdone : handshake.done = false)
      (hcontinues : handshake.started = true → challenge ≠ none)
      (hlegs : handshake.legs < handshake.maxLegs) :
      Responds handshake (.proxyAuthRequired challenge) (.ok (.sendToken token))
        { handshake with
          auth := ⟨context, handshake.auth.steps ++ [(challenge, .ok token)]⟩
          legs := handshake.legs + 1
          started := true }

theorem respond_responds (handshake : NegotiateHandshake (Recorded σ))
    (response : UpstreamResponse) :
    Responds handshake response (respond authenticator handshake response).1
      (respond authenticator handshake response).2 := by
  unfold respond NegotiateHandshake.onResponse
  by_cases hdone : handshake.done = true
  · rw [if_pos hdone]
    exact .finished response hdone
  have hopen : handshake.done = false := by simpa using hdone
  rw [if_neg hdone]
  cases response with
  | success => exact .ends hopen (by simp)
  | other status => exact .ends hopen (by simp)
  | proxyAuthRequired challenge =>
      dsimp only
      unfold NegotiateHandshake.advance
      by_cases hrejected : handshake.started = true ∧ challenge = none
      · rw [if_pos hrejected]
        exact .refused hopen fun _ _ => rfl
      have hcontinues : handshake.started = true → challenge ≠ none := fun hstarted hnone =>
        hrejected ⟨hstarted, hnone⟩
      rw [if_neg hrejected]
      by_cases hcap : handshake.maxLegs ≤ handshake.legs
      · rw [if_pos hcap]
        exact .refused hopen fun hstarted hnone => absurd hnone (hcontinues hstarted)
      rw [if_neg hcap]
      cases hstep : authenticator.step handshake.auth.context challenge with
      | mk answer context =>
          cases answer with
          | error err =>
              simp only [recording, hstep]
              exact .failed hopen hcontinues
          | ok token =>
              simp only [recording, hstep]
              exact .sends hopen hcontinues (Nat.lt_of_not_le hcap)

/-! ## Every run -/

/-- A step without a challenge stands before the first that gave a token. -/
def OpensBefore (before : List AuthStep) (step : AuthStep) : Prop :=
  step.1 = none → ∀ earlier ∈ before, ∀ token, earlier.2 ≠ .ok token

/-- How the machine stands after it gave these answers. -/
structure Stands (maxLegs : Nat) (answers : List HandshakeReply)
    (handshake : NegotiateHandshake (Recorded σ)) : Prop where
  cap : handshake.maxLegs = maxLegs
  tokens : answers.countP isToken = handshake.legs
  capped : handshake.legs ≤ maxLegs
  started : handshake.started = true ↔ 0 < handshake.legs
  done : handshake.done = true ↔ .ok .complete ∈ answers
  opening : EachAfter OpensBefore handshake.auth.steps
  silent : handshake.started = false → ∀ step ∈ handshake.auth.steps, ∀ token, step.2 ≠ .ok token

theorem stands_fresh (context : σ) (maxLegs : Nat) :
    Stands maxLegs [] (freshHandshake context maxLegs) where
  cap := rfl
  tokens := rfl
  capped := Nat.zero_le maxLegs
  started := by simp [freshHandshake, NegotiateHandshake.new, NegotiateHandshake.withMaxLegs]
  done := by simp [freshHandshake, NegotiateHandshake.new, NegotiateHandshake.withMaxLegs]
  opening := eachAfter_nil
  silent _ step hstep := absurd hstep List.not_mem_nil

/-- Every call keeps the account. -/
theorem Stands.responds {maxLegs : Nat} {answers : List HandshakeReply}
    {handshake next : NegotiateHandshake (Recorded σ)} {response : UpstreamResponse}
    {reply : HandshakeReply} (hstands : Stands maxLegs answers handshake)
    (hresponds : Responds handshake response reply next) :
    Stands maxLegs (answers ++ [reply]) next := by
  -- a step that is taken may lack a challenge only while there was no token
  have hopens : ∀ challenge answer, (handshake.started = true → challenge ≠ none) →
      OpensBefore handshake.auth.steps (challenge, answer) := by
    intro challenge answer hcontinues hnone
    apply hstands.silent
    cases hstarted : handshake.started with
    | false => rfl
    | true => exact absurd hnone (hcontinues hstarted)
  cases hresponds with
  | finished response hdone =>
      refine ⟨hstands.cap, ?_, hstands.capped, hstands.started, ?_, hstands.opening,
        hstands.silent⟩
      · rw [List.countP_append, hstands.tokens]
        rfl
      · simp [hdone]
  | ends hdone hother =>
      refine ⟨hstands.cap, ?_, hstands.capped, hstands.started, ?_, hstands.opening,
        hstands.silent⟩
      · rw [List.countP_append, hstands.tokens]
        rfl
      · simp
  | refused hdone hrejected =>
      refine ⟨hstands.cap, ?_, hstands.capped, hstands.started, ?_, hstands.opening,
        hstands.silent⟩
      · rw [List.countP_append, hstands.tokens]
        rfl
      · rw [hstands.done]
        simp
  | failed hdone hcontinues =>
      refine ⟨hstands.cap, ?_, hstands.capped, hstands.started, ?_,
        hstands.opening.concat (hopens _ _ hcontinues), ?_⟩
      · rw [List.countP_append, hstands.tokens]
        rfl
      · rw [hstands.done]
        simp
      · intro hfresh step hmem token
        rcases List.mem_append.mp hmem with hold | hnew
        · exact hstands.silent hfresh step hold token
        · rw [List.mem_singleton.mp hnew]
          simp
  | sends hdone hcontinues hlegs =>
      refine ⟨hstands.cap, ?_, ?_, ?_, ?_, hstands.opening.concat (hopens _ _ hcontinues), ?_⟩
      · rw [List.countP_append, hstands.tokens]
        rfl
      · exact hstands.cap ▸ hlegs
      · simp
      · rw [hstands.done]
        simp
      · simp

theorem stands_after (context : σ) (maxLegs : Nat) (past : List UpstreamResponse) :
    Stands maxLegs (replies (respond authenticator) (freshHandshake context maxLegs) past)
      (stateAfter (respond authenticator) (freshHandshake context maxLegs) past) :=
  replies_invariant (Stands maxLegs) (stands_fresh context maxLegs)
    (fun _ handshake response hstands =>
      hstands.responds (respond_responds authenticator handshake response)) past

/-- A machine that gave these answers, at its next call. -/
structure SafeCall (maxLegs : Nat) (answers : List HandshakeReply)
    (handshake : NegotiateHandshake (Recorded σ)) (response : UpstreamResponse)
    (reply : HandshakeReply) (next : NegotiateHandshake (Recorded σ)) : Prop where
  tokens : answers.countP isToken = handshake.legs ∧ handshake.legs ≤ maxLegs
  opening : EachAfter OpensBefore next.auth.steps
  rejected : answers.any isToken = true → .ok .complete ∉ answers →
    response = .proxyAuthRequired none → reply = .error .rejected
  unchanged : ∀ err, reply = .error err → next.legs = handshake.legs ∧
    next.started = handshake.started ∧ next.done = handshake.done
  complete : .ok .complete ∈ answers →
    reply = .ok .complete ∧ next.auth.steps = handshake.auth.steps

/-- Whatever the authenticator and the responses so far, the next call is safe. -/
theorem respond_safe (context : σ) (maxLegs : Nat) (past : List UpstreamResponse)
    (response : UpstreamResponse) :
    let answers := replies (respond authenticator) (freshHandshake context maxLegs) past
    let handshake := stateAfter (respond authenticator) (freshHandshake context maxLegs) past
    SafeCall maxLegs answers handshake response (respond authenticator handshake response).1
      (respond authenticator handshake response).2 := by
  intro answers handshake
  have hstands : Stands maxLegs answers handshake := stands_after authenticator context maxLegs past
  have hresponds := respond_responds authenticator handshake response
  generalize (respond authenticator handshake response).1 = reply at hresponds ⊢
  generalize (respond authenticator handshake response).2 = next at hresponds ⊢
  refine ⟨⟨hstands.tokens, hstands.capped⟩, (hstands.responds hresponds).opening, ?_, ?_, ?_⟩
  · intro htoken hopen hrefusal
    have hstarted : handshake.started = true := by
      rw [hstands.started, ← hstands.tokens, List.countP_pos_iff]
      exact List.any_eq_true.mp htoken
    subst hrefusal
    cases hresponds with
    | finished _ hdone => exact absurd (hstands.done.mp hdone) hopen
    | ends _ hother => exact absurd rfl (hother none)
    | refused _ hrejected => rw [hrejected hstarted rfl]
    | failed _ hcontinues => exact absurd rfl (hcontinues hstarted)
    | sends _ hcontinues _ => exact absurd rfl (hcontinues hstarted)
  · intro err herror
    cases hresponds with
    | finished => cases herror
    | ends => cases herror
    | refused => exact ⟨rfl, rfl, rfl⟩
    | failed => exact ⟨rfl, rfl, rfl⟩
    | sends => cases herror
  · intro hcomplete
    have hdone := hstands.done.mpr hcomplete
    cases hresponds with
    | finished => exact ⟨rfl, rfl⟩
    | ends hopen => simp [hopen] at hdone
    | refused hopen => simp [hopen] at hdone
    | failed hopen => simp [hopen] at hdone
    | sends hopen => simp [hopen] at hdone

/-- After a token and a success, a 407 without a challenge is answered by completion. -/
theorem refusal_after_complete :
    replies (respond countingAuthenticator) (freshHandshake 7 10)
        [.proxyAuthRequired none, .success, .proxyAuthRequired none] =
      [.ok (.sendToken [7]), .ok .complete, .ok .complete] := by
  decide +kernel

end Zicade.Upstream
