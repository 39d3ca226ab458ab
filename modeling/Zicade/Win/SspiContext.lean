import Zicade.Foundation.Runs
import Zicade.Foundation.Text

/-! # Security contexts of the SSPI client

A client holds the context of its handshake in one cell and deletes what the cell holds when
it is dropped. Each step overwrites the cell with the output of its call before it looks at
the status of the call, and a call that fails leaves that output zeroed.
-/

namespace Zicade.Win

open Zicade.Foundation

structure SecHandle where
  dwLower : UInt64
  dwUpper : UInt64
  deriving DecidableEq, Repr

/-- `SecHandle::default()`. -/
def SecHandle.zeroed : SecHandle := ⟨0, 0⟩

inductive WinError
  | sspi (code : Int)
  deriving DecidableEq, Repr

/-- How one call of `InitializeSecurityContextW` goes; `opened` is the context that a call
without a live one creates. -/
inductive IscCall
  | succeeds (opened : SecHandle) (token : Bytes)
  | fails (code : Int)
  deriving DecidableEq, Repr

namespace IscCall

def ok : IscCall → Bool
  | succeeds _ _ => true
  | fails _ => false

def result : IscCall → Except WinError Bytes
  | succeeds _ token => .ok token
  | fails code => .error (.sspi code)

end IscCall

/-- What SSPI has created, and what it was asked to release. -/
structure Sspi where
  contexts : List SecHandle
  deleted : List SecHandle
  freed : List SecHandle
  deriving DecidableEq, Repr

/-- The output handle of a call. A successful call goes on with a live context or creates one,
which is neither zeroed nor another live one; a failing call leaves the output as it was. -/
def Sspi.initializeSecurityContext (sspi : Sspi) (ctxIn : Option SecHandle) (newCtx : SecHandle) :
    IscCall → Option (SecHandle × Sspi)
  | .fails _ => some (newCtx, sspi)
  | .succeeds opened _ =>
      match ctxIn.filter fun ctx => sspi.contexts.contains ctx with
      | some ctx => some (ctx, sspi)
      | none =>
          if opened = .zeroed ∨ opened ∈ sspi.contexts then none
          else some (opened, { sspi with contexts := sspi.contexts ++ [opened] })

structure ClientContext where
  cred : SecHandle
  ctx : Option SecHandle
  deriving DecidableEq, Repr

namespace ClientContext

def new (cred : SecHandle) : ClientContext := { cred, ctx := none }

/-- The cell takes the output of the call whatever its status; `none` where SSPI does not
make such a call. -/
def step (client : ClientContext) (sspi : Sspi) (call : IscCall) :
    Option (Except WinError Bytes × ClientContext × Sspi) :=
  (sspi.initializeSecurityContext client.ctx .zeroed call).map fun (newCtx, sspi) =>
    (call.result, { client with ctx := some newCtx }, sspi)

/-- `Drop`: delete what the cell holds, then free the credential. -/
def drop (client : ClientContext) (sspi : Sspi) : Sspi :=
  { sspi with
    deleted := sspi.deleted ++ client.ctx.toList
    freed := sspi.freed ++ [client.cred] }

end ClientContext

/-! ## Runs -/

structure Session where
  client : ClientContext
  sspi : Sspi
  deriving DecidableEq, Repr

namespace Session

def opened (cred : SecHandle) : Session := ⟨.new cred, ⟨[], [], []⟩⟩

def step (session : Session) (call : IscCall) : Option Session :=
  (session.client.step session.sspi call).map fun (_, client, sspi) => ⟨client, sspi⟩

def dropped (session : Session) : Sspi := session.client.drop session.sspi

end Session

/-- Every context is deleted once, nothing else is, and the credential is freed once. -/
structure ReleasedOnce (cred : SecHandle) (sspi : Sspi) : Prop where
  contexts : ∀ ctx ∈ sspi.contexts, sspi.deleted.count ctx = 1
  nothingElse : ∀ ctx ∈ sspi.deleted, ctx ∈ sspi.contexts
  credential : sspi.freed = [cred]

/-! ## What a step does -/

namespace Session

/-- A failing call zeroes the cell; a successful one goes on with the live context that the
cell holds, or opens one. -/
theorem step_cases {session next : Session} {call : IscCall}
    (hstep : session.step call = some next) :
    (call.ok = false ∧ next = ⟨{ session.client with ctx := some .zeroed }, session.sspi⟩) ∨
      (call.ok = true ∧ next = session ∧ ∃ ctx ∈ session.sspi.contexts,
        session.client.ctx = some ctx) ∨
      (call.ok = true ∧ (∀ ctx ∈ session.sspi.contexts, session.client.ctx ≠ some ctx) ∧
        ∃ opened, opened ≠ .zeroed ∧ opened ∉ session.sspi.contexts ∧
          next = ⟨{ session.client with ctx := some opened },
            { session.sspi with contexts := session.sspi.contexts ++ [opened] }⟩) := by
  obtain ⟨⟨_, client, sspi⟩, hclient, rfl⟩ := Option.map_eq_some_iff.mp hstep
  obtain ⟨⟨newCtx, after⟩, hcall, hmade⟩ := Option.map_eq_some_iff.mp hclient
  obtain ⟨-, hmade⟩ := Prod.mk.inj hmade
  obtain ⟨rfl, rfl⟩ := Prod.mk.inj hmade
  cases call with
  | fails code =>
      obtain ⟨rfl, rfl⟩ := Prod.mk.inj (Option.some.inj hcall)
      exact .inl ⟨rfl, rfl⟩
  | succeeds opened token =>
      right
      cases hlive : session.client.ctx.filter fun ctx => session.sspi.contexts.contains ctx with
      | some ctx =>
          obtain ⟨hctx, hmem⟩ := Option.filter_eq_some_iff.mp hlive
          rw [Sspi.initializeSecurityContext, hlive] at hcall
          obtain ⟨rfl, rfl⟩ := Prod.mk.inj (Option.some.inj hcall)
          refine .inl ⟨rfl, ?_, ctx, by simpa using hmem, hctx⟩
          rw [← hctx]
      | none =>
          rw [Sspi.initializeSecurityContext, hlive] at hcall
          dsimp only at hcall
          split at hcall
          next => cases hcall
          next hfresh =>
            obtain ⟨hzeroed, hnew⟩ := not_or.mp hfresh
            obtain ⟨rfl, rfl⟩ := Prod.mk.inj (Option.some.inj hcall)
            refine .inr ⟨rfl, fun ctx hmem hctx => ?_, opened, hzeroed, hnew, rfl⟩
            rw [hctx] at hlive
            simp [hmem] at hlive

end Session

/-! ## What became of the contexts -/

/-- How the statuses of the calls so far have left the contexts: nothing called, only failures,
one context and in the cell, or a context that the cell no longer holds. -/
inductive Phase
  | idle
  | failing
  | holding
  | lost
  deriving DecidableEq, Repr

namespace Phase

def next : Phase → Bool → Phase
  | lost, _ => lost
  | holding, false => lost
  | _, false => failing
  | _, true => holding

def after (calls : List IscCall) : Phase := calls.foldl (fun phase call => phase.next call.ok) idle

theorem after_concat (calls : List IscCall) (call : IscCall) :
    after (calls ++ [call]) = (after calls).next call.ok := by
  rw [after, List.foldl_append]
  rfl

/-- What a phase says about the cell and the contexts. -/
def Describes (session : Session) : Phase → Prop
  | idle => session.client.ctx = none ∧ session.sspi.contexts = []
  | failing => session.client.ctx = some .zeroed ∧ session.sspi.contexts = []
  | holding => ∃ ctx, session.client.ctx = some ctx ∧ session.sspi.contexts = [ctx]
  | lost => ∃ forgotten ∈ session.sspi.contexts, session.client.ctx ≠ some forgotten

/-- What a phase says about the calls. -/
def Reports (calls : List IscCall) : Phase → Prop
  | idle => calls = []
  | failing => calls ≠ [] ∧ ∀ call ∈ calls, call.ok = false
  | holding => calls.Pairwise (fun earlier later => earlier.ok → later.ok) ∧
      ∃ last ∈ calls.getLast?, last.ok = true
  | lost => ¬ calls.Pairwise fun earlier later => earlier.ok → later.ok

theorem ordered_concat (past : List IscCall) (call : IscCall) :
    (past ++ [call]).Pairwise (fun earlier later => earlier.ok → later.ok) ↔
      past.Pairwise (fun earlier later => earlier.ok → later.ok) ∧
        ∀ earlier ∈ past, earlier.ok → call.ok := by
  simp [List.pairwise_append]

theorem reports_after (calls : List IscCall) : (after calls).Reports calls := by
  induction calls using List.reverseRecOn with
  | nil => rfl
  | append_singleton past call ih =>
      have hlast : call ∈ (past ++ [call]).getLast? := by simp
      rw [after_concat]
      cases hphase : after past with
      | idle =>
          rw [hphase] at ih
          obtain rfl : past = [] := ih
          cases hok : call.ok with
          | false => exact ⟨by simp, by simp [hok]⟩
          | true => exact ⟨List.pairwise_singleton _ _, call, hlast, hok⟩
      | failing =>
          rw [hphase] at ih
          obtain ⟨-, hfailed⟩ := ih
          cases hok : call.ok with
          | false => exact ⟨by simp, List.forall_mem_append.mpr ⟨hfailed, by simp [hok]⟩⟩
          | true =>
              refine ⟨(ordered_concat past call).mpr ⟨?_, fun _ _ _ => hok⟩, call, hlast, hok⟩
              refine List.pairwise_of_forall_mem_list fun earlier hearlier _ _ hsucceeded => ?_
              rw [hfailed earlier hearlier] at hsucceeded
              cases hsucceeded
      | holding =>
          rw [hphase] at ih
          obtain ⟨hordered, last, hmem, hsucceeded⟩ := ih
          cases hok : call.ok with
          | false =>
              intro hnext
              have := ((ordered_concat past call).mp hnext).2 last
                (List.mem_of_getLast? hmem) hsucceeded
              rw [hok] at this
              cases this
          | true =>
              exact ⟨(ordered_concat past call).mpr ⟨hordered, fun _ _ _ => hok⟩, call, hlast, hok⟩
      | lost =>
          rw [hphase] at ih
          exact fun hnext => ih ((ordered_concat past call).mp hnext).1

end Phase

/-- Nothing is released before the drop, and no context is zeroed. -/
structure Unreleased (cred : SecHandle) (session : Session) : Prop where
  credential : session.client.cred = cred
  deleted : session.sspi.deleted = []
  freed : session.sspi.freed = []
  zeroed : SecHandle.zeroed ∉ session.sspi.contexts

namespace Unreleased

variable {cred : SecHandle} {session next : Session} {call : IscCall}

theorem step (hunreleased : Unreleased cred session) (hstep : session.step call = some next) :
    Unreleased cred next := by
  obtain ⟨hcred, hdeleted, hfreed, hzeroed⟩ := hunreleased
  rcases Session.step_cases hstep with ⟨-, rfl⟩ | ⟨-, rfl, -⟩ | ⟨-, -, opened, hne, -, rfl⟩
  · exact ⟨hcred, hdeleted, hfreed, hzeroed⟩
  · exact ⟨hcred, hdeleted, hfreed, hzeroed⟩
  · refine ⟨hcred, hdeleted, hfreed, ?_⟩
    simp [hzeroed, hne.symm]

/-- The phase goes on with the status of the call. -/
theorem describes_step {phase : Phase} (hunreleased : Unreleased cred session)
    (hdescribes : phase.Describes session) (hstep : session.step call = some next) :
    (phase.next call.ok).Describes next := by
  have hzeroed {ctx : SecHandle} (hmem : ctx ∈ session.sspi.contexts) :
      some SecHandle.zeroed ≠ some ctx :=
    fun heq => hunreleased.zeroed (Option.some.inj heq ▸ hmem)
  rcases Session.step_cases hstep with
    ⟨hok, rfl⟩ | ⟨hok, rfl, ctx, hmem, hctx⟩ | ⟨hok, hnone, opened, -, hnew, rfl⟩
  · rw [hok]
    cases phase with
    | idle => exact ⟨rfl, hdescribes.2⟩
    | failing => exact ⟨rfl, hdescribes.2⟩
    | holding =>
        obtain ⟨ctx, -, hcontexts⟩ := hdescribes
        have hmem : ctx ∈ session.sspi.contexts := hcontexts ▸ List.mem_singleton_self ctx
        exact ⟨ctx, hmem, hzeroed hmem⟩
    | lost =>
        obtain ⟨forgotten, hmem, -⟩ := hdescribes
        exact ⟨forgotten, hmem, hzeroed hmem⟩
  · rw [hok]
    cases phase with
    | idle => exact absurd (hdescribes.2 ▸ hmem) List.not_mem_nil
    | failing => exact absurd (hdescribes.2 ▸ hmem) List.not_mem_nil
    | holding => exact hdescribes
    | lost => exact hdescribes
  · rw [hok]
    cases phase with
    | idle => exact ⟨opened, rfl, congrArg (· ++ [opened]) hdescribes.2⟩
    | failing => exact ⟨opened, rfl, congrArg (· ++ [opened]) hdescribes.2⟩
    | holding =>
        obtain ⟨ctx, hctx, hcontexts⟩ := hdescribes
        exact absurd hctx (hnone ctx (hcontexts ▸ List.mem_singleton_self ctx))
    | lost =>
        obtain ⟨forgotten, hmem, -⟩ := hdescribes
        refine ⟨forgotten, List.mem_append_left _ hmem, fun heq => hnew ?_⟩
        exact Option.some.inj heq ▸ hmem

/-- The drop releases everything in the phases that have the one context in the cell. -/
theorem dropped_iff {phase : Phase} (hunreleased : Unreleased cred session)
    (hdescribes : phase.Describes session) :
    ReleasedOnce cred session.dropped ↔ phase = .idle ∨ phase = .holding := by
  have hdeleted : session.dropped.deleted = session.client.ctx.toList :=
    congrArg (· ++ session.client.ctx.toList) hunreleased.deleted
  have hfreed : session.dropped.freed = [cred] := by
    rw [← hunreleased.credential]
    exact congrArg (· ++ [session.client.cred]) hunreleased.freed
  have hcontexts : session.dropped.contexts = session.sspi.contexts := rfl
  constructor
  · intro hreleased
    cases phase with
    | idle => exact .inl rfl
    | failing =>
        have hmem : SecHandle.zeroed ∈ session.dropped.deleted := by
          rw [hdeleted, hdescribes.1]
          exact List.mem_singleton_self _
        exact absurd (hreleased.nothingElse _ hmem) hunreleased.zeroed
    | holding => exact .inr rfl
    | lost =>
        obtain ⟨forgotten, hmem, hctx⟩ := hdescribes
        have honce := hreleased.contexts forgotten hmem
        have hpos : forgotten ∈ session.dropped.deleted := List.count_pos_iff.mp (by omega)
        rw [hdeleted, Option.mem_toList] at hpos
        exact absurd hpos hctx
  · rintro (rfl | rfl)
    · obtain ⟨hctx, hnone⟩ := hdescribes
      refine ⟨?_, ?_, hfreed⟩
      · rw [hcontexts, hnone]
        exact nofun
      · rw [hdeleted, hctx]
        exact nofun
    · obtain ⟨ctx, hctx, hone⟩ := hdescribes
      refine ⟨?_, ?_, hfreed⟩
      · rw [hcontexts, hone, hdeleted, hctx]
        simp
      · rw [hcontexts, hone, hdeleted, hctx]
        simp

end Unreleased

/-- The calls of a handshake lead a session through the phases of their statuses. -/
theorem phase_of_run {cred : SecHandle} {calls : List IscCall} {session : Session}
    (hrun : run Session.step (.opened cred) calls = some session) :
    Unreleased cred session ∧ (Phase.after calls).Describes session := by
  refine run_history_invariant
    (fun past session => Unreleased cred session ∧ (Phase.after past).Describes session) ?_ ?_ hrun
  · exact ⟨⟨rfl, rfl, rfl, List.not_mem_nil⟩, rfl, rfl⟩
  · rintro past session call next ⟨hunreleased, hdescribes⟩ hstep
    rw [Phase.after_concat]
    exact ⟨hunreleased.step hstep, hunreleased.describes_step hdescribes hstep⟩

/-- No call fails after one that succeeded, and the last one, if any, succeeds. -/
structure FailsEarly (calls : List IscCall) : Prop where
  ordered : calls.Pairwise fun earlier later => earlier.ok → later.ok
  last : ∀ last ∈ calls.getLast?, last.ok = true

theorem failsEarly_iff (calls : List IscCall) :
    FailsEarly calls ↔ Phase.after calls = .idle ∨ Phase.after calls = .holding := by
  have hreports := Phase.reports_after calls
  constructor
  · rintro ⟨hordered, hlast⟩
    cases hphase : Phase.after calls with
    | idle => exact .inl rfl
    | failing =>
        rw [hphase] at hreports
        obtain ⟨hne, hfailed⟩ := hreports
        have hsucceeded := hlast _ (List.getLast?_eq_some_getLast hne)
        rw [hfailed _ (List.getLast_mem hne)] at hsucceeded
        cases hsucceeded
    | holding => exact .inr rfl
    | lost =>
        rw [hphase] at hreports
        exact absurd hordered hreports
  · rintro (hphase | hphase)
    · rw [hphase] at hreports
      obtain rfl : calls = [] := hreports
      exact ⟨.nil, nofun⟩
    · rw [hphase] at hreports
      obtain ⟨hordered, last, hmem, hsucceeded⟩ := hreports
      refine ⟨hordered, fun other hother => ?_⟩
      obtain rfl : last = other := Option.some.inj (hmem.symm.trans hother)
      exact hsucceeded

/-- A drop after a run releases what the run created exactly when failures come early in it. -/
theorem dropped_after_run_iff {cred : SecHandle} {calls : List IscCall} {session : Session}
    (hrun : run Session.step (.opened cred) calls = some session) :
    ReleasedOnce cred session.dropped ↔ FailsEarly calls := by
  obtain ⟨hunreleased, hdescribes⟩ := phase_of_run hrun
  rw [hunreleased.dropped_iff hdescribes, failsEarly_iff]

/-- The release is right at the end of a run exactly when failures come early in it, and at
every point of the run exactly when no call fails. -/
theorem contexts_released_iff (cred : SecHandle) (calls : List IscCall) (session : Session)
    (hrun : run Session.step (.opened cred) calls = some session) :
    (ReleasedOnce cred session.dropped ↔ FailsEarly calls) ∧
      ((∀ past middle, past <+: calls → run Session.step (.opened cred) past = some middle →
          ReleasedOnce cred middle.dropped) ↔
        ∀ call ∈ calls, call.ok = true) := by
  refine ⟨dropped_after_run_iff hrun, ?_, ?_⟩
  · intro hreleased call hcall
    obtain ⟨past, rest, rfl⟩ := List.append_of_mem hcall
    have hsplit : past ++ call :: rest = past ++ [call] ++ rest := by simp
    rw [hsplit, run_append] at hrun
    obtain ⟨middle, hmiddle, -⟩ := Option.bind_eq_some_iff.mp hrun
    have hearly := (dropped_after_run_iff hmiddle).mp
      (hreleased _ middle (hsplit ▸ List.prefix_append _ rest) hmiddle)
    exact hearly.last call (by simp)
  · rintro hsucceed past middle ⟨rest, rfl⟩ hmiddle
    have hpast : ∀ call ∈ past, call.ok = true :=
      fun call hcall => hsucceed call (List.mem_append_left rest hcall)
    refine (dropped_after_run_iff hmiddle).mpr ⟨?_, ?_⟩
    · exact List.pairwise_of_forall_mem_list fun _ _ later hlater _ => hpast later hlater
    · exact fun last hlast => hpast last (List.mem_of_getLast? hlast)

/-! ## A middle leg that fails -/

def userCred : SecHandle := ⟨7, 1⟩

def userContext : SecHandle := ⟨9, 2⟩

/-- Two legs of a handshake; the second goes on with the context of the first. -/
def twoLegs : List IscCall := [.succeeds userContext [1], .succeeds ⟨9, 3⟩ [2]]

theorem contexts_released_iff_sample :
    run Session.step (.opened userCred) twoLegs =
        some ⟨⟨userCred, some userContext⟩, ⟨[userContext], [], []⟩⟩ ∧
      ReleasedOnce userCred ⟨[userContext], [userContext], [userCred]⟩ := by
  refine ⟨by decide, ?_⟩
  exact (contexts_released_iff userCred twoLegs
    ⟨⟨userCred, some userContext⟩, ⟨[userContext], [], []⟩⟩ (by decide)).1.mpr
      ⟨by decide, by decide⟩

/-- The second leg is refused with `SEC_E_INVALID_TOKEN`: the drop deletes a zeroed handle, and
the context of the first leg is never deleted. -/
theorem refusedLeg_leaks :
    (run Session.step (.opened userCred)
        [.succeeds userContext [1], .fails (-2146893048)]).map Session.dropped =
          some ⟨[userContext], [.zeroed], [userCred]⟩ ∧
      ¬ ReleasedOnce userCred ⟨[userContext], [.zeroed], [userCred]⟩ := by
  refine ⟨by decide, fun hreleased => ?_⟩
  have honce := hreleased.contexts userContext (List.mem_singleton_self _)
  revert honce
  decide

end Zicade.Win
