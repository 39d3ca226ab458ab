import Zicade.Upstream.PrewarmLaws

/-! # Backing off from a gateway that closes parked sockets

The signs of a run in order: what was found, when the pool was full, the waits and the
dials. A dial is backed off if nothing alarming was found since the last wait, and the
waits double from one full pool to the next.
-/

namespace Zicade.Upstream

open Zicade.Foundation

def Sign.isWaited : Sign → Bool
  | .waited .. => true
  | _ => false

def Sign.isFull : Sign → Bool
  | .full => true
  | _ => false

/-- A socket was found closed or written to, or a dial has failed. -/
def Sign.alarms : Sign → Bool
  | .closed _ | .dialFailed => true
  | _ => false

/-- Nothing alarming was found since the last backoff wait. -/
def Rested (signs : List Sign) : Prop :=
  ∀ sign ∈ sinceLast Sign.isWaited signs, sign.alarms = false

/-- The backoff waits since the pool was last full. -/
def waitsSinceFull (signs : List Sign) : Nat :=
  (sinceLast Sign.isFull signs).countP Sign.isWaited

/-- The wait after so many others. -/
def delayAfter (waits : Nat) : Nat := min (Backoff.FIRST * 2 ^ waits) Backoff.MAX

/-- A dial comes after a wait if anything alarmed before it, and each wait is as long
as the number of those before it says. -/
def BackedOff (before : List Sign) : Sign → Prop
  | .dial => Rested before
  | .waited delay lasted => delay = delayAfter (waitsSinceFull before) ∧ delay ≤ lasted
  | _ => True

/-! ## One more sign -/

theorem rested_concat_waited (signs : List Sign) (delay lasted : Nat) :
    Rested (signs ++ [.waited delay lasted]) := by
  intro sign hmem
  rw [sinceLast_concat] at hmem
  cases hmem

theorem Rested.concat {signs : List Sign} (hrested : Rested signs) {sign : Sign}
    (hquiet : sign.alarms = false) : Rested (signs ++ [sign]) := by
  intro other hmem
  rw [sinceLast_concat] at hmem
  split at hmem
  next => cases hmem
  next =>
    rcases List.mem_append.mp hmem with hmem | hmem
    · exact hrested other hmem
    · exact List.mem_singleton.mp hmem ▸ hquiet

theorem waitsSinceFull_concat_full (signs : List Sign) :
    waitsSinceFull (signs ++ [.full]) = 0 := by
  rw [waitsSinceFull, sinceLast_concat]
  rfl

theorem waitsSinceFull_concat {sign : Sign} (hfull : sign.isFull = false) (signs : List Sign) :
    waitsSinceFull (signs ++ [sign]) = waitsSinceFull signs + sign.isWaited.toNat := by
  rw [waitsSinceFull, sinceLast_concat, hfull, if_neg Bool.false_ne_true, List.countP_append,
    ← waitsSinceFull, List.countP_singleton]
  cases sign.isWaited <;> rfl

theorem delayAfter_succ (waits : Nat) :
    min (delayAfter waits * 2) Backoff.MAX = delayAfter (waits + 1) := by
  rw [delayAfter, delayAfter, pow_succ, ← mul_assoc]
  omega

/-! ## What the steps keep -/

/-- The delays of the task follow the number of its waits. -/
def Task.Paced (task : Task) (waits : Nat) : Prop :=
  match task.phase with
  | .sleeping _ delay _ => delay = delayAfter waits ∧ task.backoff.next = delayAfter (waits + 1)
  | .stopped => True
  | _ => task.backoff.next = delayAfter waits

/-- Not in the middle of a backoff wait, and not over. -/
def Phase.steady : Phase → Bool
  | .sleeping .. | .stopped => false
  | _ => true

theorem Task.paced_of_steady {task : Task} (hsteady : task.phase.steady = true) (waits : Nat) :
    task.Paced waits ↔ task.backoff.next = delayAfter waits := by
  unfold Task.Paced
  cases hphase : task.phase <;> rw [hphase] at hsteady <;> first | rfl | cases hsteady

/-- The task waits before it dials again. -/
def Phase.backsOff : Phase → Bool
  | .discouraged _ | .sleeping .. | .stopped => true
  | _ => false

theorem Phase.steady_of_rests {phase : Phase} (hrests : phase.rests = true) :
    phase.steady = true ∧ phase.backsOff = false ∧ phase ≠ .refreshing := by
  cases phase with
  | full => exact ⟨rfl, rfl, by simp⟩
  | waiting => exact ⟨rfl, rfl, by simp⟩
  | _ => cases hrests

/-- The refresh that holds the lock has read from a socket that was not silent. -/
def Critical.foundClosed : Critical → Bool
  | .sifting _ _ _ probed _ | .measuring _ _ probed =>
      probed.any fun seen => decide (seen.2 ≠ .silent)
  | _ => false

/-- A refresh that finds as many sockets as it may has found none closed. -/
theorem not_foundClosed_of_measuring {pool : Pool} {before : List Idle}
    {aged : List (Idle × Nat)} {probed : List (Idle × Peer)}
    (hprogress : Critical.Progress pool (.measuring before aged probed)) :
    (Critical.measuring before aged probed).foundClosed = false := by
  obtain ⟨hidle, haged, hprobed, hfull, hbounded⟩ := hprogress
  have hopen := length_retained (fun (_ : Idle) peer => decide (peer = Peer.silent)) probed
  have hyoung := length_retained pool.config.young aged
  rw [← stillOpen, ← hidle] at hopen
  rw [← PoolConfig.kept, ← hprobed, List.length_map] at hyoung
  rw [← haged, List.length_map] at hbounded
  have hnone : (probed.countP fun seen => !decide (seen.2 = Peer.silent)) = 0 := by omega
  rw [List.countP_eq_zero] at hnone
  rw [Critical.foundClosed, List.any_eq_false]
  simpa using hnone

/-- The refresh reads from the sockets. -/
def Critical.sifts : Critical → Bool
  | .sifting .. => true
  | _ => false

namespace UpstreamPool

variable {ν : Type*} {up next : UpstreamPool ν}

/-- What this step finds closed or written to is found by a refresh that reads from
it: no take examines such a socket, and none has reached the timeout. -/
def Noticed (up : UpstreamPool ν) (event : PrewarmEvent) : Prop :=
  event = .advance → ∀ critical ∈ up.pool.critical,
    up.pool.finds critical = [] ∨ critical.sifts = true

/-- The task has nothing to fear, or has still to wait. -/
def Wary (up : UpstreamPool ν) (task : Task) : Prop :=
  task.phase.backsOff = true ∨
    (task.phase = .refreshing ∧ up.pool.critical.any Critical.foundClosed = true) ∨
    Rested up.signs

structure Cautious (up : UpstreamPool ν) : Prop where
  signs : EachAfter BackedOff up.signs
  unsaid : up.tasks = [] → up.signs = []
  paced : ∀ task ∈ up.tasks, task.Paced (waitsSinceFull up.signs)
  wary : ∀ task ∈ up.tasks, up.Wary task

theorem Cautious.congr (hcautious : up.Cautious) (hsigns : next.signs = up.signs)
    (htasks : next.tasks = up.tasks)
    (hcritical : up.pool.critical.any Critical.foundClosed = true →
      next.pool.critical.any Critical.foundClosed = true) : next.Cautious where
  signs := hsigns ▸ hcautious.signs
  unsaid := by rw [hsigns, htasks]; exact hcautious.unsaid
  paced := by rw [hsigns, htasks]; exact hcautious.paced
  wary := by
    rw [htasks]
    intro task hmem
    refine (hcautious.wary task hmem).imp_right (Or.imp ?_ ?_)
    · exact fun hfound => ⟨hfound.1, hcritical hfound.2⟩
    · exact fun hrested => hsigns ▸ hrested

/-- The only task moves. -/
theorem cautious_of_task {j : Nat} {task after : Task} (hone : up.tasks.length ≤ 1)
    (hget : up.tasks[j]? = some task) (htasks : next.tasks = up.tasks.set j after)
    (hsigns : EachAfter BackedOff next.signs) (hpaced : after.Paced (waitsSinceFull next.signs))
    (hwary : next.Wary after) : next.Cautious := by
  have honly := htasks.trans (tasks_of_get hone hget after).2
  refine ⟨hsigns, fun hnone => ?_, fun other hmem => ?_, fun other hmem => ?_⟩
  · rw [honly] at hnone
    cases hnone
  · rw [honly, List.mem_singleton] at hmem
    exact hmem ▸ hpaced
  · rw [honly, List.mem_singleton] at hmem
    exact hmem ▸ hwary

/-- A task that neither backs off nor refreshes has nothing to fear. -/
theorem Cautious.rested (hcautious : up.Cautious) {task : Task} (hmem : task ∈ up.tasks)
    (hbacksOff : task.phase.backsOff = false) (hphase : task.phase ≠ .refreshing) :
    Rested up.signs := by
  rcases hcautious.wary task hmem with hbacks | ⟨hrefreshing, -⟩ | hrested
  · rw [hbacks] at hbacksOff
    cases hbacksOff
  · exact absurd hrefreshing hphase
  · exact hrested

/-- The only task moves between places where it has nothing to fear. -/
theorem Cautious.move {j : Nat} {task after : Task} (hcautious : up.Cautious)
    (hone : up.tasks.length ≤ 1) (hget : up.tasks[j]? = some task)
    (htasks : next.tasks = up.tasks.set j after) (hsigns : next.signs = up.signs)
    (hbackoff : after.backoff = task.backoff) (hafter : after.phase.steady = true)
    (hsteady : task.phase.steady = true) (hbacksOff : task.phase.backsOff = false)
    (hphase : task.phase ≠ .refreshing) : next.Cautious := by
  have hmem := List.mem_of_getElem? hget
  have hpaced := hcautious.paced task hmem
  rw [Task.paced_of_steady hsteady] at hpaced
  refine cautious_of_task hone hget htasks ?_ ?_ (.inr (.inr ?_))
  · exact hsigns ▸ hcautious.signs
  · rw [Task.paced_of_steady hafter, hsigns, hbackoff, hpaced]
  · exact hsigns ▸ hcautious.rested hmem hbacksOff hphase

theorem Cautious.go {j : Nat} {task after : Task} {signs : List Sign} (hcautious : up.Cautious)
    (hone : up.tasks.length ≤ 1) (hget : up.tasks[j]? = some task)
    (hphase : task.phase ≠ .refreshing ∧ task.phase ≠ .putting)
    (hgoes : up.Goes task after signs) :
    Cautious (setTask { up with signs := up.signs ++ signs } j after) := by
  have hmem := List.mem_of_getElem? hget
  have hpaced := hcautious.paced task hmem
  have hsilent : up.signs ++ [] = up.signs := List.append_nil _
  cases hgoes with
  | stop hdropped =>
      exact cautious_of_task hone hget rfl (hsilent.symm ▸ hcautious.signs) trivial (.inl rfl)
  | sleep hdiscouraged =>
      rw [Task.paced_of_steady (by rw [hdiscouraged]; rfl)] at hpaced
      refine cautious_of_task hone hget rfl (hsilent.symm ▸ hcautious.signs) ⟨?_, ?_⟩ (.inl rfl)
      · change task.backoff.next = delayAfter (waitsSinceFull (up.signs ++ []))
        rw [hsilent, hpaced]
      · change min (task.backoff.next * 2) Backoff.MAX =
          delayAfter (waitsSinceFull (up.signs ++ []) + 1)
        rw [hsilent, hpaced, delayAfter_succ]
  | dial hshort =>
      have hrested := hcautious.rested hmem (by rw [hshort]; rfl) hphase.1
      have hwaits : waitsSinceFull (up.signs ++ [.dial]) = waitsSinceFull up.signs :=
        waitsSinceFull_concat rfl _
      rw [Task.paced_of_steady (by rw [hshort]; rfl)] at hpaced
      refine cautious_of_task hone hget rfl (hcautious.signs.concat hrested) ?_
        (.inr (.inr (hrested.concat rfl)))
      exact (Task.paced_of_steady rfl _).mpr (hpaced.trans (congrArg delayAfter hwaits.symm))
  | @rest started delay thenDial hsleeping htime =>
      simp only [Task.Paced, hsleeping] at hpaced
      have hlasted : delay ≤ up.pool.now - started := by omega
      have hwaits : waitsSinceFull (up.signs ++ [.waited delay (up.pool.now - started)]) =
          waitsSinceFull up.signs + 1 := waitsSinceFull_concat rfl _
      refine cautious_of_task hone hget rfl (hcautious.signs.concat ⟨hpaced.1, hlasted⟩) ?_
        (.inr (.inr (rested_concat_waited _ _ _)))
      refine (Task.paced_of_steady (by dsimp only; split <;> rfl) _).mpr ?_
      change task.backoff.next = delayAfter (waitsSinceFull (up.signs ++ [_]))
      rw [hwaits]
      exact hpaced.2
  | fail hdialing =>
      have hwaits : waitsSinceFull (up.signs ++ [.dialFailed]) = waitsSinceFull up.signs :=
        waitsSinceFull_concat rfl _
      rw [Task.paced_of_steady (by rw [hdialing]; rfl)] at hpaced
      refine cautious_of_task hone hget rfl (hcautious.signs.concat trivial) ?_ (.inl rfl)
      exact (Task.paced_of_steady rfl _).mpr (hpaced.trans (congrArg delayAfter hwaits.symm))

/-- A step under the lock, other than the last, leaves what the holder has found. -/
theorem Cautious.onward {holder : Holder} {critical : Critical} {pool : Pool}
    (hcautious : up.Cautious) (hone : up.tasks.length ≤ 1) (hlocked : up.Locked)
    (hnoticed : up.pool.finds critical = [] ∨ critical.sifts = true)
    (hholder : up.holder = some holder) (hcritical : up.pool.critical = some critical)
    (hmoves : up.pool.Moves critical pool none) :
    Cautious { up with pool := pool.record none, signs := up.signs ++ up.pool.finds critical } := by
  have hquiet (hfinds : up.pool.finds critical = [])
      (hfound : critical.foundClosed = true → pool.critical.any Critical.foundClosed = true) :
      Cautious { up with
        pool := pool.record none, signs := up.signs ++ up.pool.finds critical } := by
    refine hcautious.congr (by rw [hfinds, List.append_nil]) rfl fun hany => ?_
    rw [hcritical] at hany
    exact hfound hany
  have hsifts (hnot : critical.sifts = false) : up.pool.finds critical = [] :=
    hnoticed.resolve_right (by simp [hnot])
  cases hmoves with
  | age => exact hquiet (hsifts rfl) (by simp [Critical.foundClosed])
  | young => exact hquiet (hsifts rfl) (by simp [Critical.foundClosed])
  | outdated => exact hquiet (hsifts rfl) (by simp [Critical.foundClosed])
  | refuse => exact hquiet (hsifts rfl) (by simp [Critical.foundClosed])
  | enough => exact hquiet rfl fun hfound => hfound
  | @probe before expired aged probed entry rest =>
      by_cases hsilent : up.pool.peerOf entry = .silent
      · refine hquiet (if_pos hsilent) fun hfound => ?_
        change probed.any _ = true at hfound
        change (probed ++ [(entry, up.pool.peerOf entry)]).any _ = true
        rw [List.any_append, hfound, Bool.true_or]
      · -- the refresh will report this socket, and the task wait
        have hfinds : up.pool.finds (.sifting before expired aged probed (entry :: rest)) =
            [.closed entry.stream] := if_neg hsilent
        rw [hfinds]
        have hwaits : waitsSinceFull (up.signs ++ [.closed entry.stream]) =
            waitsSinceFull up.signs := waitsSinceFull_concat rfl _
        cases hlocked with
        | @refreshing j only _ hheld hin hget hphase hkind =>
            have honly := (tasks_of_get hone hget only).1
            refine ⟨hcautious.signs.concat trivial, fun hnone => ?_, fun task hmem => ?_,
              fun task hmem => .inr (.inl ⟨?_, ?_⟩)⟩
            · exact absurd (honly.symm.trans hnone) (List.cons_ne_nil _ _)
            · exact hwaits.symm ▸ hcautious.paced task hmem
            · change task ∈ up.tasks at hmem
              rw [honly, List.mem_singleton] at hmem
              exact hmem ▸ hphase
            · change (probed ++ [(entry, up.pool.peerOf entry)]).any _ = true
              simp [hsilent]
        | free hfree hnone =>
            rw [hfree] at hholder
            cases hholder
        | taking hheld hin hget hkind =>
            obtain rfl := Option.some.inj (hin.symm.trans hcritical)
            cases hkind
        | putting hheld hin hget hphase hkind =>
            obtain rfl := Option.some.inj (hin.symm.trans hcritical)
            cases hkind
  | _ => exact hquiet rfl (by simp [Critical.foundClosed])

/-- The last step of an operation: a refresh that read from a socket that was not
silent says so, and never that the queue is full. -/
theorem Cautious.ends {config : PoolConfig} {critical : Critical} {pool : Pool}
    (hcautious : up.Cautious) (hone : up.tasks.length ≤ 1) (hlawful : up.pool.Lawful config)
    (hnoticed : up.pool.finds critical = [] ∨ critical.sifts = true)
    (hcritical : up.pool.critical = some critical) (hends : up.Ends critical pool next) :
    next.Cautious := by
  have hprogress := hlawful.inOrder.progress critical hcritical
  cases hends with
  | took hget hmoves =>
      have hfinds : up.pool.finds critical = [] := by
        cases hmoves with
        | empty => rfl
        | hand hsilent => exact if_pos hsilent
      refine hcautious.congr (by simp [setTake, hfinds]) rfl fun hfound => ?_
      rw [hcritical] at hfound
      cases hmoves <;> cases hfound
  | @full j task before after aged probed time nextExpiry hget hphase hmoves =>
      have hmem := List.mem_of_getElem? hget
      cases hmoves with
      | measure =>
        have hrested : Rested up.signs := by
          rcases hcautious.wary task hmem with hbacks | ⟨-, hfound⟩ | hrested
          · rw [hphase] at hbacks
            cases hbacks
          · rw [hcritical, Option.any_some, not_foundClosed_of_measuring hprogress] at hfound
            cases hfound
          · exact hrested
        have hsigns : up.signs ++ up.pool.finds (.measuring before aged probed) = up.signs :=
          List.append_nil _
        rw [hsigns]
        refine cautious_of_task hone hget rfl (hcautious.signs.concat trivial) ?_
          (.inr (.inr (hrested.concat rfl)))
        have hwaits := waitsSinceFull_concat_full up.signs
        have hreset : Backoff.FIRST = delayAfter 0 := by decide
        exact (Task.paced_of_steady rfl _).mpr (hreset.trans (congrArg delayAfter hwaits.symm))
  | @short j task before after aged probed time closedByPeer hget hphase hmoves =>
      have hmem := List.mem_of_getElem? hget
      have hpaced := hcautious.paced _ hmem
      rw [Task.paced_of_steady (by rw [hphase]; rfl)] at hpaced
      have hsound := (hmoves.progress hprogress hlawful.inOrder).2 _ rfl
      cases hmoves with
      | @short _ expired _ _ hshort =>
        have hsigns : up.signs ++ up.pool.finds (.sifting before expired aged probed []) =
            up.signs := List.append_nil _
        rw [hsigns]
        refine cautious_of_task hone hget rfl hcautious.signs ?_ ?_
        · refine (Task.paced_of_steady ?_ _).mpr hpaced
          dsimp only
          split <;> rfl
        · split
          next => exact .inl rfl
          next hnone =>
            refine .inr (.inr ?_)
            rcases hcautious.wary task hmem with hbacks | ⟨-, hfound⟩ | hrested
            · rw [hphase] at hbacks
              cases hbacks
            · rw [hcritical, Option.any_some] at hfound
              have hcount := hsound.2.2.2.2
              rw [hcount, List.countP_pos_iff] at hnone
              obtain ⟨seen, hseen, hclosed⟩ := List.any_eq_true.mp hfound
              exact absurd ⟨seen, hseen, hclosed⟩ hnone
            · exact hrested
  | put hget hphase hmoves =>
      have hfinds : up.pool.finds critical = [] := by cases hmoves <;> rfl
      rw [hfinds, List.append_nil]
      exact hcautious.move hone hget rfl rfl rfl rfl (by rw [hphase]; rfl) (by rw [hphase]; rfl)
        (by rw [hphase]; simp)

variable [Notify ν] {event : PrewarmEvent}

theorem Cautious.look {j : Nat} {task : Task} {wake : ν} {phase : Phase}
    (hcautious : up.Cautious) (hone : up.tasks.length ≤ 1) (hget : up.tasks[j]? = some task)
    (hlooks : up.Looks j task wake phase) :
    Cautious ((up.setWake wake).setTask j { task with phase }) := by
  have hrests (hrests : task.phase.rests = true) (hafter : phase.steady = true) :
      Cautious ((up.setWake wake).setTask j { task with phase }) := by
    obtain ⟨hsteady, hbacksOff, hrefreshing⟩ := Phase.steady_of_rests hrests
    exact hcautious.move hone hget rfl rfl rfl hafter hsteady hbacksOff hrefreshing
  cases hlooks with
  | woken hwoken => exact hrests hwoken rfl
  | full hfull => exact hrests (by rw [hfull]; rfl) rfl
  | waiting hwaiting => exact hrests (by rw [hwaiting]; rfl) rfl
  | elapsed hwaiting => exact hrests (by rw [hwaiting]; rfl) rfl
  | aborted => exact cautious_of_task hone hget rfl hcautious.signs trivial (.inl rfl)

theorem Cautious.step {config : PoolConfig} (hcautious : up.Cautious)
    (horderly : up.Orderly config) (hnoticed : up.Noticed event) (hsteps : up.Steps event next)
    (hone : next.tasks.length ≤ 1) : next.Cautious := by
  have hsingle := horderly.started.one_task
  cases hsteps with
  | tick elapsed => exact hcautious.congr rfl rfl fun hfound => hfound
  | act hpool =>
      cases Pool.step_cases hpool with
      | act => exact hcautious.congr rfl rfl fun hfound => hfound
  | spawn hget =>
      have hnone : up.tasks = [] := by
        refine List.eq_nil_of_length_eq_zero ?_
        change (up.tasks ++ [_]).length ≤ 1 at hone
        rw [List.length_append, List.length_singleton] at hone
        omega
      have hsigns := hcautious.unsaid hnone
      have hmem {task : Task} (hmem : task ∈ up.tasks ++ [{ addr := up.pool.addr }]) :
          task = { addr := up.pool.addr } := by
        rwa [hnone, List.nil_append, List.mem_singleton] at hmem
      refine ⟨hcautious.signs, fun _ => hsigns, fun task htask => ?_, fun task htask => ?_⟩
      · rw [hmem htask]
        change (default : Backoff).next = delayAfter (waitsSinceFull up.signs)
        rw [hsigns]
        rfl
      · refine .inr (.inr ?_)
        change Rested up.signs
        rw [hsigns]
        intro sign hsign
        cases hsign
  | lockTake hget hfree =>
      refine hcautious.congr rfl rfl fun hfound => ?_
      rw [hfree] at hfound
      cases hfound
  | lockRefresh hget hphase hfree =>
      exact hcautious.move hsingle hget rfl rfl rfl rfl (by rw [hphase]; rfl)
        (by rw [hphase]; rfl) (by rw [hphase]; simp)
  | lockPut hget hphase hfree hdialed =>
      exact hcautious.move hsingle hget rfl rfl rfl rfl (by rw [hphase]; rfl)
        (by rw [hphase]; rfl) (by rw [hphase]; simp)
  | go hget hphase hgoes => exact hcautious.go hsingle hget hphase hgoes
  | look hget hphase hlooks => exact hcautious.look hsingle hget hlooks
  | connect hget hphase =>
      exact hcautious.move hsingle hget rfl rfl rfl rfl (by rw [hphase]; rfl)
        (by rw [hphase]; rfl) (by rw [hphase]; simp)
  | onward hholder hcritical hmoves =>
      exact hcautious.onward hsingle horderly.locked (hnoticed rfl _ hcritical) hholder hcritical
        hmoves
  | last hholder hcritical hmoves =>
      exact hcautious.ends hsingle horderly.lawful (hnoticed rfl _ hcritical) hcritical
        (horderly.locked.ends hholder hcritical hmoves)
  | _ => exact hcautious.congr rfl rfl fun hfound => hfound

theorem cautious_new (addr : Text) (config : PoolConfig) :
    Cautious (new addr config : UpstreamPool ν) where
  signs := eachAfter_nil
  unsaid := fun _ => rfl
  paced := fun task hmem => by cases hmem
  wary := fun task hmem => by cases hmem

/-- As long as no take examines a socket that was closed or written to, and none of
these reaches the timeout before a refresh has read from it, every dial after such a
socket or a failed dial comes after a backoff wait, and the waits double from one full
pool to the next. -/
theorem backed_off_of_noticed [LawfulNotify ν] (addr : Text) (config : PoolConfig)
    {events : List PrewarmEvent} {up : UpstreamPool ν}
    (hmeets : StepsMeet step Noticed (new addr config : UpstreamPool ν) events)
    (hrun : run step (new addr config) events = some up) : EachAfter BackedOff up.signs := by
  have hkept : up.Orderly config ∧ up.Cautious := by
    refine run_invariant_of_stepsMeet (fun up => up.Orderly config ∧ up.Cautious) ?_
      ⟨orderly_new addr config, cautious_new addr config⟩ hmeets hrun
    intro up event next ⟨horderly, hcautious⟩ hnoticed hstep
    have hsteps := step_cases hstep
    have hnext := horderly.step hsteps
    exact ⟨hnext, hcautious.step horderly hnoticed hsteps hnext.started.one_task⟩
  exact hkept.2.signs

instance decidableNoticed (up : UpstreamPool ν) (event : PrewarmEvent) :
    Decidable (up.Noticed event) := by
  unfold Noticed
  infer_instance

/-- The gateway closes the parked socket, the next refresh reads from it, and the task
waits before it dials. -/
def closedThenRefreshed : List PrewarmEvent :=
  firstTake ++ [.act 0 .closed, .tick RECHECK, .elapse 0, .task 0, .advance, .advance, .advance,
    .advance, .task 0, .tick Backoff.FIRST, .elapse 0, .task 0]

theorem backed_off_of_noticed_closedThenRefreshed :
    ((run step (new ['p'] ⟨1, 4 * RECHECK⟩ : UpstreamPool NotifyCell) closedThenRefreshed).map
        (·.signs)) = some
          [.dial, .full, .full, .closed 0, .waited Backoff.FIRST Backoff.FIRST, .dial] ∧
      EachAfter BackedOff
        [.dial, .full, .full, .closed 0, .waited Backoff.FIRST Backoff.FIRST, .dial] := by
  have hmeets : StepsMeet step Noticed (new ['p'] ⟨1, 4 * RECHECK⟩ : UpstreamPool NotifyCell)
      closedThenRefreshed := by decide
  obtain ⟨up, hrun, hsigns⟩ : ∃ up, run step (new ['p'] ⟨1, 4 * RECHECK⟩ : UpstreamPool NotifyCell)
      closedThenRefreshed = some up ∧ up.signs =
        [.dial, .full, .full, .closed 0, .waited Backoff.FIRST Backoff.FIRST, .dial] :=
    ⟨_, rfl, rfl⟩
  refine ⟨by rw [hrun, Option.map_some, hsigns], ?_⟩
  exact hsigns ▸ backed_off_of_noticed _ _ hmeets hrun

/-- The gateway closes the parked socket, and a take discards it: the refresh after it
counts nothing, and the task dials at once. -/
def closedThenTaken : List PrewarmEvent :=
  firstTake ++ [.act 0 .closed, .call true, .take 1, .take 1, .advance, .advance, .advance,
    .advance, .take 1, .task 0, .task 0, .advance, .advance, .task 0]

theorem redialed_at_once :
    ∃ up, run step (new ['p'] ⟨1, 9⟩ : UpstreamPool NotifyCell) closedThenTaken = some up ∧
      ¬ EachAfter BackedOff up.signs := by
  refine ⟨_, rfl, fun hbacked => ?_⟩
  have hrested : Rested [.dial, .full, .full, .closed 0] := hbacked _ .dial [] rfl
  exact absurd (hrested (.closed 0) (by decide)) (by decide)

end UpstreamPool

end Zicade.Upstream
