import Zicade.Foundation.Parties
import Zicade.Upstream.PoolLaws
import Zicade.Upstream.Prewarm

/-! # The rules of the prewarm task

What each party does in a step, once, as a relation; that the queue inside obeys the
rules of the pool alone; that one task runs; and that it never sleeps through a
shortage.
-/

namespace Zicade.Upstream

open Zicade.Foundation

def Take.isSpawning : Take → Bool
  | .spawning => true
  | _ => false

def Take.isStoring : Take → Bool
  | .storing _ => true
  | _ => false

def Once.isInitializing : Once → Bool
  | .initializing => true
  | _ => false

def Once.isSet : Once → Bool
  | .set _ => true
  | _ => false

theorem Once.one_of_both (once : Once) : once.isInitializing.toNat + once.isSet.toNat ≤ 1 := by
  cases once <;> simp [isInitializing, isSet]

def Take.isPopped : Take → Bool
  | .popped _ => true
  | _ => false

/-- In the wait of a full pool, or about to begin it. -/
def Phase.rests : Phase → Bool
  | .full _ | .waiting _ => true
  | _ => false

namespace UpstreamPool

variable {ν : Type*} {up next : UpstreamPool ν}

/-! ## Who holds the lock -/

/-- The holder of the lock is where its operation is. -/
inductive Locked (up : UpstreamPool ν) : Prop
  | free (hholder : up.holder = none) (hcritical : up.pool.critical = none)
  | taking {i critical} (hholder : up.holder = some (.take i))
      (hcritical : up.pool.critical = some critical) (hget : up.takes[i]? = some Take.popping)
      (hkind : critical.kind = .take)
  | refreshing {j task critical} (hholder : up.holder = some (.task j))
      (hcritical : up.pool.critical = some critical) (hget : up.tasks[j]? = some task)
      (hphase : task.phase = .refreshing) (hkind : critical.kind = .refresh)
  | putting {j task critical} (hholder : up.holder = some (.task j))
      (hcritical : up.pool.critical = some critical) (hget : up.tasks[j]? = some task)
      (hphase : task.phase = .putting) (hkind : critical.kind = .put)

theorem Locked.congr (hlocked : up.Locked) (hholder : next.holder = up.holder)
    (hcritical : next.pool.critical = up.pool.critical)
    (htakes : ∀ i : Nat, up.takes[i]? = some Take.popping → next.takes[i]? = some Take.popping)
    (htasks : ∀ (j : Nat) task, task.phase = .refreshing ∨ task.phase = .putting →
      up.tasks[j]? = some task → next.tasks[j]? = some task) : next.Locked := by
  cases hlocked with
  | free hfree hnone => exact .free (hholder.trans hfree) (hcritical.trans hnone)
  | taking hheld hin hget hkind =>
      exact .taking (hholder.trans hheld) (hcritical.trans hin) (htakes _ hget) hkind
  | refreshing hheld hin hget hphase hkind =>
      exact .refreshing (hholder.trans hheld) (hcritical.trans hin)
        (htasks _ _ (.inl hphase) hget) hphase hkind
  | putting hheld hin hget hphase hkind =>
      exact .putting (hholder.trans hheld) (hcritical.trans hin)
        (htasks _ _ (.inr hphase) hget) hphase hkind

/-- A take that does not hold the lock moves. -/
theorem Locked.setTake (hlocked : up.Locked) {i : Nat} {before : Take}
    (hget : up.takes[i]? = some before) (hbefore : before ≠ .popping) (after : Take)
    (hholder : next.holder = up.holder) (hpool : next.pool = up.pool)
    (htakes : next.takes = up.takes.set i after) (htasks : up.tasks <+: next.tasks) :
    next.Locked := by
  refine hlocked.congr hholder (congrArg _ hpool) (fun j hother => ?_) (fun j task _ hother => ?_)
  · rw [htakes]
    exact getElem?_set_of_ne hget hbefore.symm hother
  · obtain ⟨more, htasks⟩ := htasks
    rw [← htasks]
    exact (List.getElem?_append_left (List.getElem?_eq_some_iff.mp hother).1).trans hother

/-- A task that does not hold the lock moves. -/
theorem Locked.setTask (hlocked : up.Locked) {j : Nat} {before : Task}
    (hget : up.tasks[j]? = some before)
    (hbefore : before.phase ≠ .refreshing ∧ before.phase ≠ .putting) (after : Task)
    (hholder : next.holder = up.holder) (hcritical : next.pool.critical = up.pool.critical)
    (htakes : next.takes = up.takes) (htasks : next.tasks = up.tasks.set j after) :
    next.Locked := by
  refine hlocked.congr hholder hcritical (fun i hother => htakes ▸ hother)
    (fun i other hbusy hother => ?_)
  rw [htasks]
  refine getElem?_set_of_ne hget ?_ hother
  rintro rfl
  exact hbusy.elim hbefore.1 hbefore.2

/-- The effects of an outcome on everything but its holder. -/
theorem deliver_same (holder : Holder) (outcome : Outcome) :
    (up.deliver holder outcome).pool = up.pool ∧ (up.deliver holder outcome).wake = up.wake ∧
      (up.deliver holder outcome).prewarm = up.prewarm ∧
      (up.deliver holder outcome).holder = up.holder := by
  unfold deliver
  split
  next => exact ⟨rfl, rfl, rfl, rfl⟩
  next =>
    split
    next => exact ⟨rfl, rfl, rfl, rfl⟩
    next => split <;> exact ⟨rfl, rfl, rfl, rfl⟩
  next => split <;> exact ⟨rfl, rfl, rfl, rfl⟩
  next => exact ⟨rfl, rfl, rfl, rfl⟩

/-- What the last step of an operation comes to, for the one who holds the lock. -/
inductive Ends (up : UpstreamPool ν) (critical : Critical) (pool : Pool) : UpstreamPool ν → Prop
  | took {i before after discarded got} (hget : up.takes[i]? = some Take.popping)
      (hmoves : up.pool.Moves critical pool (some (.took before after discarded got))) :
      Ends up critical pool (setTake { up with
        pool := pool.record (some (.took before after discarded got)), holder := none
        signs := up.signs ++ up.pool.finds critical } i (.popped got))
  | full {j task before after aged probed time nextExpiry} (hget : up.tasks[j]? = some task)
      (hphase : task.phase = .refreshing)
      (hmoves : up.pool.Moves critical pool
        (some (.refreshed before after aged probed time (.full nextExpiry)))) :
      Ends up critical pool (setTask { up with
        pool := pool.record (some (.refreshed before after aged probed time (.full nextExpiry)))
        holder := none, signs := up.signs ++ up.pool.finds critical ++ [.full] } j
          { task with backoff := task.backoff.reset, phase := .full nextExpiry })
  | short {j task before after aged probed time closedByPeer} (hget : up.tasks[j]? = some task)
      (hphase : task.phase = .refreshing)
      (hmoves : up.pool.Moves critical pool
        (some (.refreshed before after aged probed time (.short closedByPeer)))) :
      Ends up critical pool (setTask { up with
        pool := pool.record (some (.refreshed before after aged probed time (.short closedByPeer)))
        holder := none, signs := up.signs ++ up.pool.finds critical } j
          { task with phase := if 0 < closedByPeer then .discouraged true else .short })
  | put {j task parked} (hget : up.tasks[j]? = some task) (hphase : task.phase = .putting)
      (hmoves : up.pool.Moves critical pool (some (.put parked))) :
      Ends up critical pool (setTask { up with
        pool := pool.record (some (.put parked)), holder := none
        signs := up.signs ++ up.pool.finds critical } j { task with phase := .top })

theorem Locked.ends (hlocked : up.Locked) {holder : Holder} {critical : Critical} {pool : Pool}
    {outcome : Outcome} (hholder : up.holder = some holder)
    (hcritical : up.pool.critical = some critical)
    (hmoves : up.pool.Moves critical pool (some outcome)) :
    up.Ends critical pool (deliver { up with
      pool := pool.record (some outcome), holder := none
      signs := up.signs ++ up.pool.finds critical } holder outcome) := by
  have hkinds := hmoves.kind_last.2
  cases hlocked with
  | free hfree hnone =>
      rw [hfree] at hholder
      cases hholder
  | taking hheld hin hget hkind =>
      obtain rfl := Option.some.inj (hheld.symm.trans hholder)
      obtain rfl := Option.some.inj (hin.symm.trans hcritical)
      rw [hkind] at hkinds
      cases outcome with
      | took => exact .took hget hmoves
      | refreshed => cases hkinds
      | put => cases hkinds
  | refreshing hheld hin hget hphase hkind =>
      obtain rfl := Option.some.inj (hheld.symm.trans hholder)
      obtain rfl := Option.some.inj (hin.symm.trans hcritical)
      rw [hkind] at hkinds
      cases outcome with
      | took => cases hkinds
      | refreshed before after aged probed time result =>
          simp only [deliver, hget]
          cases result with
          | full nextExpiry => exact .full hget hphase hmoves
          | short closedByPeer => exact .short hget hphase hmoves
      | put => cases hkinds
  | putting hheld hin hget hphase hkind =>
      obtain rfl := Option.some.inj (hheld.symm.trans hholder)
      obtain rfl := Option.some.inj (hin.symm.trans hcritical)
      rw [hkind] at hkinds
      cases outcome with
      | took => cases hkinds
      | refreshed => cases hkinds
      | put =>
          simp only [deliver, hget]
          exact .put hget hphase hmoves

/-! ## One task -/

/-- One take at a time starts the task, and there is none before and one after. -/
structure Started (up : UpstreamPool ν) : Prop where
  starting : up.takes.countP Take.isSpawning + up.takes.countP Take.isStoring =
    up.prewarm.isInitializing.toNat
  tasks : up.tasks.length = up.takes.countP Take.isStoring + up.prewarm.isSet.toNat

theorem Started.one_task (hstarted : up.Started) : up.tasks.length ≤ 1 := by
  have hstarting := hstarted.starting
  have htasks := hstarted.tasks
  have hboth := up.prewarm.one_of_both
  omega

theorem Started.congr (hstarted : up.Started) (hprewarm : next.prewarm = up.prewarm)
    (hspawning : next.takes.countP Take.isSpawning = up.takes.countP Take.isSpawning)
    (hstoring : next.takes.countP Take.isStoring = up.takes.countP Take.isStoring)
    (htasks : next.tasks.length = up.tasks.length) : next.Started where
  starting := by rw [hspawning, hstoring, hprewarm, hstarted.starting]
  tasks := by rw [htasks, hstoring, hprewarm, hstarted.tasks]

/-! ## Asleep only when the pool is full -/

/-- A take is between its pop and its wake-up of the task. -/
def unnotified (up : UpstreamPool ν) : Bool :=
  up.takes.any Take.isPopped || up.pool.critical.any Critical.hasPopped

theorem tasks_of_get (hone : up.tasks.length ≤ 1) {j : Nat} {task : Task}
    (hget : up.tasks[j]? = some task) (after : Task) :
    up.tasks = [task] ∧ up.tasks.set j after = [after] := by
  obtain ⟨hlt, hget⟩ := List.getElem?_eq_some_iff.mp hget
  obtain ⟨only, honly⟩ := List.length_eq_one_iff.mp (show up.tasks.length = 1 by omega)
  obtain rfl : j = 0 := by omega
  simp only [honly] at hget ⊢
  exact ⟨by rw [← hget]; rfl, rfl⟩

theorem unnotified_set {i : Nat} {before after : Take} (hget : up.takes[i]? = some before)
    (hbefore : before.isPopped = false) (hpopped : up.takes.any Take.isPopped = true) :
    (up.takes.set i after).any Take.isPopped = true := by
  obtain ⟨take, hmem, htake⟩ := List.any_eq_true.mp hpopped
  obtain ⟨other, hother⟩ := List.mem_iff_getElem?.mp hmem
  have hstays : (up.takes.set i after)[other]? = some take :=
    getElem?_set_of_ne hget (by rintro rfl; simp [hbefore] at htake) hother
  exact List.any_eq_true.mpr ⟨take, List.mem_of_getElem? hstays, htake⟩

theorem unnotified_congr {i : Nat} {before after : Take}
    (hget : up.takes[i]? = some before) (hbefore : before.isPopped = false)
    (htakes : next.takes = up.takes.set i after)
    (hcritical : up.pool.critical.any Critical.hasPopped = true →
      next.pool.critical.any Critical.hasPopped = true)
    (hunnotified : up.unnotified = true) : next.unnotified = true := by
  rw [unnotified, Bool.or_eq_true] at hunnotified ⊢
  rw [htakes]
  exact hunnotified.imp (unnotified_set hget hbefore) hcritical

/-! ## Steps -/

variable [Notify ν] {event : PrewarmEvent}

/-- A take goes on without touching the queue or the cell. -/
inductive Passes (up : UpstreamPool ν) : Take → Take → Prop
  | started (task : Nat) (runtime : Bool) (hset : up.prewarm = .set task) :
      Passes up (.calling runtime) .ready
  | noRuntime : Passes up (.calling false) .ready
  | begun (hunset : ∀ task, up.prewarm ≠ .set task) : Passes up (.calling true) .joining
  | joined (task : Nat) (hset : up.prewarm = .set task) : Passes up .joining .ready

/-- The step of a task that only moves it on, and the signs that it leaves. -/
inductive Goes (up : UpstreamPool ν) : Task → Task → List Sign → Prop
  | stop {task} (hdropped : up.dropped = true) : Goes up task { task with phase := .stopped } []
  | sleep {task : Task} {thenDial} (hphase : task.phase = .discouraged thenDial) :
      Goes up task
        { task with
          backoff := task.backoff.nextDelay.2
          phase := .sleeping up.pool.now task.backoff.nextDelay.1 thenDial } []
  | dial {task : Task} (hphase : task.phase = .short) :
      Goes up task { task with phase := .dialing } [.dial]
  | rest {task : Task} {started delay thenDial}
      (hphase : task.phase = .sleeping started delay thenDial)
      (htime : started + delay ≤ up.pool.now) :
      Goes up task { task with phase := if thenDial then .short else .top }
        [.waited delay (up.pool.now - started)]
  | fail {task : Task} (hphase : task.phase = .dialing) :
      Goes up task { task with phase := .discouraged false } [.dialFailed]

/-- The step of a task on the cell: it looks, or its wait is over. -/
inductive Looks (up : UpstreamPool ν) (j : Nat) : Task → ν → Phase → Prop
  | woken {task : Task} (hrests : task.phase.rests = true)
      (hready : (Notify.poll up.wake j).1 = true) :
      Looks up j task (Notify.poll up.wake j).2 .top
  | full {task : Task} {nextExpiry} (hphase : task.phase = .full nextExpiry)
      (hready : (Notify.poll up.wake j).1 = false) :
      Looks up j task (Notify.poll up.wake j).2
        (.waiting (up.pool.now + min nextExpiry RECHECK))
  | waiting {task : Task} {deadline} (hphase : task.phase = .waiting deadline)
      (hready : (Notify.poll up.wake j).1 = false) :
      Looks up j task (Notify.poll up.wake j).2 (.waiting deadline)
  | elapsed {task : Task} {deadline} (hphase : task.phase = .waiting deadline) :
      Looks up j task (Notify.cancel up.wake j) .top
  | aborted {task : Task} : Looks up j task (Notify.cancel up.wake j) .stopped

/-- One step of anyone. -/
inductive Steps (up : UpstreamPool ν) : PrewarmEvent → UpstreamPool ν → Prop
  | tick (elapsed : Nat) :
      Steps up (.tick elapsed) { up with pool := { up.pool with now := up.pool.now + elapsed } }
  | act {i peer pool} (hpool : up.pool.step (.act i peer) = some pool) :
      Steps up (.act i peer) { up with pool }
  | call {runtime} : Steps up (.call runtime) { up with takes := up.takes ++ [.calling runtime] }
  | pass {i before after} (hget : up.takes[i]? = some before) (hpasses : up.Passes before after) :
      Steps up (.take i) (up.setTake i after)
  | first {i} (hget : up.takes[i]? = some .joining) (hempty : up.prewarm = .empty) :
      Steps up (.take i) ((up.setPrewarm .initializing).setTake i .spawning)
  | spawn {i} (hget : up.takes[i]? = some .spawning) :
      Steps up (.take i) (up.spawn.setTake i (.storing up.tasks.length))
  | store {i task} (hget : up.takes[i]? = some (.storing task)) :
      Steps up (.take i) ((up.setPrewarm (.set task)).setTake i .ready)
  | lockTake {i} (hget : up.takes[i]? = some .ready) (hfree : up.pool.critical = none) :
      Steps up (.take i)
        (setTake { up with
          pool := up.pool.enter (.taking up.pool.idle [])
          holder := some (.take i) } i .popping)
  | notify {i got} (hget : up.takes[i]? = some (.popped got)) :
      Steps up (.take i) ((up.setWake (Notify.notifyOne up.wake)).setTake i (.returned got))
  | lockRefresh {j task} (hget : up.tasks[j]? = some task) (hphase : task.phase = .top)
      (hfree : up.pool.critical = none) :
      Steps up (.task j)
        (setTask { up with
          pool := up.pool.enter (.expiring up.pool.idle [] up.pool.idle)
          holder := some (.task j) } j { task with phase := .refreshing })
  | lockPut {j task stream} (hget : up.tasks[j]? = some task)
      (hphase : task.phase = .connected stream) (hfree : up.pool.critical = none)
      (hdialed : stream ∈ up.pool.dialed) :
      Steps up (.task j)
        (setTask { up with
          pool :=
            Pool.enter { up.pool with dialed := up.pool.dialed.erase stream } (.putting stream)
          holder := some (.task j) } j { task with phase := .putting })
  | go {event j task after signs} (hget : up.tasks[j]? = some task)
      (hphase : task.phase ≠ .refreshing ∧ task.phase ≠ .putting)
      (hgoes : up.Goes task after signs) :
      Steps up event (setTask { up with signs := up.signs ++ signs } j after)
  | look {event j task wake phase} (hget : up.tasks[j]? = some task)
      (hphase : task.phase ≠ .refreshing ∧ task.phase ≠ .putting)
      (hlooks : up.Looks j task wake phase) :
      Steps up event ((up.setWake wake).setTask j { task with phase })
  | connect {j task} (hget : up.tasks[j]? = some task) (hphase : task.phase = .dialing) :
      Steps up (.connect j)
        (setTask { up with pool := { up.pool with
            streams := up.pool.streams ++ [{ addr := task.addr }]
            dialed := up.pool.dialed ++ [up.pool.streams.length] } } j
          { task with phase := .connected up.pool.streams.length })
  | onward {holder critical pool} (hholder : up.holder = some holder)
      (hcritical : up.pool.critical = some critical) (hmoves : up.pool.Moves critical pool none) :
      Steps up .advance { up with
        pool := pool.record none, signs := up.signs ++ up.pool.finds critical }
  | last {holder critical pool outcome} (hholder : up.holder = some holder)
      (hcritical : up.pool.critical = some critical)
      (hmoves : up.pool.Moves critical pool (some outcome)) :
      Steps up .advance (deliver { up with
        pool := pool.record (some outcome), holder := none
        signs := up.signs ++ up.pool.finds critical } holder outcome)
  | drop : Steps up .drop { up with dropped := true }

theorem stepTake_cases {i : Nat} {take : Take} (hget : up.takes[i]? = some take)
    (hstep : up.stepTake i take = some next) : up.Steps (.take i) next := by
  cases take with
  | calling runtime =>
      simp only [stepTake] at hstep
      split at hstep
      next task hset =>
        obtain rfl := Option.some.inj hstep
        exact .pass hget (.started task _ hset)
      next =>
        obtain rfl := Option.some.inj hstep
        exact .pass hget .noRuntime
      next hunset =>
        obtain rfl := Option.some.inj hstep
        exact .pass hget (.begun hunset)
  | joining =>
      simp only [stepTake] at hstep
      split at hstep
      next hempty =>
        obtain rfl := Option.some.inj hstep
        exact .first hget hempty
      next => cases hstep
      next task hset =>
        obtain rfl := Option.some.inj hstep
        exact .pass hget (.joined task hset)
  | spawning =>
      obtain rfl := Option.some.inj hstep
      exact .spawn hget
  | storing task =>
      obtain rfl := Option.some.inj hstep
      exact .store hget
  | ready =>
      obtain ⟨locked, hlocked, rfl⟩ := Option.map_eq_some_iff.mp hstep
      obtain ⟨pool, hpool, rfl⟩ := Option.map_eq_some_iff.mp hlocked
      cases Pool.step_cases hpool with
      | lockTake hfree => exact .lockTake hget hfree
  | popping => cases hstep
  | popped got =>
      obtain rfl := Option.some.inj hstep
      exact .notify hget
  | returned got => cases hstep

theorem stepTask_cases {j : Nat} {task : Task} (hget : up.tasks[j]? = some task)
    (hstep : up.stepTask j task = some next) : up.Steps (.task j) next := by
  unfold stepTask at hstep
  split at hstep
  next hphase =>
    split at hstep
    next hdropped =>
      obtain rfl := Option.some.inj hstep
      have hstop : up.Steps (.task j) _ := .go hget (by simp [hphase]) (.stop hdropped)
      rw [List.append_nil] at hstop
      exact hstop
    next =>
      obtain ⟨locked, hlocked, rfl⟩ := Option.map_eq_some_iff.mp hstep
      obtain ⟨pool, hpool, rfl⟩ := Option.map_eq_some_iff.mp hlocked
      cases Pool.step_cases hpool with
      | lockRefresh hfree => exact .lockRefresh hget hphase hfree
  next nextExpiry hphase =>
    obtain rfl := Option.some.inj hstep
    split
    next hready =>
      exact .look hget (by simp [hphase]) (.woken (by simp [hphase, Phase.rests]) hready)
    next hready => exact .look hget (by simp [hphase]) (.full hphase hready)
  next deadline hphase =>
    obtain rfl := Option.some.inj hstep
    split
    next hready =>
      exact .look hget (by simp [hphase]) (.woken (by simp [hphase, Phase.rests]) hready)
    next hready => exact .look hget (by simp [hphase]) (.waiting hphase hready)
  next thenDial hphase =>
    obtain rfl := Option.some.inj hstep
    have hsleep : up.Steps (.task j) _ := .go hget (by simp [hphase]) (.sleep hphase)
    rw [List.append_nil] at hsleep
    exact hsleep
  next hphase =>
    obtain rfl := Option.some.inj hstep
    exact .go hget (by simp [hphase]) (.dial hphase)
  next stream hphase =>
    split at hstep
    next hdropped =>
      obtain rfl := Option.some.inj hstep
      have hstop : up.Steps (.task j) _ := .go hget (by simp [hphase]) (.stop hdropped)
      rw [List.append_nil] at hstop
      exact hstop
    next =>
      obtain ⟨locked, hlocked, rfl⟩ := Option.map_eq_some_iff.mp hstep
      obtain ⟨pool, hpool, rfl⟩ := Option.map_eq_some_iff.mp hlocked
      cases Pool.step_cases hpool with
      | lockPut hfree hdialed => exact .lockPut hget hphase hfree hdialed
  all_goals cases hstep

theorem elapse_cases {j : Nat} {task : Task} (hget : up.tasks[j]? = some task)
    (hstep : up.elapse j task = some next) : up.Steps (.elapse j) next := by
  unfold elapse at hstep
  split at hstep
  next deadline hphase =>
    split at hstep
    next =>
      obtain rfl := Option.some.inj hstep
      exact .look hget (by simp [hphase]) (.elapsed hphase)
    next => cases hstep
  next started delay thenDial hphase =>
    split at hstep
    next htime =>
      obtain rfl := Option.some.inj hstep
      exact .go hget (by simp [hphase]) (.rest hphase htime)
    next => cases hstep
  next => cases hstep

theorem dialed_cases {j : Nat} {task : Task} {ok : Bool} (hget : up.tasks[j]? = some task)
    (hstep : up.dialed j task ok = some next) :
    up.Steps (if ok then .connect j else .fail j) next := by
  unfold dialed at hstep
  split at hstep
  next hphase =>
    obtain ⟨locked, hlocked, rfl⟩ := Option.map_eq_some_iff.mp hstep
    obtain ⟨pool, hpool, rfl⟩ := Option.map_eq_some_iff.mp hlocked
    cases Pool.step_cases hpool with
    | dial => exact .connect hget hphase
  next hphase =>
    obtain rfl := Option.some.inj hstep
    exact .go hget (by simp [hphase]) (.fail hphase)
  next => cases hstep

theorem abort_cases {j : Nat} {task : Task} (hget : up.tasks[j]? = some task)
    (hstep : up.abort j task = some next) : up.Steps (.abort j) next := by
  unfold abort at hstep
  split at hstep
  next hdropped =>
    have hstop (hphase : task.phase ≠ .refreshing ∧ task.phase ≠ .putting) :
        up.Steps (.abort j) _ := .go hget hphase (.stop hdropped)
    simp only [List.append_nil] at hstop
    split at hstep
    next deadline hphase =>
      obtain rfl := Option.some.inj hstep
      exact .look hget (by simp [hphase]) .aborted
    next hphase =>
      obtain rfl := Option.some.inj hstep
      exact hstop (by simp [hphase])
    next hphase =>
      obtain rfl := Option.some.inj hstep
      exact hstop (by simp [hphase])
    next => cases hstep
  next => cases hstep

theorem advance_cases (hstep : up.advance = some next) : up.Steps .advance next := by
  unfold advance at hstep
  split at hstep
  next holder critical hholder hcritical =>
    have hmoves := up.pool.advance_moves critical
    generalize up.pool.advance critical = result at hmoves hstep
    obtain ⟨pool, outcome⟩ := result
    cases outcome with
    | none =>
        obtain rfl := Option.some.inj hstep
        exact .onward hholder hcritical hmoves
    | some outcome =>
        obtain rfl := Option.some.inj hstep
        exact .last hholder hcritical hmoves
  next => cases hstep

theorem step_cases (hstep : up.step event = some next) : up.Steps event next := by
  cases event with
  | tick elapsed =>
      obtain rfl := Option.some.inj hstep
      exact .tick elapsed
  | act i peer =>
      obtain ⟨pool, hpool, rfl⟩ := Option.map_eq_some_iff.mp hstep
      exact .act hpool
  | call runtime =>
      simp only [step] at hstep
      split at hstep
      next => cases hstep
      next =>
        obtain rfl := Option.some.inj hstep
        exact .call
  | take i =>
      obtain ⟨take, hget, htake⟩ := Option.bind_eq_some_iff.mp hstep
      exact stepTake_cases hget htake
  | advance => exact advance_cases hstep
  | task j =>
      obtain ⟨task, hget, htask⟩ := Option.bind_eq_some_iff.mp hstep
      exact stepTask_cases hget htask
  | elapse j =>
      obtain ⟨task, hget, htask⟩ := Option.bind_eq_some_iff.mp hstep
      exact elapse_cases hget htask
  | connect j =>
      obtain ⟨task, hget, htask⟩ := Option.bind_eq_some_iff.mp hstep
      exact dialed_cases hget htask
  | fail j =>
      obtain ⟨task, hget, htask⟩ := Option.bind_eq_some_iff.mp hstep
      exact dialed_cases hget htask
  | drop =>
      simp only [step, drop] at hstep
      split at hstep
      next =>
        obtain rfl := Option.some.inj hstep
        exact .drop
      next => cases hstep
  | abort j =>
      obtain ⟨task, hget, htask⟩ := Option.bind_eq_some_iff.mp hstep
      exact abort_cases hget htask

/-! ## The queue inside -/

/-- Whatever anyone does, the queue stays as it was or takes a step of its own. -/
theorem Steps.pool (hsteps : up.Steps event next) :
    next.pool = up.pool ∨ ∃ inside, up.pool.Steps inside next.pool := by
  cases hsteps with
  | tick elapsed => exact .inr ⟨_, .tick elapsed⟩
  | act hpool => exact .inr ⟨_, Pool.step_cases hpool⟩
  | lockTake hget hfree => exact .inr ⟨_, .lockTake hfree⟩
  | lockRefresh hget hphase hfree => exact .inr ⟨_, .lockRefresh hfree⟩
  | lockPut hget hphase hfree hdialed => exact .inr ⟨_, .lockPut hfree hdialed⟩
  | @connect j task hget hphase => exact .inr ⟨_, .dial task.addr⟩
  | onward hholder hcritical hmoves => exact .inr ⟨_, .advance hcritical hmoves⟩
  | last hholder hcritical hmoves =>
      right
      rw [(deliver_same _ _).1]
      exact ⟨_, .advance hcritical hmoves⟩
  | _ => exact .inl rfl

theorem Steps.lawful {config : PoolConfig} (hsteps : up.Steps event next)
    (hlawful : up.pool.Lawful config) : next.pool.Lawful config := by
  rcases hsteps.pool with hsame | ⟨inside, hinside⟩
  · rw [hsame]
    exact hlawful
  · exact hlawful.step hinside

theorem Locked.step (hlocked : up.Locked) (hsteps : up.Steps event next) : next.Locked := by
  cases hsteps with
  | tick elapsed => exact hlocked.congr rfl rfl (fun _ hget => hget) (fun _ _ _ hget => hget)
  | act hpool =>
      cases Pool.step_cases hpool with
      | act => exact hlocked.congr rfl rfl (fun _ hget => hget) (fun _ _ _ hget => hget)
  | call =>
      refine hlocked.congr rfl rfl (fun i hget => ?_) (fun _ _ _ hget => hget)
      exact (List.getElem?_append_left (List.getElem?_eq_some_iff.mp hget).1).trans hget
  | pass hget hpasses =>
      exact hlocked.setTake hget (by cases hpasses <;> simp) _ rfl rfl rfl (List.prefix_refl _)
  | first hget hempty =>
      exact hlocked.setTake hget (by simp) _ rfl rfl rfl (List.prefix_refl _)
  | spawn hget => exact hlocked.setTake hget (by simp) _ rfl rfl rfl (List.prefix_append _ _)
  | store hget => exact hlocked.setTake hget (by simp) _ rfl rfl rfl (List.prefix_refl _)
  | notify hget => exact hlocked.setTake hget (by simp) _ rfl rfl rfl (List.prefix_refl _)
  | lockTake hget hfree =>
      refine .taking rfl rfl ?_ rfl
      exact List.getElem?_set_self (List.getElem?_eq_some_iff.mp hget).1
  | @lockRefresh j task hget hphase hfree =>
      have hset : (up.tasks.set j { task with phase := .refreshing })[j]? = some _ :=
        List.getElem?_set_self (List.getElem?_eq_some_iff.mp hget).1
      exact .refreshing rfl rfl hset rfl rfl
  | @lockPut j task stream hget hphase hfree hdialed =>
      have hset : (up.tasks.set j { task with phase := .putting })[j]? = some _ :=
        List.getElem?_set_self (List.getElem?_eq_some_iff.mp hget).1
      exact .putting rfl rfl hset rfl rfl
  | go hget hphase hgoes => exact hlocked.setTask hget hphase _ rfl rfl rfl rfl
  | look hget hphase hlooks => exact hlocked.setTask hget hphase _ rfl rfl rfl rfl
  | connect hget hphase => exact hlocked.setTask hget (by simp [hphase]) _ rfl rfl rfl rfl
  | onward hholder hcritical hmoves =>
      obtain ⟨after, hafter, hkind⟩ := hmoves.kind_onward
      cases hlocked with
      | free hfree hnone =>
          rw [hfree] at hholder
          cases hholder
      | taking hheld hin hget htake =>
          obtain rfl := Option.some.inj (hin.symm.trans hcritical)
          exact .taking hheld hafter hget (hkind.trans htake)
      | refreshing hheld hin hget hphase hrefresh =>
          obtain rfl := Option.some.inj (hin.symm.trans hcritical)
          exact .refreshing hheld hafter hget hphase (hkind.trans hrefresh)
      | putting hheld hin hget hphase hput =>
          obtain rfl := Option.some.inj (hin.symm.trans hcritical)
          exact .putting hheld hafter hget hphase (hkind.trans hput)
  | last hholder hcritical hmoves =>
      refine .free (deliver_same _ _).2.2.2 ?_
      rw [(deliver_same _ _).1]
      exact hmoves.kind_last.1
  | drop => exact hlocked.congr rfl rfl (fun _ hget => hget) (fun _ _ _ hget => hget)

/-! ## One task, in every run -/

theorem Started.step (hstarted : up.Started) (hlocked : up.Locked)
    (hsteps : up.Steps event next) : next.Started := by
  have hspawning {i : Nat} {before : Take} (hget : up.takes[i]? = some before) (after : Take) :=
    countP_set Take.isSpawning hget after
  have hstoring {i : Nat} {before : Take} (hget : up.takes[i]? = some before) (after : Take) :=
    countP_set Take.isStoring hget after
  have hstarting := hstarted.starting
  have htasks := hstarted.tasks
  cases hsteps with
  | call => exact hstarted.congr rfl (by simp [Take.isSpawning]) (by simp [Take.isStoring]) rfl
  | @pass i before after hget hpasses =>
      refine hstarted.congr rfl ?_ ?_ rfl
      · have hcount := hspawning hget after
        cases hpasses <;> exact hcount
      · have hcount := hstoring hget after
        cases hpasses <;> exact hcount
  | @first i hget hempty =>
      have hspawning : _ + 0 = _ + 1 := hspawning hget .spawning
      have hstoring : _ + 0 = _ + 0 := hstoring hget .spawning
      rw [hempty] at hstarting htasks
      change _ = 0 at hstarting
      change _ = _ + 0 at htasks
      constructor
      · change (up.takes.set i .spawning).countP _ + (up.takes.set i .spawning).countP _ = 1
        omega
      · change up.tasks.length = (up.takes.set i .spawning).countP _ + 0
        omega
  | @spawn i hget =>
      have hspawning : _ + 1 = _ + 0 := hspawning hget (.storing up.tasks.length)
      have hstoring : _ + 0 = _ + 1 := hstoring hget (.storing up.tasks.length)
      constructor
      · change (up.takes.set i (.storing up.tasks.length)).countP _ +
          (up.takes.set i (.storing up.tasks.length)).countP _ = up.prewarm.isInitializing.toNat
        omega
      · change (up.tasks ++ [_]).length =
          (up.takes.set i (.storing up.tasks.length)).countP _ + up.prewarm.isSet.toNat
        rw [List.length_append, List.length_singleton]
        omega
  | @store i task hget =>
      have hspawning : _ + 0 = _ + 0 := hspawning hget .ready
      have hstoring : _ + 1 = _ + 0 := hstoring hget .ready
      have hboth := up.prewarm.one_of_both
      constructor
      · change (up.takes.set i .ready).countP _ + (up.takes.set i .ready).countP _ = 0
        omega
      · change up.tasks.length = (up.takes.set i .ready).countP _ + 1
        omega
  | notify hget => exact hstarted.congr rfl (hspawning hget _) (hstoring hget _) rfl
  | lockTake hget hfree => exact hstarted.congr rfl (hspawning hget _) (hstoring hget _) rfl
  | last hholder hcritical hmoves =>
      have hends := hlocked.ends hholder hcritical hmoves
      generalize deliver _ _ _ = next at hends ⊢
      cases hends with
      | took hget => exact hstarted.congr rfl (hspawning hget _) (hstoring hget _) rfl
      | full hget => exact hstarted.congr rfl rfl rfl List.length_set
      | short hget => exact hstarted.congr rfl rfl rfl List.length_set
      | put hget => exact hstarted.congr rfl rfl rfl List.length_set
  | lockRefresh => exact hstarted.congr rfl rfl rfl List.length_set
  | lockPut => exact hstarted.congr rfl rfl rfl List.length_set
  | go => exact hstarted.congr rfl rfl rfl List.length_set
  | look => exact hstarted.congr rfl rfl rfl List.length_set
  | connect => exact hstarted.congr rfl rfl rfl List.length_set
  | _ => exact hstarted.congr rfl rfl rfl rfl

/-! ## Asleep only when the pool is full, in every run -/

/-- Unless a wake-up is pending or on its way, a task that rests has a full pool. -/
def Attentive (up : UpstreamPool ν) : Prop :=
  ∀ task ∈ up.tasks, task.phase.rests = true →
    Notify.pending up.wake = true ∨ up.unnotified = true ∨
      up.pool.idle.length = up.pool.config.minIdle

theorem Attentive.congr (hattentive : up.Attentive)
    (htasks : ∀ task ∈ next.tasks, task.phase.rests = true →
      ∃ before ∈ up.tasks, before.phase.rests = true)
    (hwake : Notify.pending up.wake = true → Notify.pending next.wake = true)
    (hunnotified : up.unnotified = true → next.unnotified = true)
    (hidle : next.pool.idle = up.pool.idle) (hconfig : next.pool.config = up.pool.config) :
    next.Attentive := by
  intro task hmem hrests
  obtain ⟨before, hbefore, hrested⟩ := htasks task hmem hrests
  rw [hidle, hconfig]
  exact (hattentive before hbefore hrested).imp hwake (Or.imp_left hunnotified)

/-- A step of the only task that leaves it at work. -/
theorem attentive_of_busy {j : Nat} {task after : Task} (hone : up.tasks.length ≤ 1)
    (hget : up.tasks[j]? = some task) (htasks : next.tasks = up.tasks.set j after)
    (hbusy : after.phase.rests = false) : next.Attentive := by
  intro other hmem hrests
  rw [htasks, (tasks_of_get hone hget after).2, List.mem_singleton] at hmem
  rw [hmem, hbusy] at hrests
  cases hrests

/-- A look that completes nothing leaves a task that rests at rest. -/
theorem Attentive.look [LawfulNotify ν] (hattentive : up.Attentive) (hone : up.tasks.length ≤ 1)
    {j : Nat} {task : Task} {wake : ν} {phase : Phase} (hget : up.tasks[j]? = some task)
    (hlooks : up.Looks j task wake phase) :
    ((up.setWake wake).setTask j { task with phase }).Attentive := by
  have hrested (hrests : task.phase.rests = true) :
      ∀ other ∈ up.tasks.set j { task with phase }, other.phase.rests = true →
        ∃ before ∈ up.tasks, before.phase.rests = true :=
    fun _ _ _ => ⟨task, List.mem_of_getElem? hget, hrests⟩
  cases hlooks with
  | full hfull hready =>
      refine hattentive.congr (hrested (by rw [hfull]; rfl)) (fun hpending => ?_)
        (fun hunnotified => hunnotified) rfl rfl
      exact (LawfulNotify.pending_poll up.wake j hready).trans hpending
  | waiting hwaiting hready =>
      refine hattentive.congr (hrested (by rw [hwaiting]; rfl)) (fun hpending => ?_)
        (fun hunnotified => hunnotified) rfl rfl
      exact (LawfulNotify.pending_poll up.wake j hready).trans hpending
  | _ => exact attentive_of_busy hone hget rfl rfl

/-- An operation that goes on is a take, which has popped an entry, or the task's own. -/
theorem attentive_onward (hone : up.tasks.length ≤ 1) (hlocked : up.Locked) {holder : Holder}
    {critical : Critical} {pool : Pool} (hholder : up.holder = some holder)
    (hcritical : up.pool.critical = some critical) (hmoves : up.pool.Moves critical pool none) :
    Attentive { up with
      pool := pool.record none, signs := up.signs ++ up.pool.finds critical } := by
  obtain ⟨after, hafter, -⟩ := hmoves.kind_onward
  have hbusy {j : Nat} {task : Task} (hget : up.tasks[j]? = some task)
      (hphase : task.phase.rests = false) : ∀ other ∈ up.tasks, other.phase.rests = false := by
    rw [(tasks_of_get hone hget task).1]
    simpa using hphase
  intro task hmem hrests
  cases hlocked with
  | free hfree hnone =>
      rw [hfree] at hholder
      cases hholder
  | taking hheld hin hget hkind =>
      obtain rfl := Option.some.inj (hin.symm.trans hcritical)
      have hpopped := hmoves.hasPopped hkind hafter
      refine .inr (.inl ?_)
      rw [unnotified, Bool.or_eq_true]
      right
      change pool.critical.any Critical.hasPopped = true
      rw [hafter]
      exact hpopped
  | refreshing hheld hin hget hphase hkind =>
      rw [hbusy hget (by rw [hphase]; rfl) task hmem] at hrests
      cases hrests
  | putting hheld hin hget hphase hkind =>
      rw [hbusy hget (by rw [hphase]; rfl) task hmem] at hrests
      cases hrests

/-- A take ends with its wake-up still to come, and a refresh lets the task rest only
when the pool is full. -/
theorem attentive_of_ends (hone : up.tasks.length ≤ 1) {critical : Critical} {pool : Pool}
    (hinOrder : up.pool.InOrder) (hprogress : critical.Progress up.pool)
    (hends : up.Ends critical pool next) : next.Attentive := by
  cases hends with
  | @took i before after discarded got hget =>
      intro task hmem hrests
      refine .inr (.inl ?_)
      rw [unnotified, Bool.or_eq_true]
      left
      have hset : (up.takes.set i (.popped got))[i]? = some _ :=
        List.getElem?_set_self (List.getElem?_eq_some_iff.mp hget).1
      exact List.any_eq_true.mpr ⟨_, List.mem_of_getElem? hset, rfl⟩
  | full hget hphase hmoves =>
      intro task hmem hrests
      exact .inr (.inr (hmoves.length_of_full hprogress hinOrder))
  | @short j task before after aged probed time closedByPeer hget =>
      refine attentive_of_busy hone hget rfl ?_
      dsimp only
      split <;> rfl
  | put hget => exact attentive_of_busy hone hget rfl rfl

theorem Attentive.step {config : PoolConfig} [LawfulNotify ν] (hattentive : up.Attentive)
    (hone : up.tasks.length ≤ 1) (hlocked : up.Locked) (hlawful : up.pool.Lawful config)
    (hsteps : up.Steps event next) : next.Attentive := by
  have hsame : ∀ task ∈ up.tasks, task.phase.rests = true →
      ∃ before ∈ up.tasks, before.phase.rests = true := fun task hmem hrests => ⟨task, hmem, hrests⟩
  cases hsteps with
  | tick elapsed =>
      exact hattentive.congr hsame (fun hpending => hpending) (fun hunnotified => hunnotified)
        rfl rfl
  | act hpool =>
      cases Pool.step_cases hpool with
      | act =>
        exact hattentive.congr hsame (fun hpending => hpending) (fun hunnotified => hunnotified)
          rfl rfl
  | call =>
      refine hattentive.congr hsame (fun hpending => hpending) (fun hunnotified => ?_) rfl rfl
      simp only [unnotified, List.any_append, Bool.or_eq_true] at hunnotified ⊢
      exact hunnotified.imp_left .inl
  | pass hget hpasses =>
      refine hattentive.congr hsame (fun hpending => hpending)
        (unnotified_congr hget (by cases hpasses <;> rfl) rfl fun hpopped => hpopped) rfl rfl
  | first hget hempty =>
      exact hattentive.congr hsame (fun hpending => hpending)
        (unnotified_congr hget rfl rfl fun hpopped => hpopped) rfl rfl
  | spawn hget =>
      refine hattentive.congr (fun task hmem hrests => ?_) (fun hpending => hpending)
        (unnotified_congr hget rfl rfl fun hpopped => hpopped) rfl rfl
      rcases List.mem_append.mp hmem with hmem | hmem
      · exact ⟨task, hmem, hrests⟩
      · rw [List.mem_singleton.mp hmem] at hrests
        cases hrests
  | store hget =>
      exact hattentive.congr hsame (fun hpending => hpending)
        (unnotified_congr hget rfl rfl fun hpopped => hpopped) rfl rfl
  | lockTake hget hfree =>
      refine hattentive.congr hsame (fun hpending => hpending)
        (unnotified_congr hget rfl rfl fun hpopped => ?_) rfl rfl
      rw [hfree] at hpopped
      cases hpopped
  | notify hget =>
      intro task hmem hrests
      exact .inl (LawfulNotify.pending_notifyOne up.wake)
  | lockRefresh hget hphase hfree => exact attentive_of_busy hone hget rfl rfl
  | lockPut hget hphase hfree hdialed => exact attentive_of_busy hone hget rfl rfl
  | go hget hphase hgoes =>
      refine attentive_of_busy hone hget rfl ?_
      cases hgoes with
      | rest =>
          dsimp only
          split <;> rfl
      | _ => rfl
  | look hget hphase hlooks => exact hattentive.look hone hget hlooks
  | connect hget hphase => exact attentive_of_busy hone hget rfl rfl
  | onward hholder hcritical hmoves =>
      exact attentive_onward hone hlocked hholder hcritical hmoves
  | last hholder hcritical hmoves =>
      have hprogress := hlawful.inOrder.progress _ hcritical
      exact attentive_of_ends hone hlawful.inOrder hprogress
        (hlocked.ends hholder hcritical hmoves)
  | drop =>
      exact hattentive.congr hsame (fun hpending => hpending) (fun hunnotified => hunnotified)
        rfl rfl

/-- What every reachable pool keeps. -/
structure Orderly (config : PoolConfig) (up : UpstreamPool ν) : Prop where
  lawful : up.pool.Lawful config
  locked : up.Locked
  started : up.Started
  attentive : up.Attentive

theorem Orderly.step {config : PoolConfig} [LawfulNotify ν] (horderly : up.Orderly config)
    (hsteps : up.Steps event next) : next.Orderly config where
  lawful := hsteps.lawful horderly.lawful
  locked := horderly.locked.step hsteps
  started := horderly.started.step horderly.locked hsteps
  attentive :=
    horderly.attentive.step horderly.started.one_task horderly.locked horderly.lawful hsteps

theorem orderly_new (addr : Text) (config : PoolConfig) :
    Orderly config (new addr config : UpstreamPool ν) where
  lawful := Pool.lawful_new addr config
  locked := .free rfl rfl
  started := ⟨rfl, rfl⟩
  attentive := fun task hmem _ => by cases hmem

/-- At most one prewarm task runs; and whenever it waits for a full pool with no
wake-up pending, and no take is between its pop and its wake-up, the pool is full. -/
theorem prewarm_attentive [LawfulNotify ν] (addr : Text) (config : PoolConfig)
    {events : List PrewarmEvent} {up : UpstreamPool ν}
    (hrun : run step (new addr config) events = some up) :
    up.tasks.length ≤ 1 ∧
      ∀ task ∈ up.tasks, ∀ deadline, task.phase = .waiting deadline →
        Notify.pending up.wake = false → up.unnotified = false →
        up.pool.idle.length = config.minIdle := by
  have horderly : up.Orderly config :=
    run_invariant (Orderly config) (fun _ _ _ hinv hstep => hinv.step (step_cases hstep))
      (orderly_new addr config) hrun
  refine ⟨horderly.started.one_task, fun task hmem deadline hphase hpending hunnotified => ?_⟩
  have hrests : task.phase.rests = true := by rw [hphase]; rfl
  rcases horderly.attentive task hmem hrests with hwoken | htaken | hfull
  · rw [hwoken] at hpending
    cases hpending
  · rw [htaken] at hunnotified
    cases hunnotified
  · rw [hfull, horderly.lawful.config_eq]

/-- The first take finds nothing and starts the task, which dials, parks, and looks
again because of the take before it waits. -/
def firstTake : List PrewarmEvent :=
  [.call true, .take 0, .take 0, .take 0, .take 0, .take 0, .advance, .task 0, .advance, .take 0,
    .advance, .task 0, .connect 0, .task 0, .advance, .advance, .task 0, .advance, .advance,
    .advance, .advance, .advance, .task 0, .task 0, .advance, .advance, .advance, .advance,
    .advance, .task 0]

def afterFirstTake : UpstreamPool NotifyCell where
  pool :=
    { addr := ['p'], config := ⟨1, 9⟩, streams := [{ addr := ['p'] }], idle := [⟨0, 0⟩],
      outcomes := [.took [] [] [] none, .refreshed [] [] [] [] 0 (.short 0), .put (some ⟨0, 0⟩),
        .refreshed [⟨0, 0⟩] [⟨0, 0⟩] [(⟨0, 0⟩, 0)] [(⟨0, 0⟩, .silent)] 0 (.full 9),
        .refreshed [⟨0, 0⟩] [⟨0, 0⟩] [(⟨0, 0⟩, 0)] [(⟨0, 0⟩, .silent)] 0 (.full 9)] }
  wake := { waiting := [0] }
  prewarm := .set 0
  tasks := [{ addr := ['p'], phase := .waiting 9 }]
  takes := [.returned none]
  signs := [.dial, .full, .full]

theorem prewarm_attentive_firstTake :
    run step (new ['p'] ⟨1, 9⟩) firstTake = some afterFirstTake ∧
      afterFirstTake.pool.idle.length = 1 := by
  have hrun : run step (new ['p'] ⟨1, 9⟩) firstTake = some afterFirstTake := rfl
  obtain ⟨-, hfull⟩ := prewarm_attentive _ _ hrun
  exact ⟨hrun, hfull _ (List.mem_singleton_self _) 9 rfl rfl rfl⟩

end UpstreamPool

end Zicade.Upstream
