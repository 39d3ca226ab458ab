import Zicade.Upstream.PrewarmLaws

/-! # What a pool dials

A pool dials one address, its own: the prewarm task was started with it, every socket
in the pool was dialed to it, and so was every socket that a take got.
-/

namespace Zicade.Upstream

open Zicade.Foundation

/-- What a take has in hand. -/
def Take.got : Take → Option Checked
  | .popped got | .returned got => got
  | _ => none

namespace UpstreamPool

variable {ν : Type*} {up next : UpstreamPool ν} {addr : Text}

/-- Whatever the pool dials or has dialed is the address, and the socket that a take
got was dialed to it. -/
structure SocketsTo (up : UpstreamPool ν) (addr : Text) : Prop where
  addr_eq : up.pool.addr = addr
  tasks : ∀ task ∈ up.tasks, task.addr = addr
  streams : ∀ stream ∈ up.pool.streams, stream.addr = addr
  got : ∀ take ∈ up.takes, ∀ check, take.got = some check →
    ∃ stream, up.pool.streams[check.entry.stream]? = some stream ∧ stream.addr = addr

structure DialsOnly (addr : Text) (config : PoolConfig) (up : UpstreamPool ν) : Prop where
  lawful : up.pool.Lawful config
  locked : up.Locked
  addr_eq : up.pool.addr = addr
  tasks : ∀ task ∈ up.tasks, task.addr = addr
  streams : ∀ stream ∈ up.pool.streams, stream.addr = addr
  taken : ∀ take ∈ up.takes, ∀ check, take.got = some check →
    check.entry.stream ∈ up.pool.handed

theorem DialsOnly.socketsTo {config : PoolConfig} (hdials : up.DialsOnly addr config) :
    up.SocketsTo addr where
  addr_eq := hdials.addr_eq
  tasks := hdials.tasks
  streams := hdials.streams
  got := by
    intro take htake check hgot
    have hhanded := hdials.taken take htake check hgot
    have hplace : check.entry.stream ∈ up.pool.places :=
      List.mem_append_right _ (List.mem_append_right _ (List.mem_append_right _ hhanded))
    have hlt := hdials.lawful.placed.known _ hplace
    exact ⟨_, List.getElem?_eq_getElem hlt, hdials.streams _ (List.getElem_mem hlt)⟩

variable [Notify ν] {event : PrewarmEvent}

theorem Steps.addr_eq (hsteps : up.Steps event next) : next.pool.addr = up.pool.addr := by
  cases hsteps with
  | act hpool =>
      cases Pool.step_cases hpool
      rfl
  | onward hholder hcritical hmoves => exact hmoves.same.2.2.2.2.2
  | last hholder hcritical hmoves =>
      rw [(deliver_same _ _).1]
      exact hmoves.same.2.2.2.2.2
  | _ => rfl

/-- A task is started with the address of the pool, and keeps it. -/
theorem Steps.tasks_addr (hsteps : up.Steps event next) (hlocked : up.Locked)
    (haddr : up.pool.addr = addr) (htasks : ∀ task ∈ up.tasks, task.addr = addr) :
    ∀ task ∈ next.tasks, task.addr = addr := by
  have hset {j : Nat} {task after : Task} (hget : up.tasks[j]? = some task)
      (hsame : after.addr = task.addr) : ∀ task ∈ up.tasks.set j after, task.addr = addr :=
    forall_mem_set htasks (hsame.trans (htasks task (List.mem_of_getElem? hget)))
  cases hsteps with
  | spawn hget =>
      intro task hmem
      rcases List.mem_append.mp hmem with hold | hnew
      · exact htasks task hold
      · obtain rfl := List.mem_singleton.mp hnew
        exact haddr
  | lockRefresh hget hphase hfree => exact hset hget rfl
  | lockPut hget hphase hfree hdialed => exact hset hget rfl
  | go hget hphase hgoes => cases hgoes <;> exact hset hget rfl
  | look hget hphase hlooks => exact hset hget rfl
  | connect hget hphase => exact hset hget rfl
  | last hholder hcritical hmoves =>
      have hends := hlocked.ends hholder hcritical hmoves
      generalize deliver _ _ _ = next at hends ⊢
      cases hends with
      | took hget hmoves => exact htasks
      | full hget hphase hmoves => exact hset hget rfl
      | short hget hphase hmoves => exact hset hget rfl
      | put hget hphase hmoves => exact hset hget rfl
  | _ => exact htasks

/-- A socket is dialed to the address of the task that dials it. -/
theorem Steps.streams_addr (hsteps : up.Steps event next)
    (htasks : ∀ task ∈ up.tasks, task.addr = addr)
    (hstreams : ∀ stream ∈ up.pool.streams, stream.addr = addr) :
    ∀ stream ∈ next.pool.streams, stream.addr = addr := by
  cases hsteps with
  | act hpool =>
      cases Pool.step_cases hpool with
      | act hget hpeer =>
          have haddr := hstreams _ (List.mem_of_getElem? hget)
          exact forall_mem_set hstreams haddr
  | connect hget hphase =>
      intro stream hmem
      rcases List.mem_append.mp hmem with hold | hnew
      · exact hstreams stream hold
      · obtain rfl := List.mem_singleton.mp hnew
        exact htasks _ (List.mem_of_getElem? hget)
  | onward hholder hcritical hmoves =>
      rw [Pool.record, hmoves.same.2.2.2.1]
      exact hstreams
  | last hholder hcritical hmoves =>
      rw [(deliver_same _ _).1]
      rw [Pool.record, hmoves.same.2.2.2.1]
      exact hstreams
  | _ => exact hstreams

/-- What a take has in hand was handed out. -/
theorem Steps.taken (hsteps : up.Steps event next) (hlocked : up.Locked)
    (htaken : ∀ take ∈ up.takes, ∀ check, take.got = some check →
      check.entry.stream ∈ up.pool.handed) :
    ∀ take ∈ next.takes, ∀ check, take.got = some check →
      check.entry.stream ∈ next.pool.handed := by
  have hhanded : up.pool.handed ⊆ next.pool.handed := by
    rcases hsteps.pool with hsame | ⟨inside, hinside⟩
    · rw [hsame]
      exact fun _ hmem => hmem
    · exact hinside.handed
  have hkept : ∀ take ∈ up.takes, ∀ check, take.got = some check →
      check.entry.stream ∈ next.pool.handed :=
    fun take hmem check hgot => hhanded (htaken take hmem check hgot)
  have hset {i : Nat} {after : Take} (hnothing : after.got = none) :
      ∀ take ∈ up.takes.set i after, ∀ check, take.got = some check →
        check.entry.stream ∈ next.pool.handed :=
    forall_mem_set hkept (by rw [hnothing]; nofun)
  cases hsteps with
  | call =>
      intro take hmem check hgot
      rcases List.mem_append.mp hmem with hold | hnew
      · exact hkept take hold check hgot
      · obtain rfl := List.mem_singleton.mp hnew
        cases hgot
  | pass hget hpasses => cases hpasses <;> exact hset rfl
  | first hget hempty => exact hset rfl
  | spawn hget => exact hset rfl
  | store hget => exact hset rfl
  | lockTake hget hfree => exact hset rfl
  | notify hget =>
      have hgot := hkept _ (List.mem_of_getElem? hget)
      exact forall_mem_set hkept hgot
  | last hholder hcritical hmoves =>
      have hends := hlocked.ends hholder hcritical hmoves
      generalize deliver _ _ _ = next at hends hkept ⊢
      cases hends with
      | @took i before after discarded got hget hmoves =>
          refine forall_mem_set hkept fun check hgot => ?_
          obtain rfl : got = some check := hgot
          rw [Pool.record, hmoves.handed]
          exact List.mem_append_right _ (List.mem_singleton_self _)
      | full hget hphase hmoves => exact hkept
      | short hget hphase hmoves => exact hkept
      | put hget hphase hmoves => exact hkept
  | _ => exact hkept

theorem DialsOnly.step {config : PoolConfig} (hdials : up.DialsOnly addr config)
    (hsteps : up.Steps event next) : next.DialsOnly addr config where
  lawful := hsteps.lawful hdials.lawful
  locked := hdials.locked.step hsteps
  addr_eq := hsteps.addr_eq.trans hdials.addr_eq
  tasks := hsteps.tasks_addr hdials.locked hdials.addr_eq hdials.tasks
  streams := hsteps.streams_addr hdials.tasks hdials.streams
  taken := hsteps.taken hdials.locked hdials.taken

theorem dialsOnly_new (addr : Text) (config : PoolConfig) :
    DialsOnly addr config (new addr config : UpstreamPool ν) where
  lawful := Pool.lawful_new addr config
  locked := .free rfl rfl
  addr_eq := rfl
  tasks := nofun
  streams := nofun
  taken := nofun

end UpstreamPool

end Zicade.Upstream
