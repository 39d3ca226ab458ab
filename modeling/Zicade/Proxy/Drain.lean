import Mathlib.Data.Prod.Lex
import Zicade.Proxy.Shutdown

/-! # What the drain works off

After the shutdown signal `serve` only waits for tasks, aborts them once it has
waited long enough, and joins them. Every such step leaves it less to do, whatever
the connections do meanwhile, so the drain cannot go on for ever.
-/

namespace Zicade.Proxy

open Zicade.Foundation

/-- A step of the drain itself, and not of a connection's tasks or the clock; before the
signal, joining is how the accept loop reaps finished connections. -/
def ProxyServer.drains (server : ProxyServer) : ServerEvent → Bool
  | .shutdown => true
  | .timeout => true
  | .abort _ => true
  | .finish => true
  | .conn _ .join => server.phase.isDown
  | _ => false

/-- How far a phase is from the end of `serve`. -/
def Phase.stage : Phase → ℕ
  | .accepting => 3
  | .draining _ => 2
  | .aborting _ => 1
  | .returned _ => 0

/-- What a connection still owes the drain: to be over and to be joined. -/
def Conn.owes (conn : Conn) : ℕ := (!conn.task.isOver).toNat + (!conn.joined).toNat

namespace Conn

/-- A connection that moves owes no more, and less once it is aborted or joined. -/
theorem moves_owes {now : ℕ} {event : ServerEvent} {old new : Conn}
    (hmoves : old.Moves now event new) :
    new.owes ≤ old.owes ∧
      ((∃ i, event = .abort i ∨ event = .conn i .join) → new.owes < old.owes) := by
  rcases hmoves with ⟨i, own, rfl, hown⟩ | ⟨⟨i, rfl⟩, habort⟩
  · refine ⟨?_, ?_⟩
    · cases step_cases hown with
      | poll hspawned => simp [owes, serve, hspawned, ConnectionTask.isOver]
      | work _ task work uploads htask => simp [owes, serve, htask, ConnectionTask.isOver]
      | spawn _ task dialed htask => simp [owes, spawnTunnel, htask, ConnectionTask.isOver]
      | upgrade dialed htask htunnel => simp [owes, ConnectionTask.isOver]
      | close work htask => simp [owes, ConnectionTask.isOver]
      | tunnel _ tunnel hheld => exact le_rfl
      | letGo uploads hfewer => exact le_rfl
      | join hover => simp [owes]
    · rintro ⟨j, hevent | hevent⟩
      · cases hevent
      cases hevent
      rw [step, Option.ite_none_right_eq_some, Option.some.injEq] at hown
      obtain ⟨⟨hover, hjoined⟩, rfl⟩ := hown
      have hfresh : old.joined = false := by simpa using hjoined
      simp [owes, hover, hfresh]
  · obtain ⟨hrunning, rfl⟩ := abort_cases habort
    have hless : ({ old with task := .aborted now } : Conn).owes < old.owes := by
      simp only [owes, hrunning]
      simp [ConnectionTask.isOver]
    exact ⟨hless.le, fun _ => hless⟩

/-- The mode is the one of the accept. -/
theorem moves_mode {now : ℕ} {event : ServerEvent} {old new : Conn}
    (hmoves : old.Moves now event new) : new.mode = old.mode := by
  rcases hmoves with ⟨_, own, _, hown⟩ | ⟨_, habort⟩
  · cases step_cases hown <;> rfl
  · obtain ⟨-, rfl⟩ := abort_cases habort
    rfl

end Conn

namespace ProxyServer

/-- What is left for the drain to do; before it, there is nothing yet. -/
def owed (server : ProxyServer) : ℕ :=
  if server.phase.isDown then (server.conns.map Conn.owes).sum else 0

/-- When the drain stops waiting. -/
def deadline (server : ProxyServer) : ℕ :=
  match server.phase with
  | .draining since => since + server.shutdownTimeout
  | _ => 0

/-- How far `serve` is from its end. -/
def remaining (server : ProxyServer) : ℕ ×ₗ ℕ := toLex (server.phase.stage, server.owed)

/-- A step of the clock or a connection leaves `serve` where it is; one of its own
brings it closer to its end. -/
theorem step_remaining {server next : ProxyServer} {event : ServerEvent}
    (hstep : server.step event = some next) :
    next.remaining ≤ server.remaining ∧
      (server.drains event = true → next.remaining < server.remaining) ∧
      (server.drains event = false → next.phase = server.phase) := by
  rcases step_cases hstep with ⟨mode, rfl, haccepting, rfl⟩ |
    ⟨i, old, new, habort, htouches, hget, hmoves, rfl⟩ | ⟨phase, now, hmoves, -, rfl⟩
  · refine ⟨?_, fun hdrains => ?_, fun _ => rfl⟩
    · simp [remaining, owed, haccepting, Phase.isDown]
    · cases hdrains
  · obtain ⟨hle, hless⟩ := Conn.moves_owes hmoves
    have hsum := sum_map_set Conn.owes hget new
    refine ⟨?_, fun hdrains => ?_, fun _ => rfl⟩
    · rw [remaining, remaining, Prod.Lex.toLex_le_toLex]
      refine .inr ⟨rfl, ?_⟩
      cases hdown : server.phase.isDown with
      | false => simp [owed, replace, hdown]
      | true =>
          simp only [owed, replace, hdown, if_true]
          omega
    · have hjoins : (∃ i, event = .abort i ∨ event = .conn i .join) ∧
          server.phase.isDown = true := by
        cases event with
        | conn j own =>
            cases own <;> first | exact ⟨⟨j, .inr rfl⟩, hdrains⟩ | cases hdrains
        | abort j =>
            obtain rfl := Option.some.inj htouches
            obtain ⟨since, haborting⟩ := habort rfl
            exact ⟨⟨j, .inl rfl⟩, by rw [haborting]; rfl⟩
        | accept mode => cases htouches
        | tick elapsed => cases htouches
        | shutdown => cases htouches
        | timeout => cases htouches
        | finish => cases htouches
      have howes := hless hjoins.1
      rw [remaining, remaining, Prod.Lex.toLex_lt_toLex]
      refine .inr ⟨rfl, ?_⟩
      simp only [owed, replace, hjoins.2, if_true]
      omega
  · have hdown : ∀ stage, phase.stage < stage → server.phase.stage = stage →
        ({ server with phase, now } : ProxyServer).remaining < server.remaining := by
      intro stage hless hstage
      rw [remaining, remaining, Prod.Lex.toLex_lt_toLex]
      exact .inl (hstage ▸ hless)
    cases hmoves with
    | tick elapsed => exact ⟨le_rfl, fun hdrains => (by cases hdrains), fun _ => rfl⟩
    | shutdown haccepting =>
        have hless := hdown 3 (Nat.lt_succ_self 2) (by rw [haccepting]; rfl)
        exact ⟨hless.le, fun _ => hless, fun hother => (by cases hother)⟩
    | timeout since hdraining hlate =>
        have hless := hdown 2 (Nat.lt_succ_self 1) (by rw [hdraining]; rfl)
        exact ⟨hless.le, fun _ => hless, fun hother => (by cases hother)⟩
    | finish since hdraining hjoined =>
        obtain ⟨stage, hless, hstage⟩ : ∃ stage, 0 < stage ∧ server.phase.stage = stage := by
          rcases hdraining with hphase | hphase <;> rw [hphase] <;>
            exact ⟨_, Nat.succ_pos _, rfl⟩
        have hless := hdown stage hless hstage
        exact ⟨hless.le, fun _ => hless, fun hother => (by cases hother)⟩

/-- Only the clock's own step moves it. -/
theorem now_step {server next : ProxyServer} {event : ServerEvent}
    (hclock : ∀ elapsed, event ≠ .tick elapsed) (hstep : server.step event = some next) :
    next.now = server.now := by
  cases event with
  | accept mode =>
      rw [step, Option.ite_none_right_eq_some, Option.some.injEq] at hstep
      rw [← hstep.2]
  | conn i own =>
      rw [step] at hstep
      split at hstep
      next old hget =>
        obtain ⟨new, -, rfl⟩ := Option.map_eq_some_iff.mp hstep
        rfl
      next => cases hstep
  | tick elapsed => exact absurd rfl (hclock elapsed)
  | shutdown =>
      rw [step, Option.ite_none_right_eq_some, Option.some.injEq] at hstep
      rw [← hstep.2]
  | timeout =>
      rw [step] at hstep
      split at hstep
      next since hdraining =>
        rw [Option.ite_none_right_eq_some, Option.some.injEq] at hstep
        rw [← hstep.2]
      next => cases hstep
  | abort i =>
      rw [step] at hstep
      split at hstep
      next since old haborting hget =>
        obtain ⟨new, -, rfl⟩ := Option.map_eq_some_iff.mp hstep
        rfl
      next => cases hstep
  | finish =>
      rw [step, Option.ite_none_right_eq_some] at hstep
      obtain ⟨-, hstep⟩ := hstep
      split at hstep
      next =>
        obtain rfl := Option.some.inj hstep
        rfl
      next =>
        obtain rfl := Option.some.inj hstep
        rfl
      next => cases hstep

/-- Once it is late enough, a drain that has not returned has a step to take. -/
theorem exists_drains {server : ProxyServer} (hdown : server.phase.isDown = true)
    (hreturned : ∀ since, server.phase ≠ .returned since) (hlate : server.deadline ≤ server.now) :
    ∃ event, event ≠ .shutdown ∧ server.drains event = true ∧ (server.step event).isSome := by
  by_cases hjoined : ∀ conn ∈ server.conns, conn.joined = true
  · refine ⟨.finish, by simp, rfl, ?_⟩
    rw [step, if_pos (by simpa using hjoined)]
    cases hphase : server.phase with
    | accepting => simp [hphase, Phase.isDown] at hdown
    | draining since => rfl
    | aborting since => rfl
    | returned since => exact absurd hphase (hreturned since)
  · push Not at hjoined
    obtain ⟨conn, hmem, hwaits⟩ := hjoined
    obtain ⟨i, hget⟩ := List.mem_iff_getElem?.mp hmem
    cases hover : conn.task.isOver with
    | true =>
        refine ⟨.conn i .join, by simp, hdown, ?_⟩
        simp [step, hget, Conn.step, hover, hwaits]
    | false =>
        cases hphase : server.phase with
        | accepting => simp [hphase, Phase.isDown] at hdown
        | draining since =>
            refine ⟨.timeout, by simp, rfl, ?_⟩
            have hdue : since + server.shutdownTimeout ≤ server.now := by
              simpa [deadline, hphase] using hlate
            simp [step, hphase, hdue]
        | aborting since =>
            refine ⟨.abort i, by simp, rfl, ?_⟩
            simp [step, hphase, hget, Conn.abort, hover]
        | returned since => exact absurd hphase (hreturned since)

/-! ## What a drain leaves -/

/-- A task is aborted only once the drain has waited its time, and `serve` returns once
every task is over, wherever the detached ones are. -/
structure OnTime (server : ProxyServer) : Prop where
  wellFormed : ∀ conn ∈ server.conns, conn.WellFormed
  late : ∀ since, server.phase = .aborting since → since + server.shutdownTimeout ≤ server.now
  aborted : ∀ conn ∈ server.conns, ∀ time, conn.task = .aborted time →
    ∃ since, server.phase.since = some since ∧ since + server.shutdownTimeout ≤ time
  returned : ∀ since, server.phase = .returned since →
    ∀ conn ∈ server.conns, conn.task.isOver = true

theorem onTime_new (now shutdownTimeout : ℕ) :
    ({ now, shutdownTimeout } : ProxyServer).OnTime :=
  ⟨nofun, nofun, nofun, nofun⟩

theorem OnTime.step {server next : ProxyServer} {event : ServerEvent} (honTime : server.OnTime)
    (hstep : server.step event = some next) : next.OnTime := by
  obtain ⟨hwell, hlate, haborted, hreturned⟩ := honTime
  rcases step_cases hstep with ⟨mode, -, haccepting, rfl⟩ |
    ⟨i, old, new, habort, htouches, hget, hmoves, rfl⟩ | ⟨phase, now, hmoves, hnow, rfl⟩
  · refine ⟨List.forall_mem_append.mpr ⟨hwell, ?_⟩, by simp [haccepting],
      List.forall_mem_append.mpr ⟨haborted, ?_⟩, by simp [haccepting]⟩
    · exact List.forall_mem_singleton.mpr (Conn.wellFormed_new mode)
    · exact List.forall_mem_singleton.mpr fun time haborted => by cases haborted
  · have hold := List.mem_of_getElem? hget
    obtain ⟨hstays, htime⟩ := Conn.moves_task hmoves
    refine ⟨forall_mem_set hwell (Conn.moves_wellFormed (hwell old hold) hmoves), hlate,
      forall_mem_set haborted fun time hnew => ?_, fun since hphase => ?_⟩
    · rcases htime time hnew with hsame | ⟨⟨j, rfl⟩, rfl⟩
      · exact haborted old hold time hsame
      · obtain rfl := Option.some.inj htouches
        obtain ⟨since, haborting⟩ := habort rfl
        exact ⟨since, by simp [replace, haborting, Phase.since], hlate since haborting⟩
    · refine forall_mem_set (hreturned since hphase) ?_
      rw [hstays (hreturned since hphase old hold)]
      exact hreturned since hphase old hold
  · cases hmoves with
    | tick elapsed =>
        exact ⟨hwell, fun since hphase => (hlate since hphase).trans hnow, haborted, hreturned⟩
    | shutdown haccepting =>
        refine ⟨hwell, fun since hphase => (by cases hphase), fun conn hmem time htime => ?_,
          fun since hphase => (by cases hphase)⟩
        obtain ⟨since, hsince, -⟩ := haborted conn hmem time htime
        rw [haccepting] at hsince
        cases hsince
    | timeout since hdraining hdue =>
        rw [hdraining] at haborted
        refine ⟨hwell, fun began hbegan => ?_, haborted, fun since hphase => (by cases hphase)⟩
        obtain rfl := Phase.aborting.inj hbegan
        exact hdue.trans hnow
    | finish since hdown hjoined =>
        have hsince : server.phase.since = some since := by
          rcases hdown with hphase | hphase <;> rw [hphase] <;> rfl
        rw [hsince] at haborted
        exact ⟨hwell, fun since hphase => (by cases hphase), haborted,
          fun _ _ conn hmem => (hwell conn hmem).joined (hjoined conn hmem)⟩

end ProxyServer

end Zicade.Proxy
