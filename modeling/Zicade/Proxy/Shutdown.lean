import Zicade.Proxy.Server

/-! # Graceful shutdown

The drain waits for the tasks in the join set, and aborts them once it has
waited long enough. A task that was spawned outside the set is neither waited
for nor aborted, so what matters is which of them outlive their connection.
-/

namespace Zicade.Proxy

open Zicade.Foundation Zicade.Schema

/-- The connection whose task an event ends. -/
def ServerEvent.ends : ServerEvent → Option Nat
  | .conn i .upgrade => some i
  | .conn i .close => some i
  | .abort i => some i
  | _ => none

theorem ServerEvent.ends_of_touches {event : ServerEvent} {i : Nat}
    (htouches : event.touches = some i) (hends : event.ends ≠ none) : event.ends = some i := by
  cases event with
  | conn j own =>
      obtain rfl := Option.some.inj htouches
      cases own <;> first | rfl | exact absurd rfl hends
  | abort j => exact htouches
  | accept mode => cases htouches
  | tick elapsed => cases htouches
  | shutdown => cases htouches
  | timeout => cases htouches
  | finish => cases htouches

/-- The shutdown signal finds no detached task whose connection is gone, and no
connection that ends after it leaves one. -/
def Attended (server : ProxyServer) (event : ServerEvent) : Prop :=
  (event = .shutdown → ∀ conn ∈ server.conns, conn.leftBehind = false) ∧
    (server.phase.isDown = true →
      ∀ conn ∈ event.ends.bind fun i => server.conns[i]?, conn.detached = false)

instance (server : ProxyServer) (event : ServerEvent) : Decidable (Attended server event) := by
  unfold Attended
  infer_instance

namespace Conn

theorem detached_eq_false {conn : Conn} :
    conn.detached = false ↔ conn.tunnel = none ∧ conn.uploads = 0 := by
  simp [detached]

/-- A task ends by an upgrade, by closing or by an abort; a step that is none of
these leaves a connection behind only if it was left behind before. -/
theorem moves_leftBehind {now : Nat} {event : ServerEvent} {old new : Conn}
    (hmoves : old.Moves now event new) (hold : old.leftBehind = false)
    (hends : event.ends ≠ none → old.detached = false) : new.leftBehind = false := by
  rcases hmoves with ⟨i, own, rfl, hown⟩ | ⟨⟨i, rfl⟩, habort⟩
  · cases step_cases hown with
    | poll hspawned => rfl
    | work _ task work uploads htask => rfl
    | spawn _ task dialed htask => rfl
    | upgrade dialed htask htunnel =>
        have hnone := (detached_eq_false.mp (hends (Option.some_ne_none _))).1
        simp [hnone] at htunnel
    | close work htask => exact hends (Option.some_ne_none _)
    | tunnel _ tunnel hheld =>
        -- a tunnel's task that goes on was there before
        simp only [leftBehind, Bool.and_eq_false_iff] at hold ⊢
        refine hold.imp id fun hdetached => ?_
        obtain ⟨hnone, huploads⟩ := detached_eq_false.mp hdetached
        refine detached_eq_false.mpr ⟨?_, huploads⟩
        cases tunnel with
        | none => rfl
        | some task => simp [tunnelHolds, hnone] at hheld
    | letGo uploads hfewer =>
        simp only [leftBehind, Bool.and_eq_false_iff] at hold ⊢
        refine hold.imp id fun hdetached => ?_
        obtain ⟨-, huploads⟩ := detached_eq_false.mp hdetached
        omega
    | join hover => exact hold
  · obtain ⟨-, rfl⟩ := abort_cases habort
    exact hends (Option.some_ne_none _)

/-- A task that is over stays over, and an abort has the time it happened. -/
theorem moves_task {now : Nat} {event : ServerEvent} {old new : Conn}
    (hmoves : old.Moves now event new) :
    (old.task.isOver = true → new.task = old.task) ∧
      ∀ time, new.task = .aborted time →
        old.task = .aborted time ∨ ((∃ i, event = .abort i) ∧ time = now) := by
  rcases hmoves with ⟨i, own, rfl, hown⟩ | ⟨habortEvent, habort⟩
  · cases step_cases hown with
    | poll hspawned =>
        exact ⟨by simp [hspawned, ConnectionTask.isOver], fun _ haborted => by cases haborted⟩
    | work _ task work uploads htask =>
        exact ⟨by simp [htask, ConnectionTask.isOver], fun _ haborted => by cases haborted⟩
    | spawn _ task dialed htask =>
        exact ⟨by simp [htask, ConnectionTask.isOver], fun _ haborted => by cases haborted⟩
    | upgrade dialed htask htunnel =>
        exact ⟨by simp [htask, ConnectionTask.isOver], fun _ haborted => by cases haborted⟩
    | close work htask =>
        exact ⟨by simp [htask, ConnectionTask.isOver], fun _ haborted => by cases haborted⟩
    | tunnel _ tunnel hheld => exact ⟨fun _ => rfl, fun _ htime => .inl htime⟩
    | letGo uploads hfewer => exact ⟨fun _ => rfl, fun _ htime => .inl htime⟩
    | join hover => exact ⟨fun _ => rfl, fun _ htime => .inl htime⟩
  · obtain ⟨hrunning, rfl⟩ := abort_cases habort
    refine ⟨fun hover => by simp [hover] at hrunning, fun time htime => ?_⟩
    exact .inr ⟨habortEvent, (ConnectionTask.aborted.inj htime).symm⟩

/-- Once its task is over and nothing detached is left, a connection relays
nothing and has no entry open. -/
theorem quiet_of_over {conn : Conn} (hover : conn.task.isOver = true)
    (hbehind : conn.leftBehind = false) : conn.relaying = false ∧ conn.entryOpen = false := by
  have hdetached : conn.detached = false := by simpa [leftBehind, hover] using hbehind
  obtain ⟨hnone, -⟩ := detached_eq_false.mp hdetached
  have hclosed : conn.tunnelOpen = false := by simp [tunnelOpen, hnone]
  cases htask : conn.task with
  | spawned => simp [htask, ConnectionTask.isOver] at hover
  | serving work => simp [htask, ConnectionTask.isOver] at hover
  | finished => simp [relaying, entryOpen, htask, hclosed, hdetached]
  | aborted time => simp [relaying, entryOpen, htask, hclosed, hdetached]

end Conn

/-- When the drain began. -/
def Phase.since : Phase → Option Nat
  | .accepting => none
  | .draining since => some since
  | .aborting since => some since
  | .returned since => some since

namespace ProxyServer

/-- What holds from the shutdown signal on: no connection is left behind, tasks
are aborted only after the timeout, and `serve` returns once every task is over. -/
structure Drained (shutdownTimeout : Nat) (server : ProxyServer) : Prop where
  timeout : server.shutdownTimeout = shutdownTimeout
  wellFormed : ∀ conn ∈ server.conns, conn.WellFormed
  attended : server.phase.isDown = true → ∀ conn ∈ server.conns, conn.leftBehind = false
  late : ∀ since, server.phase = .aborting since → since + shutdownTimeout ≤ server.now
  aborted : ∀ conn ∈ server.conns, ∀ time, conn.task = .aborted time →
    ∃ since, server.phase.since = some since ∧ since + shutdownTimeout ≤ time
  returned : ∀ since, server.phase = .returned since →
    ∀ conn ∈ server.conns, conn.task.isOver = true

theorem drained_new (shutdownTimeout : Nat) :
    ({ shutdownTimeout } : ProxyServer).Drained shutdownTimeout :=
  ⟨rfl, nofun, nofun, nofun, nofun, nofun⟩

theorem drained_accept {shutdownTimeout : Nat} {server : ProxyServer} (mode : RoutingMode)
    (hdrained : server.Drained shutdownTimeout) (haccepting : server.phase = .accepting) :
    ({ server with conns := server.conns ++ [{ mode }] } : ProxyServer).Drained
      shutdownTimeout := by
  have hdown : server.phase.isDown = false := by rw [haccepting]; rfl
  refine ⟨hdrained.timeout, ?_, by simp [hdown], by simp [haccepting], ?_, by simp [haccepting]⟩
  · intro conn hmem
    rcases List.mem_append.mp hmem with hmem | hmem
    · exact hdrained.wellFormed conn hmem
    · obtain rfl := List.mem_singleton.mp hmem
      exact Conn.wellFormed_new mode
  · intro conn hmem time htime
    rcases List.mem_append.mp hmem with hmem | hmem
    · exact hdrained.aborted conn hmem time htime
    · obtain rfl := List.mem_singleton.mp hmem
      cases htime

theorem drained_replace {shutdownTimeout : Nat} {server : ProxyServer} {event : ServerEvent}
    {i : Nat} {old new : Conn} (hdrained : server.Drained shutdownTimeout)
    (hattended : Attended server event)
    (habort : event = .abort i → ∃ since, server.phase = .aborting since)
    (htouches : event.touches = some i) (hget : server.conns[i]? = some old)
    (hmoves : old.Moves server.now event new) :
    (server.replace i old new).Drained shutdownTimeout := by
  have hold := List.mem_of_getElem? hget
  obtain ⟨hstays, htime⟩ := Conn.moves_task hmoves
  refine ⟨hdrained.timeout,
    forall_mem_set hdrained.wellFormed
      (Conn.moves_wellFormed (hdrained.wellFormed old hold) hmoves),
    ?_, hdrained.late, ?_, ?_⟩
  · intro hdown
    refine forall_mem_set (hdrained.attended hdown)
      (Conn.moves_leftBehind hmoves (hdrained.attended hdown old hold) fun hends => ?_)
    refine hattended.2 hdown old ?_
    rw [ServerEvent.ends_of_touches htouches hends]
    exact hget
  · refine forall_mem_set hdrained.aborted fun time hnew => ?_
    rcases htime time hnew with hsame | ⟨⟨j, rfl⟩, rfl⟩
    · exact hdrained.aborted old hold time hsame
    · obtain rfl := Option.some.inj htouches
      obtain ⟨since, haborting⟩ := habort rfl
      exact ⟨since, by simp [replace, haborting, Phase.since], hdrained.late since haborting⟩
  · intro since hreturned
    refine forall_mem_set (hdrained.returned since hreturned) ?_
    rw [hstays (hdrained.returned since hreturned old hold)]
    exact hdrained.returned since hreturned old hold

theorem drained_phase {shutdownTimeout : Nat} {server : ProxyServer} {event : ServerEvent}
    {phase : Phase} {now : Nat} (hdrained : server.Drained shutdownTimeout)
    (hattended : Attended server event) (hmoves : Phase.Moves server event phase)
    (hnow : server.now ≤ now) :
    ({ server with phase, now } : ProxyServer).Drained shutdownTimeout := by
  obtain ⟨htimeout, hwell, hbehind, hlate, haborted, hreturned⟩ := hdrained
  cases hmoves with
  | tick elapsed =>
      refine ⟨htimeout, hwell, hbehind, fun since haborting => ?_, haborted, hreturned⟩
      have := hlate since haborting
      dsimp only
      omega
  | shutdown haccepting =>
      refine ⟨htimeout, hwell, fun _ => hattended.1 rfl, nofun, fun conn hmem time htime => ?_,
        nofun⟩
      obtain ⟨since, hsince, -⟩ := haborted conn hmem time htime
      rw [haccepting] at hsince
      cases hsince
  | timeout since hdraining hdue =>
      have hdown : server.phase.isDown = true := by rw [hdraining]; rfl
      refine ⟨htimeout, hwell, fun _ => hbehind hdown, fun began hbegan => ?_, ?_, nofun⟩
      · obtain rfl := Phase.aborting.inj hbegan
        dsimp only
        omega
      · rwa [hdraining] at haborted
  | finish since hdown hjoined =>
      have hsince : server.phase.since = some since := by rcases hdown with h | h <;> rw [h] <;> rfl
      have hisDown : server.phase.isDown = true := by rcases hdown with h | h <;> rw [h] <;> rfl
      refine ⟨htimeout, hwell, fun _ => hbehind hisDown, nofun, ?_, fun _ _ conn hmem => ?_⟩
      · rwa [hsince] at haborted
      · exact (hwell conn hmem).joined (hjoined conn hmem)

theorem drained_step {shutdownTimeout : Nat} {server next : ProxyServer} {event : ServerEvent}
    (hdrained : server.Drained shutdownTimeout) (hattended : Attended server event)
    (hstep : server.step event = some next) : next.Drained shutdownTimeout := by
  rcases step_cases hstep with ⟨mode, -, haccepting, rfl⟩ |
    ⟨i, old, new, habort, htouches, hget, hmoves, rfl⟩ | ⟨phase, now, hmoves, hnow, rfl⟩
  · exact drained_accept mode hdrained haccepting
  · exact drained_replace hdrained hattended habort htouches hget hmoves
  · exact drained_phase hdrained hattended hmoves hnow

/-- In a run that leaves no detached task behind at the shutdown or after it,
nothing relays and no entry is open once `serve` has returned: every connection
finished, or was aborted after the timeout. -/
theorem serve_accounts (shutdownTimeout : Nat) (events : List ServerEvent) (final : ProxyServer)
    (since : Nat) (hmeets : StepsMeet step Attended { shutdownTimeout } events)
    (hrun : run step { shutdownTimeout } events = some final)
    (hreturned : final.phase = .returned since) :
    ∀ conn ∈ final.conns, conn.relaying = false ∧ conn.entryOpen = false ∧
      (conn.task = .finished ∨
        ∃ time, conn.task = .aborted time ∧ since + shutdownTimeout ≤ time) := by
  have hdrained := run_invariant_of_stepsMeet (Drained shutdownTimeout)
    (fun _ _ _ hinv hattended hstep => drained_step hinv hattended hstep)
    (drained_new shutdownTimeout) hmeets hrun
  intro conn hmem
  have hover := hdrained.returned since hreturned conn hmem
  have hbehind := hdrained.attended (by rw [hreturned]; rfl) conn hmem
  obtain ⟨hquiet, hclosed⟩ := Conn.quiet_of_over hover hbehind
  refine ⟨hquiet, hclosed, ?_⟩
  cases htask : conn.task with
  | spawned => simp [htask, ConnectionTask.isOver] at hover
  | serving work => simp [htask, ConnectionTask.isOver] at hover
  | finished => exact .inl rfl
  | aborted time =>
      obtain ⟨began, hbegan, hdue⟩ := hdrained.aborted conn hmem time htask
      rw [hreturned] at hbegan
      obtain rfl := Option.some.inj hbegan
      exact .inr ⟨time, rfl, hdue⟩

/-- A request is answered and a tunnel ends before the shutdown, and another request is aborted
after the timeout. -/
def drainedRun : List ServerEvent :=
  requestRun ++
    [.accept .direct, .conn 1 .poll, .conn 1 .connect, .conn 1 .upgrade, .conn 1 (.reach true),
      .accept .upstream, .conn 2 .poll, .conn 2 .request, .conn 1 .tunnelEnd, .shutdown,
      .conn 0 .join, .conn 1 .join, .tick 10, .timeout, .abort 2, .conn 2 .join, .finish]

theorem serve_accounts_drainedRun :
    ∃ final, run step { shutdownTimeout := 10 } drainedRun = some final ∧
      final.phase = .returned 0 ∧ ∀ conn ∈ final.conns,
        conn.relaying = false ∧ conn.entryOpen = false ∧
          (conn.task = .finished ∨ ∃ time, conn.task = .aborted time ∧ 0 + 10 ≤ time) :=
  ⟨_, rfl, rfl, serve_accounts 10 drainedRun _ 0 (by decide) rfl rfl⟩

/-- `serve` returns at once, and the tunnel goes on relaying with its entry open. -/
theorem tunnel_outlives_serve :
    ∃ final, run step { shutdownTimeout := 10 }
        (tunnelRun ++ [.shutdown, .conn 0 .join, .finish]) = some final ∧
      final.phase = .returned 0 ∧ final.now = 0 ∧
      ∃ conn ∈ final.conns, conn.relaying = true ∧ conn.entryOpen = true :=
  ⟨_, rfl, rfl, rfl, _, List.mem_singleton_self _, rfl, rfl⟩

end ProxyServer

end Zicade.Proxy
