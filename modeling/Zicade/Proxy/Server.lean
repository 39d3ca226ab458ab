import Mathlib.Algebra.Order.Group.Int
import Mathlib.Tactic.Ring
import Zicade.Config.Model
import Zicade.Foundation.Parties
import Zicade.Foundation.Runs

/-! # The server and its tasks

`serve` keeps the task of every accepted connection in a join set, and drains
that set after the shutdown signal. Two kinds of task are spawned outside it: a
tunnel, once its `CONNECT` is answered, and the client connection to the origin
of a plain request, which holds the request's body until it has sent it. Both
own a share of a tracked entry.
-/

namespace Zicade.Proxy

open Zicade.Foundation Zicade.Schema

/-- What a connection task does with its current request. -/
inductive Serving
  | idle
  /-- A plain request, until its response arrives. -/
  | forwarding (handedOver : Bool)
  /-- Its response body is streamed to the client. -/
  | responding
  /-- A `CONNECT` that waits for the PAC script. -/
  | resolving
  /-- A `CONNECT` that waits for the upstream. -/
  | dialing
  /-- A `CONNECT` that was answered 200. -/
  | upgrading
  deriving DecidableEq, Repr

/-- The task of an accepted connection; it takes its guard when it is first
polled. -/
inductive ConnectionTask
  | spawned
  | serving (work : Serving)
  | finished
  | aborted (time : Nat)
  deriving DecidableEq, Repr

/-- The detached task of a tunnel: waiting for the upgrade, connecting to the
origin in direct mode, splicing. -/
inductive TunnelTask
  | awaiting (dialed : Bool)
  | dialing
  | relaying
  deriving DecidableEq, Repr

/-- `uploads` counts the detached origin connections that still hold the body of
one of its requests; `mode` is the routing cloned when it was accepted. -/
structure Conn where
  mode : RoutingMode
  task : ConnectionTask := .spawned
  joined : Bool := false
  tunnel : Option TunnelTask := none
  uploads : Nat := 0
  deriving DecidableEq, Repr

/-- What the PAC router answers for a `CONNECT`. -/
inductive Resolved
  | direct
  | upstream
  | failed
  deriving DecidableEq, Repr

inductive ConnEvent
  | poll
  | request
  | handOver
  | letGo
  | respond (ok : Bool)
  | finishResponse
  | connect
  | resolved (choice : Resolved)
  | dialed (ok : Bool)
  | upgrade
  | upgradeFailed
  | reach (ok : Bool)
  | tunnelEnd
  | close
  | join
  deriving DecidableEq, Repr

namespace ConnectionTask

def isServing : ConnectionTask → Bool
  | .serving _ => true
  | _ => false

def isOver : ConnectionTask → Bool
  | .finished => true
  | .aborted _ => true
  | _ => false

end ConnectionTask

namespace Conn

/-- Spawn the tunnel's task and answer 200. -/
def spawnTunnel (conn : Conn) (dialed : Bool) : Conn :=
  { conn with task := .serving .upgrading, tunnel := some (.awaiting dialed) }

def serve (conn : Conn) (work : Serving) : Conn := { conn with task := .serving work }

/-- One step of a connection and its detached tasks. -/
def step (conn : Conn) : ConnEvent → Option Conn
  | .poll => if conn.task = .spawned then some (conn.serve .idle) else none
  | .request =>
      if conn.task = .serving .idle then some (conn.serve (.forwarding false)) else none
  | .handOver =>
      -- the upstream path collects the body before it connects
      if conn.task = .serving (.forwarding false) ∧ conn.mode ≠ .upstream then
        some { conn.serve (.forwarding true) with uploads := conn.uploads + 1 }
      else none
  | .letGo => if conn.uploads = 0 then none else some { conn with uploads := conn.uploads - 1 }
  | .respond ok =>
      match conn.task with
      | .serving (.forwarding _) => some (conn.serve (if ok then .responding else .idle))
      | _ => none
  | .finishResponse =>
      if conn.task = .serving .responding then some (conn.serve .idle) else none
  | .connect =>
      if conn.task = .serving .idle then
        match conn.mode with
        | .direct => some (conn.spawnTunnel false)
        | .upstream => some (conn.serve .dialing)
        | .pac => some (conn.serve .resolving)
      else none
  | .resolved choice =>
      if conn.task = .serving .resolving then
        match choice with
        | .direct => some (conn.spawnTunnel false)
        | .upstream => some (conn.serve .dialing)
        | .failed => some (conn.serve .idle)
      else none
  | .dialed ok =>
      if conn.task = .serving .dialing then
        some (if ok then conn.spawnTunnel true else conn.serve .idle)
      else none
  | .upgrade =>
      -- the connection future completes and hands its socket to the tunnel's task
      match conn.task, conn.tunnel with
      | .serving .upgrading, some (.awaiting dialed) =>
          some { conn with
            task := .finished, tunnel := some (if dialed then .relaying else .dialing) }
      | _, _ => none
  | .upgradeFailed =>
      match conn.tunnel with
      | some (.awaiting _) => if conn.task.isOver then some { conn with tunnel := none } else none
      | _ => none
  | .reach ok =>
      if conn.tunnel = some .dialing then
        some { conn with tunnel := if ok then some .relaying else none }
      else none
  | .tunnelEnd =>
      if conn.tunnel = some .relaying then some { conn with tunnel := none } else none
  | .close => if conn.task.isServing then some { conn with task := .finished } else none
  | .join =>
      if conn.task.isOver ∧ !conn.joined then some { conn with joined := true } else none

/-- An aborted task is dropped where it stands, with all it holds. -/
def abort (conn : Conn) (time : Nat) : Option Conn :=
  if conn.task.isOver then none else some { conn with task := .aborted time }

def isServing (conn : Conn) : Bool := conn.task.isServing

/-- A tunnel's task owns the client socket after the upgrade. -/
def tunnelHolds (conn : Conn) : Bool :=
  match conn.tunnel with
  | some .dialing => true
  | some .relaying => true
  | _ => false

/-- The client socket is still in use, by the connection's task or its tunnel's. -/
def inUse (conn : Conn) : Bool := conn.isServing || conn.tunnelHolds

def tunnelOpen (conn : Conn) : Bool := conn.tunnel = some .relaying

/-- A detached task still owns a share of an entry. -/
def detached (conn : Conn) : Bool := conn.tunnel.isSome || 0 < conn.uploads

/-- A request or a tunnel is still relaying. -/
def relaying (conn : Conn) : Bool :=
  match conn.task with
  | .serving (.forwarding _) => true
  | .serving .responding => true
  | _ => conn.tunnelOpen

/-- Some share of an entry is left, so the entry is open. -/
def entryOpen (conn : Conn) : Bool :=
  match conn.task with
  | .serving .idle => conn.detached
  | .serving _ => true
  | _ => conn.detached

/-- Its task is over and a detached one is not. -/
def leftBehind (conn : Conn) : Bool := conn.task.isOver && conn.detached

end Conn

/-- Where `serve` is; a drain knows when it began. -/
inductive Phase
  | accepting
  | draining (since : Nat)
  | aborting (since : Nat)
  | returned (since : Nat)
  deriving DecidableEq, Repr

/-- The shutdown signal has been seen. -/
def Phase.isDown : Phase → Bool
  | .accepting => false
  | _ => true

structure ProxyServer where
  phase : Phase := .accepting
  conns : List Conn := []
  /-- `ProxyMetrics::active`. -/
  active : Int := 0
  now : Nat := 0
  shutdownTimeout : Nat
  deriving DecidableEq, Repr

inductive ServerEvent
  | accept (mode : RoutingMode)
  | conn (i : Nat) (event : ConnEvent)
  | tick (elapsed : Nat)
  | shutdown
  | timeout
  | abort (i : Nat)
  | finish
  deriving DecidableEq, Repr

/-- The connection an event is about. -/
def ServerEvent.touches : ServerEvent → Option Nat
  | .conn i _ => some i
  | .abort i => some i
  | _ => none

namespace ProxyServer

/-- A connection moves on; its guard is taken as it starts to serve and dropped
as it stops. -/
def replace (server : ProxyServer) (i : Nat) (old new : Conn) : ProxyServer :=
  { server with
    conns := server.conns.set i new
    active := server.active + new.isServing.toNat - old.isServing.toNat }

def step (server : ProxyServer) : ServerEvent → Option ProxyServer
  | .accept mode =>
      if server.phase = .accepting then
        some { server with conns := server.conns ++ [{ mode }] }
      else none
  | .conn i event =>
      match server.conns[i]? with
      | some conn => (conn.step event).map (server.replace i conn)
      | none => none
  | .tick elapsed => some { server with now := server.now + elapsed }
  | .shutdown =>
      if server.phase = .accepting then some { server with phase := .draining server.now }
      else none
  | .timeout =>
      match server.phase with
      | .draining since =>
          if since + server.shutdownTimeout ≤ server.now then
            some { server with phase := .aborting since }
          else none
      | _ => none
  | .abort i =>
      match server.phase, server.conns[i]? with
      | .aborting _, some conn => (conn.abort server.now).map (server.replace i conn)
      | _, _ => none
  | .finish =>
      if server.conns.all (·.joined) then
        match server.phase with
        | .draining since => some { server with phase := .returned since }
        | .aborting since => some { server with phase := .returned since }
        | _ => none
      else none

/-! ## What a step can do -/

end ProxyServer

/-- A connection moves by a step of its own, or is aborted. -/
def Conn.Moves (now : Nat) (event : ServerEvent) (old new : Conn) : Prop :=
  (∃ i own, event = .conn i own ∧ old.step own = some new) ∨
    ((∃ i, event = .abort i) ∧ old.abort now = some new)

/-- `serve` moves on: it sees the shutdown signal, times out, or returns. -/
inductive Phase.Moves (server : ProxyServer) : ServerEvent → Phase → Prop
  | tick (elapsed : Nat) : Phase.Moves server (.tick elapsed) server.phase
  | shutdown (haccepting : server.phase = .accepting) :
      Phase.Moves server .shutdown (.draining server.now)
  | timeout (since : Nat) (hdraining : server.phase = .draining since)
      (hlate : since + server.shutdownTimeout ≤ server.now) :
      Phase.Moves server .timeout (.aborting since)
  | finish (since : Nat) (hdown : server.phase = .draining since ∨ server.phase = .aborting since)
      (hjoined : ∀ conn ∈ server.conns, conn.joined = true) :
      Phase.Moves server .finish (.returned since)

namespace ProxyServer

/-- A step accepts a connection, moves one, or moves `serve` and the clock. -/
theorem step_cases {server next : ProxyServer} {event : ServerEvent}
    (hstep : server.step event = some next) :
    (∃ mode, event = .accept mode ∧ server.phase = .accepting ∧
        next = { server with conns := server.conns ++ [{ mode }] }) ∨
      (∃ i old new, (event = .abort i → ∃ since, server.phase = .aborting since) ∧
        event.touches = some i ∧ server.conns[i]? = some old ∧
        old.Moves server.now event new ∧ next = server.replace i old new) ∨
      ∃ phase now, Phase.Moves server event phase ∧ server.now ≤ now ∧
        next = { server with phase, now } := by
  cases event with
  | accept mode =>
      rw [step, Option.ite_none_right_eq_some, Option.some.injEq] at hstep
      obtain ⟨haccepting, rfl⟩ := hstep
      exact .inl ⟨mode, rfl, haccepting, rfl⟩
  | conn i own =>
      rw [step] at hstep
      split at hstep
      next old hget =>
        obtain ⟨new, hown, rfl⟩ := Option.map_eq_some_iff.mp hstep
        exact .inr (.inl ⟨i, old, new, nofun, rfl, hget, .inl ⟨i, own, rfl, hown⟩, rfl⟩)
      next => cases hstep
  | tick elapsed =>
      obtain rfl := Option.some.inj hstep
      exact .inr (.inr ⟨_, _, .tick elapsed, Nat.le_add_right _ _, rfl⟩)
  | shutdown =>
      rw [step, Option.ite_none_right_eq_some, Option.some.injEq] at hstep
      obtain ⟨haccepting, rfl⟩ := hstep
      exact .inr (.inr ⟨_, _, .shutdown haccepting, le_rfl, rfl⟩)
  | timeout =>
      rw [step] at hstep
      split at hstep
      next since hdraining =>
        rw [Option.ite_none_right_eq_some, Option.some.injEq] at hstep
        obtain ⟨hlate, rfl⟩ := hstep
        exact .inr (.inr ⟨_, _, .timeout since hdraining hlate, le_rfl, rfl⟩)
      next => cases hstep
  | abort i =>
      rw [step] at hstep
      split at hstep
      next since old haborting hget =>
        obtain ⟨new, hown, rfl⟩ := Option.map_eq_some_iff.mp hstep
        exact .inr (.inl ⟨i, old, new, fun _ => ⟨since, haborting⟩, rfl, hget,
          .inr ⟨⟨i, rfl⟩, hown⟩, rfl⟩)
      next => cases hstep
  | finish =>
      rw [step, Option.ite_none_right_eq_some] at hstep
      obtain ⟨hall, hstep⟩ := hstep
      have hjoined : ∀ conn ∈ server.conns, conn.joined = true := by simpa using hall
      split at hstep
      next since hdraining =>
        obtain rfl := Option.some.inj hstep
        exact .inr (.inr ⟨_, _, .finish since (.inl hdraining) hjoined, le_rfl, rfl⟩)
      next since haborting =>
        obtain rfl := Option.some.inj hstep
        exact .inr (.inr ⟨_, _, .finish since (.inr haborting) hjoined, le_rfl, rfl⟩)
      next => cases hstep

end ProxyServer

/-! ## What a connection keeps -/

namespace Conn

/-- What a step does to a connection: its task starts, works on, hands its request
to a tunnel's task, or stops; a detached task moves on; the task is joined. -/
inductive Steps (conn : Conn) : ConnEvent → Conn → Prop
  | poll (hspawned : conn.task = .spawned) : Steps conn .poll (conn.serve .idle)
  | work (event : ConnEvent) (old work : Serving) (uploads : Nat)
      (hold : conn.task = .serving old) :
      Steps conn event { conn.serve work with uploads }
  | spawn (event : ConnEvent) (old : Serving) (dialed : Bool) (hold : conn.task = .serving old) :
      Steps conn event (conn.spawnTunnel dialed)
  | upgrade (dialed : Bool) (htask : conn.task = .serving .upgrading)
      (htunnel : conn.tunnel = some (.awaiting dialed)) :
      Steps conn .upgrade
        { conn with task := .finished, tunnel := some (if dialed then .relaying else .dialing) }
  | close (work : Serving) (htask : conn.task = .serving work) :
      Steps conn .close { conn with task := .finished }
  | tunnel (event : ConnEvent) (tunnel : Option TunnelTask)
      (hheld : tunnel.isSome = true → conn.tunnelHolds = true) :
      Steps conn event { conn with tunnel }
  | letGo (uploads : Nat) (hfewer : uploads < conn.uploads) :
      Steps conn .letGo { conn with uploads }
  | join (hover : conn.task.isOver = true) : Steps conn .join { conn with joined := true }

theorem step_cases {conn next : Conn} {event : ConnEvent} (hstep : conn.step event = some next) :
    conn.Steps event next := by
  cases event with
  | poll =>
      rw [step, Option.ite_none_right_eq_some, Option.some.injEq] at hstep
      obtain ⟨hspawned, rfl⟩ := hstep
      exact .poll hspawned
  | request =>
      rw [step, Option.ite_none_right_eq_some, Option.some.injEq] at hstep
      obtain ⟨hidle, rfl⟩ := hstep
      exact .work .request .idle (.forwarding false) conn.uploads hidle
  | handOver =>
      rw [step, Option.ite_none_right_eq_some, Option.some.injEq] at hstep
      obtain ⟨⟨hforwarding, -⟩, rfl⟩ := hstep
      exact .work .handOver _ (.forwarding true) (conn.uploads + 1) hforwarding
  | letGo =>
      rw [step, Option.ite_none_left_eq_some, Option.some.injEq] at hstep
      obtain ⟨hne, rfl⟩ := hstep
      exact .letGo _ (by omega)
  | respond ok =>
      rw [step] at hstep
      split at hstep
      next handed hforwarding =>
        obtain rfl := Option.some.inj hstep
        exact .work (.respond ok) _ _ conn.uploads hforwarding
      next => cases hstep
  | finishResponse =>
      rw [step, Option.ite_none_right_eq_some, Option.some.injEq] at hstep
      obtain ⟨hresponding, rfl⟩ := hstep
      exact .work .finishResponse .responding .idle conn.uploads hresponding
  | connect =>
      rw [step, Option.ite_none_right_eq_some] at hstep
      obtain ⟨hidle, hstep⟩ := hstep
      split at hstep <;> obtain rfl := Option.some.inj hstep
      · exact .spawn .connect .idle false hidle
      · exact .work .connect .idle .dialing conn.uploads hidle
      · exact .work .connect .idle .resolving conn.uploads hidle
  | resolved choice =>
      simp only [step, Option.ite_none_right_eq_some] at hstep
      obtain ⟨hresolving, hstep⟩ := hstep
      cases choice with
      | direct =>
          obtain rfl := Option.some.inj hstep
          exact .spawn _ .resolving false hresolving
      | upstream =>
          obtain rfl := Option.some.inj hstep
          exact .work _ .resolving .dialing conn.uploads hresolving
      | failed =>
          obtain rfl := Option.some.inj hstep
          exact .work _ .resolving .idle conn.uploads hresolving
  | dialed ok =>
      rw [step, Option.ite_none_right_eq_some, Option.some.injEq] at hstep
      obtain ⟨hdialing, rfl⟩ := hstep
      cases ok with
      | true => exact .spawn _ .dialing true hdialing
      | false => exact .work _ .dialing .idle conn.uploads hdialing
  | upgrade =>
      simp only [step] at hstep
      split at hstep
      next dialed htask htunnel =>
        obtain rfl := Option.some.inj hstep
        exact .upgrade dialed htask htunnel
      next => cases hstep
  | upgradeFailed =>
      simp only [step] at hstep
      split at hstep
      next dialed htunnel =>
        rw [Option.ite_none_right_eq_some, Option.some.injEq] at hstep
        obtain ⟨-, rfl⟩ := hstep
        exact .tunnel .upgradeFailed none nofun
      next => cases hstep
  | reach ok =>
      rw [step, Option.ite_none_right_eq_some, Option.some.injEq] at hstep
      obtain ⟨htunnel, rfl⟩ := hstep
      exact .tunnel _ _ fun _ => by rw [tunnelHolds, htunnel]
  | tunnelEnd =>
      rw [step, Option.ite_none_right_eq_some, Option.some.injEq] at hstep
      obtain ⟨-, rfl⟩ := hstep
      exact .tunnel .tunnelEnd none nofun
  | close =>
      rw [step, Option.ite_none_right_eq_some, Option.some.injEq] at hstep
      obtain ⟨hserving, rfl⟩ := hstep
      cases htask : conn.task with
      | serving work => exact .close work htask
      | spawned => simp [htask, ConnectionTask.isServing] at hserving
      | finished => simp [htask, ConnectionTask.isServing] at hserving
      | aborted time => simp [htask, ConnectionTask.isServing] at hserving
  | join =>
      rw [step, Option.ite_none_right_eq_some, Option.some.injEq] at hstep
      obtain ⟨⟨hover, -⟩, rfl⟩ := hstep
      exact .join hover

/-- A socket that the tunnel's task holds has left the connection's task; only
a task that is over has been joined. -/
structure WellFormed (conn : Conn) : Prop where
  handed : conn.tunnelHolds = true → conn.task.isOver = true
  joined : conn.joined = true → conn.task.isOver = true

theorem wellFormed_new (mode : RoutingMode) : ({ mode } : Conn).WellFormed := ⟨nofun, nofun⟩

theorem isServing_of_isOver {conn : Conn} (hover : conn.task.isOver = true) :
    conn.isServing = false := by
  unfold isServing
  cases htask : conn.task <;> simp_all [ConnectionTask.isOver, ConnectionTask.isServing]

/-- Before its task is over, a connection has handed nothing over. -/
theorem WellFormed.of_not_over {conn : Conn} (hwell : conn.WellFormed)
    (hrunning : conn.task.isOver = false) : conn.tunnelHolds = false ∧ conn.joined = false := by
  constructor <;> rw [Bool.eq_false_iff] <;> intro htrue
  · simp [hwell.handed htrue] at hrunning
  · simp [hwell.joined htrue] at hrunning

theorem wellFormed_of_fresh {conn : Conn} (hholds : conn.tunnelHolds = false)
    (hjoined : conn.joined = false) : conn.WellFormed :=
  ⟨fun htrue => by simp [hholds] at htrue, fun htrue => by simp [hjoined] at htrue⟩

theorem step_wellFormed {conn next : Conn} {event : ConnEvent} (hwell : conn.WellFormed)
    (hstep : conn.step event = some next) : next.WellFormed := by
  cases step_cases hstep with
  | poll hspawned =>
      obtain ⟨hholds, hjoined⟩ := hwell.of_not_over (by rw [hspawned]; rfl)
      exact wellFormed_of_fresh hholds hjoined
  | work _ old work uploads hold =>
      obtain ⟨hholds, hjoined⟩ := hwell.of_not_over (by rw [hold]; rfl)
      exact wellFormed_of_fresh hholds hjoined
  | spawn _ old dialed hold =>
      obtain ⟨-, hjoined⟩ := hwell.of_not_over (by rw [hold]; rfl)
      exact wellFormed_of_fresh rfl hjoined
  | upgrade dialed htask htunnel => exact ⟨fun _ => rfl, fun _ => rfl⟩
  | close work htask => exact ⟨fun _ => rfl, fun _ => rfl⟩
  | tunnel _ tunnel hheld =>
      refine ⟨fun hholds => ?_, hwell.joined⟩
      cases tunnel with
      | none => cases hholds
      | some task => exact hwell.handed (hheld rfl)
  | letGo uploads hfewer => exact ⟨hwell.handed, hwell.joined⟩
  | join hover => exact ⟨hwell.handed, fun _ => hover⟩

theorem abort_cases {conn next : Conn} {time : Nat} (habort : conn.abort time = some next) :
    conn.task.isOver = false ∧ next = { conn with task := .aborted time } := by
  rw [abort, Option.ite_none_left_eq_some, Option.some.injEq] at habort
  exact ⟨by simpa using habort.1, habort.2.symm⟩

theorem moves_wellFormed {now : Nat} {event : ServerEvent} {old new : Conn}
    (hwell : old.WellFormed) (hmoves : old.Moves now event new) : new.WellFormed := by
  rcases hmoves with ⟨_, own, _, hown⟩ | ⟨_, habort⟩
  · exact step_wellFormed hwell hown
  · obtain ⟨-, rfl⟩ := abort_cases habort
    exact ⟨fun _ => rfl, fun _ => rfl⟩

/-- Only an upgrade hands a socket over to a tunnel's task. -/
theorem moves_tunnelHolds {now : Nat} {event : ServerEvent} {old new : Conn}
    (hmoves : old.Moves now event new) (hevent : ∀ i, event ≠ .conn i .upgrade)
    (hold : old.tunnelHolds = false) : new.tunnelHolds = false := by
  rcases hmoves with ⟨i, own, rfl, hown⟩ | ⟨_, habort⟩
  · cases step_cases hown with
    | poll hspawned => exact hold
    | work _ task work uploads htask => exact hold
    | spawn _ task dialed htask => rfl
    | upgrade dialed htask htunnel => exact absurd rfl (hevent i)
    | close work htask => exact hold
    | tunnel _ tunnel hheld =>
        cases tunnel with
        | none => rfl
        | some task => simp [hheld rfl] at hold
    | letGo uploads hfewer => exact hold
    | join hover => exact hold
  · obtain ⟨-, rfl⟩ := abort_cases habort
    exact hold

/-- The socket of a well-formed connection has one owner at most. -/
theorem inUse_toNat {conn : Conn} (hwell : conn.WellFormed) :
    conn.inUse.toNat = conn.isServing.toNat + conn.tunnelHolds.toNat := by
  unfold inUse
  cases hholds : conn.tunnelHolds with
  | true => rw [isServing_of_isOver (hwell.handed hholds)]; rfl
  | false => rw [Bool.or_false]; rfl

end Conn

/-! ## The count of active connections -/

namespace ProxyServer

/-- Every reachable connection is well formed, and the counter is the number of
guards that are held. -/
structure Consistent (server : ProxyServer) : Prop where
  wellFormed : ∀ conn ∈ server.conns, conn.WellFormed
  active : server.active = server.conns.countP Conn.isServing

theorem consistent_new (shutdownTimeout : Nat) : ({ shutdownTimeout } : ProxyServer).Consistent :=
  ⟨nofun, rfl⟩

theorem step_consistent {server next : ProxyServer} {event : ServerEvent}
    (hconsistent : server.Consistent) (hstep : server.step event = some next) :
    next.Consistent := by
  rcases step_cases hstep with ⟨mode, -, -, rfl⟩ | ⟨i, old, new, -, -, hget, hmoves, rfl⟩ |
    ⟨phase, now, -, -, rfl⟩
  · refine ⟨fun conn hmem => ?_, ?_⟩
    · rcases List.mem_append.mp hmem with hmem | hmem
      · exact hconsistent.wellFormed conn hmem
      · obtain rfl := List.mem_singleton.mp hmem
        exact Conn.wellFormed_new mode
    · rw [List.countP_append]
      exact hconsistent.active
  · have hold := hconsistent.wellFormed old (List.mem_of_getElem? hget)
    refine ⟨forall_mem_set hconsistent.wellFormed (Conn.moves_wellFormed hold hmoves), ?_⟩
    have hcount := countP_set Conn.isServing hget new
    have hactive := hconsistent.active
    simp only [replace]
    omega
  · exact ⟨hconsistent.wellFormed, hconsistent.active⟩

theorem run_consistent {shutdownTimeout : Nat} {events : List ServerEvent} {server : ProxyServer}
    (hrun : run step { shutdownTimeout } events = some server) : server.Consistent :=
  run_invariant Consistent (fun _ _ _ hinv hstep => step_consistent hinv hstep)
    (consistent_new shutdownTimeout) hrun

/-- The number of client sockets that are in use. -/
def socketsInUse (server : ProxyServer) : Nat := server.conns.countP Conn.inUse

/-- What the counter leaves out is exactly the sockets that tunnels hold. -/
theorem Consistent.socketsInUse_eq {server : ProxyServer} (hconsistent : server.Consistent) :
    (server.socketsInUse : Int) = server.active + server.conns.countP Conn.tunnelHolds := by
  have hsplit : ∀ conns : List Conn, (∀ conn ∈ conns, conn.WellFormed) →
      conns.countP Conn.inUse =
        conns.countP Conn.isServing + conns.countP Conn.tunnelHolds := by
    intro conns hwell
    induction conns with
    | nil => rfl
    | cons conn rest ih =>
        obtain ⟨hconn, hrest⟩ := List.forall_mem_cons.mp hwell
        have hone := Conn.inUse_toNat hconn
        simp only [countP_eq_sum, List.map_cons, List.sum_cons] at ih ⊢
        have hothers := ih hrest
        omega
  rw [socketsInUse, hsplit server.conns hconsistent.wellFormed, hconsistent.active]
  exact Nat.cast_add _ _

/-- The counter is the number of client sockets in use, so it covers the open
tunnels, is zero when no socket is left and only then, and never underflows. -/
structure Covered (server : ProxyServer) : Prop where
  equal : server.active = server.socketsInUse
  tunnels : (server.conns.countP Conn.tunnelOpen : Int) ≤ server.active
  zero : server.active = 0 ↔ ∀ conn ∈ server.conns, conn.inUse = false
  nonneg : 0 ≤ server.active

theorem tunnelOpen_le_inUse (server : ProxyServer) :
    server.conns.countP Conn.tunnelOpen ≤ server.socketsInUse := by
  apply List.countP_mono_left
  intro conn _ hopen
  have htunnel : conn.tunnel = some .relaying := by simpa [Conn.tunnelOpen] using hopen
  simp [Conn.inUse, Conn.tunnelHolds, htunnel]

theorem Consistent.covered_iff {server : ProxyServer} (hconsistent : server.Consistent) :
    server.Covered ↔ ∀ conn ∈ server.conns, conn.tunnelHolds = false := by
  have hsockets := hconsistent.socketsInUse_eq
  constructor
  · intro hcovered conn hmem
    have hnone : server.conns.countP Conn.tunnelHolds = 0 := by
      have := hcovered.equal
      omega
    simpa using List.countP_eq_zero.mp hnone conn hmem
  · intro hnone
    have hcount : server.conns.countP Conn.tunnelHolds = 0 :=
      List.countP_eq_zero.mpr fun conn hmem => by simp [hnone conn hmem]
    have hequal : server.active = server.socketsInUse := by omega
    refine ⟨hequal, ?_, ?_, by omega⟩
    · have := server.tunnelOpen_le_inUse
      omega
    · rw [hequal, Nat.cast_eq_zero, socketsInUse, List.countP_eq_zero]
      simp

theorem step_tunnelHolds {server next : ProxyServer} {event : ServerEvent}
    (hnone : ∀ conn ∈ server.conns, conn.tunnelHolds = false)
    (hevent : ∀ i, event ≠ .conn i .upgrade) (hstep : server.step event = some next) :
    ∀ conn ∈ next.conns, conn.tunnelHolds = false := by
  rcases step_cases hstep with ⟨mode, -, -, rfl⟩ | ⟨i, old, new, -, -, hget, hmoves, rfl⟩ |
    ⟨phase, now, -, -, rfl⟩
  · intro conn hmem
    rcases List.mem_append.mp hmem with hmem | hmem
    · exact hnone conn hmem
    · obtain rfl := List.mem_singleton.mp hmem
      rfl
  · exact forall_mem_set hnone
      (Conn.moves_tunnelHolds hmoves hevent (hnone old (List.mem_of_getElem? hget)))
  · exact hnone

/-- An upgrade leaves a socket that the counter does not count. -/
theorem upgrade_not_covered {server next : ProxyServer} {i : Nat}
    (hconsistent : next.Consistent) (hstep : server.step (.conn i .upgrade) = some next) :
    ¬ next.Covered := by
  rw [hconsistent.covered_iff]
  intro hnone
  rcases step_cases hstep with ⟨mode, hevent, -⟩ | ⟨j, old, new, -, -, hget, hmoves, rfl⟩ |
    ⟨phase, now, hphase, -⟩
  · cases hevent
  · have hmem : new ∈ server.conns.set j new :=
      List.mem_set (List.getElem?_eq_some_iff.mp hget).1 new
    have hnew := hnone new hmem
    rcases hmoves with ⟨k, own, hown, hmoved⟩ | ⟨⟨k, habort⟩, -⟩
    · obtain ⟨-, rfl⟩ := ServerEvent.conn.inj hown
      simp only [Conn.step] at hmoved
      split at hmoved
      next dialed _ _ =>
        obtain rfl := Option.some.inj hmoved
        cases dialed <;> cases hnew
      next => cases hmoved
    · cases habort
  · cases hphase

/-- The counter covers every client socket at every moment of a run exactly when
no connection of the run was upgraded. -/
theorem active_covers_iff (shutdownTimeout : Nat) (events : List ServerEvent)
    (final : ProxyServer) (hrun : run step { shutdownTimeout } events = some final) :
    (∀ past server, past <+: events → run step { shutdownTimeout } past = some server →
        server.Covered) ↔
      ∀ i, ServerEvent.conn i .upgrade ∉ events := by
  constructor
  · intro hcovered i hmem
    obtain ⟨before, after, rfl⟩ := List.append_of_mem hmem
    rw [List.append_cons, run_append] at hrun
    obtain ⟨next, hnext, -⟩ := Option.bind_eq_some_iff.mp hrun
    obtain ⟨server, -, hstep⟩ := run_concat hnext
    refine upgrade_not_covered (run_consistent hnext) hstep (hcovered _ next ?_ hnext)
    exact ⟨after, by simp⟩
  · intro hnone past server hpast hrun
    rw [(run_consistent hrun).covered_iff]
    apply run_history_invariant (fun so_far server => so_far <+: past →
      ∀ conn ∈ server.conns, conn.tunnelHolds = false) _ _ hrun List.prefix_rfl
    · exact fun _ => nofun
    · intro so_far server event next hinv hstep hwithin
      refine step_tunnelHolds (hinv ((List.prefix_append _ _).trans hwithin)) ?_ hstep
      rintro i rfl
      refine hnone i (hpast.subset (hwithin.subset ?_))
      exact List.mem_append_right _ List.mem_cons_self

/-- A client that opens a tunnel in direct mode. -/
def tunnelRun : List ServerEvent :=
  [.accept .direct, .conn 0 .poll, .conn 0 .connect, .conn 0 .upgrade, .conn 0 (.reach true)]

/-- A client that sends one plain request in direct mode. -/
def requestRun : List ServerEvent :=
  [.accept .direct, .conn 0 .poll, .conn 0 .request, .conn 0 .handOver, .conn 0 .letGo,
    .conn 0 (.respond true), .conn 0 .finishResponse, .conn 0 .close]

theorem active_covers_iff_requestRun :
    ∃ final, run step { shutdownTimeout := 10 } requestRun = some final ∧
      ∀ past server, past <+: requestRun →
        run step { shutdownTimeout := 10 } past = some server → server.Covered :=
  ⟨_, rfl, (active_covers_iff 10 requestRun _ rfl).mpr (by simp [requestRun])⟩

/-- The counter says that nothing is served while a tunnel relays. -/
theorem tunnel_notActive :
    ∃ final, run step { shutdownTimeout := 10 } tunnelRun = some final ∧ final.active = 0 ∧
      final.socketsInUse = 1 ∧ final.conns.countP Conn.tunnelOpen = 1 ∧ ¬ final.Covered :=
  ⟨_, rfl, rfl, rfl, rfl, fun hcovered => absurd hcovered.equal (by decide)⟩

end ProxyServer

end Zicade.Proxy
