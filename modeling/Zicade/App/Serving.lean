import Zicade.App.Start
import Zicade.Proxy.Drain

/-! # Serving until the shutdown

`App::run` spawns the gate's monitor thread, passes the caller's shutdown signal on
to a channel of its own, and serves the proxy until then. The gate's two callers, the
accept loop, the connections and the drain take their steps in any order. Without its
monitor thread `App::run` returns at once, and there is nothing to say of it; and the
gate's rebuilds are taken to succeed, as in `Zicade.Netmon.GateEffects`.
-/

namespace Zicade.App

open Zicade.Foundation Zicade.Schema Zicade.Netmon
open Zicade.Proxy (ProxyServer ServerEvent Conn)

/-- The monitor thread looks at the flag, evaluates the gate, and waits for a change
of the network or the poll interval. -/
inductive MonitorThread
  | looking
  | evaluating
  | waiting
  | ended
  deriving DecidableEq, Repr

inductive MonitorEvent
  | look
  | evaluate (detected : List Text)
  | wake
  deriving DecidableEq, Repr

/-- A running app. `routes` are the routings its connections' tasks were handed, and
`shutdown` is the channel that its driver flips. -/
structure RunningApp (Target Router : Type*) where
  gate : GateInner Target Router
  proxy : ProxyServer
  routes : List (Routing Target Router) := []
  shutdown : Bool := false
  driven : Bool := false
  monitor : MonitorThread := .looking
  returned : Bool := false

inductive AppEvent
  /-- The apply hook hands a config to the gate. -/
  | applied (config : Config) (detected : List Text)
  | monitor (event : MonitorEvent)
  /-- The caller's signal reaches the driver. -/
  | signal
  | accept
  /-- What `serve` and the connections do otherwise. -/
  | serve (event : ServerEvent)
  | finish
  deriving DecidableEq, Repr

section

variable {Target Router : Type*} (buildRouting : Config → Routing Target Router)

def modeOf : Routing Target Router → RoutingMode
  | .direct => .direct
  | .upstream _ => .upstream
  | .pac _ => .pac

namespace RunningApp

/-- An app that has evaluated its gate once and is about to serve. -/
def ofGate (gate : GateInner Target Router) (now shutdownTimeout : ℕ) :
    RunningApp Target Router :=
  { gate, proxy := { now, shutdownTimeout } }

def call (app : RunningApp Target Router) (call : GateCall) : RunningApp Target Router :=
  { app with gate := app.gate.step buildRouting call.event }

def stepMonitor (app : RunningApp Target Router) :
    MonitorEvent → Option (RunningApp Target Router)
  | .look =>
      if app.monitor = .looking then
        some { app with monitor := if app.shutdown then .ended else .evaluating }
      else none
  | .evaluate detected =>
      if app.monitor = .evaluating then
        some { app.call buildRouting (.evaluate detected) with monitor := .waiting }
      else none
  | .wake => if app.monitor = .waiting then some { app with monitor := .looking } else none

/-- `serve` sees the shutdown once the channel has it; its accepts are a step of the app. -/
def stepServe (app : RunningApp Target Router) (event : ServerEvent) :
    Option (RunningApp Target Router) :=
  match event with
  | .accept _ => none
  | .shutdown =>
      if app.shutdown then (app.proxy.step .shutdown).map fun proxy => { app with proxy }
      else none
  | event => (app.proxy.step event).map fun proxy => { app with proxy }

def step (app : RunningApp Target Router) : AppEvent → Option (RunningApp Target Router)
  | .applied config detected => some (app.call buildRouting (.reconfigure config detected))
  | .monitor event => app.stepMonitor buildRouting event
  | .signal => if app.driven then none else some { app with driven := true, shutdown := true }
  | .accept =>
      (app.proxy.step (.accept (modeOf app.gate.routing))).map fun proxy =>
        { app with proxy, routes := app.routes ++ [app.gate.routing] }
  | .serve event => app.stepServe event
  | .finish =>
      match app.proxy.phase with
      | .returned _ =>
          if app.driven && !app.returned then some { app with returned := true, shutdown := true }
          else none
      | _ => none

/-! ## What a step can do -/

/-- A step of the app: a call of its gate, a move of its monitor, the signal, an accept,
a step of the proxy, or its return. -/
inductive Steps (app : RunningApp Target Router) : AppEvent → RunningApp Target Router → Prop
  | applied (config : Config) (detected : List Text) :
      Steps app (.applied config detected) (app.call buildRouting (.reconfigure config detected))
  | look (hlooking : app.monitor = .looking) :
      Steps app (.monitor .look)
        { app with monitor := if app.shutdown then .ended else .evaluating }
  | evaluate (detected : List Text) (hevaluating : app.monitor = .evaluating) :
      Steps app (.monitor (.evaluate detected))
        { app.call buildRouting (.evaluate detected) with monitor := .waiting }
  | wake (hwaiting : app.monitor = .waiting) :
      Steps app (.monitor .wake) { app with monitor := .looking }
  | signal (hwaits : app.driven = false) :
      Steps app .signal { app with driven := true, shutdown := true }
  | accept (proxy : ProxyServer)
      (hproxy : app.proxy.step (.accept (modeOf app.gate.routing)) = some proxy) :
      Steps app .accept { app with proxy, routes := app.routes ++ [app.gate.routing] }
  | serve (event : ServerEvent) (proxy : ProxyServer) (haccept : ∀ mode, event ≠ .accept mode)
      (hshutdown : event = .shutdown → app.shutdown = true)
      (hproxy : app.proxy.step event = some proxy) :
      Steps app (.serve event) { app with proxy }
  | finish (since : ℕ) (hserved : app.proxy.phase = .returned since)
      (hdriven : app.driven = true) (hruns : app.returned = false) :
      Steps app .finish { app with returned := true, shutdown := true }

variable {buildRouting}

theorem step_cases {app next : RunningApp Target Router} {event : AppEvent}
    (hstep : app.step buildRouting event = some next) : app.Steps buildRouting event next := by
  cases event with
  | applied config detected =>
      obtain rfl := Option.some.inj hstep
      exact .applied config detected
  | monitor event =>
      cases event with
      | look =>
          obtain ⟨hlooking, rfl⟩ : _ ∧ _ := by
            simpa only [step, stepMonitor, Option.ite_none_right_eq_some, Option.some.injEq]
              using hstep
          exact .look hlooking
      | evaluate detected =>
          obtain ⟨hevaluating, rfl⟩ : _ ∧ _ := by
            simpa only [step, stepMonitor, Option.ite_none_right_eq_some, Option.some.injEq]
              using hstep
          exact .evaluate detected hevaluating
      | wake =>
          obtain ⟨hwaiting, rfl⟩ : _ ∧ _ := by
            simpa only [step, stepMonitor, Option.ite_none_right_eq_some, Option.some.injEq]
              using hstep
          exact .wake hwaiting
  | signal =>
      rw [step, Option.ite_none_left_eq_some, Option.some.injEq] at hstep
      obtain ⟨hwaits, rfl⟩ := hstep
      exact .signal (by simpa using hwaits)
  | accept =>
      obtain ⟨proxy, hproxy, rfl⟩ := Option.map_eq_some_iff.mp hstep
      exact .accept proxy hproxy
  | serve event =>
      rw [step] at hstep
      unfold stepServe at hstep
      split at hstep
      next => cases hstep
      next =>
        rw [Option.ite_none_right_eq_some] at hstep
        obtain ⟨hshutdown, hstep⟩ := hstep
        obtain ⟨proxy, hproxy, rfl⟩ := Option.map_eq_some_iff.mp hstep
        exact .serve .shutdown proxy nofun (fun _ => hshutdown) hproxy
      next haccept hshutdown =>
        obtain ⟨proxy, hproxy, rfl⟩ := Option.map_eq_some_iff.mp hstep
        exact .serve event proxy haccept (fun hevent => absurd hevent hshutdown) hproxy
  | finish =>
      rw [step] at hstep
      split at hstep
      next since hserved =>
        rw [Option.ite_none_right_eq_some, Option.some.injEq] at hstep
        obtain ⟨hready, rfl⟩ := hstep
        obtain ⟨hdriven, hruns⟩ : app.driven = true ∧ app.returned = false := by
          simpa using hready
        exact .finish since hserved hdriven hruns
      next => cases hstep

/-! ## The routing of a connection -/

/-- What a history calls the gate with. -/
def gateCalls (events : List AppEvent) : List GateCall :=
  events.filterMap fun event =>
    match event with
    | .applied config detected => some (.reconfigure config detected)
    | .monitor (.evaluate detected) => some (.evaluate detected)
    | _ => none

theorem gateCalls_concat (past : List AppEvent) (event : AppEvent) :
    gateCalls (past ++ [event]) = gateCalls past ++ gateCalls [event] :=
  List.filterMap_append

variable (buildRouting) in
/-- What is handed out: the gate is where its calls led it, and each connection got a routing
and has its mode. -/
structure Handed (config : Config) (detected : List Text) (past : List AppEvent)
    (app : RunningApp Target Router) : Prop where
  gate : app.gate = gateAfterCalls buildRouting config (.evaluate detected :: gateCalls past)
  count : app.routes.length = past.count .accept
  modes : app.proxy.conns.map Conn.mode = app.routes.map modeOf

/-- A step of the proxy other than an accept leaves the modes. -/
theorem modes_step {proxy next : ProxyServer} {event : ServerEvent}
    (haccept : ∀ mode, event ≠ .accept mode) (hstep : proxy.step event = some next) :
    next.conns.map Conn.mode = proxy.conns.map Conn.mode := by
  rcases ProxyServer.step_cases hstep with ⟨mode, rfl, -, -⟩ |
    ⟨i, old, new, -, -, hget, hmoves, rfl⟩ | ⟨phase, now, -, -, rfl⟩
  · exact absurd rfl (haccept mode)
  · obtain ⟨front, back, hconns, -, hset⟩ := exists_split hget
    rw [ProxyServer.replace, hset, hconns]
    simp only [List.map_append, List.map_cons, Conn.moves_mode hmoves]
  · rfl

theorem accept_cases {proxy next : ProxyServer} {mode : RoutingMode}
    (hstep : proxy.step (.accept mode) = some next) :
    proxy.phase = .accepting ∧ next = { proxy with conns := proxy.conns ++ [{ mode }] } := by
  rw [ProxyServer.step, Option.ite_none_right_eq_some, Option.some.injEq] at hstep
  exact ⟨hstep.1, hstep.2.symm⟩

theorem Handed.step {config : Config} {detected : List Text} {past : List AppEvent}
    {app next : RunningApp Target Router} {event : AppEvent}
    (hhanded : app.Handed buildRouting config detected past)
    (hstep : app.step buildRouting event = some next) :
    next.Handed buildRouting config detected (past ++ [event]) := by
  obtain ⟨hgate, hcount, hmodes⟩ := hhanded
  have hcalls : ∀ call, gateCalls [event] = [call] →
      app.gate.step buildRouting call.event = gateAfterCalls buildRouting config
        (.evaluate detected :: gateCalls (past ++ [event])) := by
    intro call hcall
    rw [hgate, gateCalls_concat, hcall, ← List.cons_append, gateAfterCalls_concat]
  have hnone : gateCalls [event] = [] → app.gate = gateAfterCalls buildRouting config
      (.evaluate detected :: gateCalls (past ++ [event])) := by
    intro hnil
    rw [hgate, gateCalls_concat, hnil, List.append_nil]
  have hsame : event ≠ .accept → app.routes.length = (past ++ [event]).count .accept := by
    intro hne
    rw [List.count_append, List.count_singleton, hcount]
    simp [hne]
  cases step_cases hstep with
  | applied other network => exact ⟨hcalls (.reconfigure other network) rfl, hsame nofun, hmodes⟩
  | look hlooking => exact ⟨hnone rfl, hsame nofun, hmodes⟩
  | evaluate network hevaluating => exact ⟨hcalls (.evaluate network) rfl, hsame nofun, hmodes⟩
  | wake hwaiting => exact ⟨hnone rfl, hsame nofun, hmodes⟩
  | signal hwaits => exact ⟨hnone rfl, hsame nofun, hmodes⟩
  | accept proxy hproxy =>
      obtain ⟨-, rfl⟩ := accept_cases hproxy
      refine ⟨hnone rfl, ?_, ?_⟩
      · rw [List.length_append, hcount, List.count_append]
        rfl
      · rw [List.map_append, hmodes, List.map_append]
        rfl
  | serve own proxy haccept hshutdown hproxy =>
      exact ⟨hnone rfl, hsame nofun, (modes_step haccept hproxy).trans hmodes⟩
  | finish since hserved hdriven hruns => exact ⟨hnone rfl, hsame nofun, hmodes⟩

/-- A connection keeps the routing it was handed. -/
theorem routes_prefix {app final : RunningApp Target Router} {events : List AppEvent}
    (hrun : run (RunningApp.step buildRouting) app events = some final) :
    app.routes <+: final.routes := by
  refine run_invariant (fun later => app.routes <+: later.routes) ?_ (List.prefix_refl _) hrun
  intro state event next hfront hstep
  cases step_cases hstep with
  | accept proxy hproxy => exact hfront.trans (List.prefix_append _ _)
  | _ => exact hfront

end RunningApp

/-- The routing that a config calls for on a network. -/
def decidedRouting (config : Config) (detected : List Text) : Routing Target Router :=
  if gateEnabled config && !onCorp detected (gateParams config).suffixes then .direct
  else buildRouting config

variable {buildRouting}

theorem shows_decided {gate : GateInner Target Router} {config : Config} {detected : List Text}
    (hshows : gate.Shows buildRouting config detected) :
    gate.routing = decidedRouting buildRouting config detected := by
  unfold GateInner.Shows at hshows
  unfold decidedRouting
  cases henabled : gateEnabled config with
  | false =>
      rw [henabled] at hshows
      exact hshows.1
  | true =>
      cases hcorp : onCorp detected (gateParams config).suffixes with
      | false =>
          rw [henabled, hcorp] at hshows
          exact hshows.1
      | true =>
          rw [henabled, hcorp] at hshows
          exact hshows.1

variable (buildRouting) in
/-- What a gate is last called with decides its routing. -/
theorem gateAfterCalls_routing (config : Config) (first : GateCall) (calls : List GateCall) :
    (gateAfterCalls buildRouting config (first :: calls)).routing =
      decidedRouting buildRouting (currentConfig config (first :: calls))
        ((first :: calls).getLast (List.cons_ne_nil _ _)).detected := by
  have hshows := gateAfterCalls_shows buildRouting config (first :: calls).dropLast
    ((first :: calls).getLast (List.cons_ne_nil _ _))
  rw [List.dropLast_concat_getLast] at hshows
  exact shows_decided hshows

/-- As long as no rebuild fails, every connection is served by the routing that the config
applied last and the network seen last before its accept call for, whatever is applied or
detected after it. -/
theorem accepted_routing (config : Config) (detected : List Text) (shutdownTimeout : ℕ)
    {before after : List AppEvent} {final : RunningApp Target Router}
    (hrun : run (RunningApp.step buildRouting)
      (.ofGate (gateAfterCalls buildRouting config [.evaluate detected]) 0 shutdownTimeout)
      (before ++ .accept :: after) = some final) :
    let calls := .evaluate detected :: RunningApp.gateCalls before
    let routing := decidedRouting buildRouting (currentConfig config calls)
      (calls.getLast (List.cons_ne_nil _ _)).detected
    final.routes[before.count .accept]? = some routing ∧
      final.proxy.conns[before.count .accept]?.map Conn.mode = some (modeOf routing) := by
  intro calls routing
  have hinv : ∀ {events app}, run (RunningApp.step buildRouting)
      (.ofGate (gateAfterCalls buildRouting config [.evaluate detected]) 0 shutdownTimeout)
      events = some app → app.Handed buildRouting config detected events :=
    fun hrun => run_history_invariant (fun past app => app.Handed buildRouting config detected past)
      ⟨rfl, rfl, rfl⟩ (fun _ _ _ _ hhanded hstep => hhanded.step hstep) hrun
  have hfinal := hinv hrun
  rw [run_append] at hrun
  obtain ⟨middle, hbefore, hrest⟩ := Option.bind_eq_some_iff.mp hrun
  obtain ⟨hgate, hcount, -⟩ := hinv hbefore
  rw [run_cons] at hrest
  obtain ⟨next, haccept, hafter⟩ := Option.bind_eq_some_iff.mp hrest
  have hrouting : middle.gate.routing = routing := by
    rw [hgate]
    exact gateAfterCalls_routing buildRouting config _ _
  have hroute : final.routes[before.count .accept]? = some routing := by
    cases RunningApp.step_cases haccept with
    | accept proxy hproxy =>
        obtain ⟨later, hlater⟩ := RunningApp.routes_prefix hafter
        rw [← hlater, ← hcount, List.append_assoc, List.getElem?_append_right (le_refl _), hrouting]
        simp
  refine ⟨hroute, ?_⟩
  rw [← List.getElem?_map, hfinal.modes, List.getElem?_map, hroute]
  rfl

/-- A routing is told apart by its mode only. -/
def plainRouting (config : Config) : Routing Unit Unit :=
  match config.routing.mode with
  | .direct => .direct
  | .upstream => .upstream ()
  | .pac => .pac ()

def routedConfig : Config := { routing := { mode := .upstream } }

/-- A config applied between two connections is for the second of them. -/
theorem accepted_routing_second :
    ∃ final, run (RunningApp.step plainRouting)
        (.ofGate (gateAfterCalls plainRouting {} [.evaluate []]) 0 10)
        ([.accept, .applied routedConfig []] ++ .accept :: [.applied {} []]) = some final ∧
      final.routes[1]? = some (.upstream ()) ∧
      final.proxy.conns[1]?.map Conn.mode = some .upstream :=
  ⟨_, rfl, accepted_routing {} [] 10
    (rfl : run (RunningApp.step plainRouting)
      (.ofGate (gateAfterCalls plainRouting {} [.evaluate []]) 0 10)
      ([.accept, .applied routedConfig []] ++ .accept :: [.applied {} []]) = some _)⟩

/-! ## Winding down -/

namespace RunningApp

/-- What holds until the end of `App::run`: nothing stops before the signal came, and it
returns once the proxy has. -/
structure Winds (shutdownTimeout : ℕ) (past : List AppEvent) (app : RunningApp Target Router) :
    Prop where
  onTime : app.proxy.OnTime
  timeout : app.proxy.shutdownTimeout = shutdownTimeout
  driven : app.driven = true → app.shutdown = true
  signalled : app.shutdown = true → .signal ∈ past
  down : app.proxy.phase.isDown = true → app.shutdown = true
  returned : app.returned = true → ∃ since, app.proxy.phase = .returned since

theorem winds_start (gate : GateInner Target Router) (now shutdownTimeout : ℕ) :
    (ofGate gate now shutdownTimeout).Winds shutdownTimeout [] :=
  ⟨ProxyServer.onTime_new now shutdownTimeout, rfl, nofun, nofun, nofun, nofun⟩

/-- A step of the proxy keeps its timeout, a phase it has returned in, and its accepts stop
with the shutdown. -/
theorem proxy_step {proxy next : ProxyServer} {event : ServerEvent}
    (hstep : proxy.step event = some next) :
    next.shutdownTimeout = proxy.shutdownTimeout ∧
      (∀ since, proxy.phase = .returned since → next.phase = .returned since) ∧
      (event ≠ .shutdown → next.phase.isDown = true → proxy.phase.isDown = true) := by
  rcases ProxyServer.step_cases hstep with ⟨mode, -, -, rfl⟩ |
    ⟨i, old, new, -, -, -, -, rfl⟩ | ⟨phase, now, hmoves, -, rfl⟩
  · exact ⟨rfl, fun _ => id, fun _ => id⟩
  · exact ⟨rfl, fun _ => id, fun _ => id⟩
  · cases hmoves with
    | tick elapsed => exact ⟨rfl, fun _ => id, fun _ => id⟩
    | shutdown haccepting => exact ⟨rfl, by simp [haccepting], fun hother => absurd rfl hother⟩
    | timeout since hdraining hlate =>
        exact ⟨rfl, by simp [hdraining], fun _ _ => by rw [hdraining]; rfl⟩
    | finish since hdown hjoined =>
        rcases hdown with hphase | hphase <;>
          exact ⟨rfl, by simp [hphase], fun _ _ => by rw [hphase]; rfl⟩

theorem Winds.step {shutdownTimeout : ℕ} {past : List AppEvent}
    {app next : RunningApp Target Router} {event : AppEvent}
    (hwinds : app.Winds shutdownTimeout past) (hstep : app.step buildRouting event = some next) :
    next.Winds shutdownTimeout (past ++ [event]) := by
  obtain ⟨honTime, htimeout, hdriven, hsignalled, hdown, hreturned⟩ := hwinds
  have hpast : app.shutdown = true → .signal ∈ past ++ [event] :=
    fun hshutdown => List.mem_append_left _ (hsignalled hshutdown)
  cases step_cases hstep with
  | applied config detected => exact ⟨honTime, htimeout, hdriven, hpast, hdown, hreturned⟩
  | look hlooking => exact ⟨honTime, htimeout, hdriven, hpast, hdown, hreturned⟩
  | evaluate detected hevaluating => exact ⟨honTime, htimeout, hdriven, hpast, hdown, hreturned⟩
  | wake hwaiting => exact ⟨honTime, htimeout, hdriven, hpast, hdown, hreturned⟩
  | signal hwaits =>
      exact ⟨honTime, htimeout, fun _ => rfl,
        fun _ => List.mem_append_right _ (List.mem_singleton_self _), fun _ => rfl, hreturned⟩
  | accept proxy hproxy =>
      obtain ⟨hsame, hreturns, hisDown⟩ := proxy_step hproxy
      exact ⟨honTime.step hproxy, hsame.trans htimeout, hdriven, hpast,
        fun hnext => hdown (hisDown nofun hnext),
        fun hnext => (hreturned hnext).imp fun since hphase => hreturns since hphase⟩
  | serve own proxy haccept hshutdown hproxy =>
      obtain ⟨hsame, hreturns, hisDown⟩ := proxy_step hproxy
      refine ⟨honTime.step hproxy, hsame.trans htimeout, hdriven, hpast, fun hnext => ?_,
        fun hnext => (hreturned hnext).imp fun since hphase => hreturns since hphase⟩
      by_cases hown : own = .shutdown
      · exact hshutdown hown
      · exact hdown (hisDown hown hnext)
  | finish since hserved hisDriven hruns =>
      have hset := hdriven hisDriven
      exact ⟨honTime, htimeout, fun _ => rfl, fun _ => hpast hset, fun _ => rfl,
        fun _ => ⟨since, hserved⟩⟩

def evaluates : AppEvent → Bool
  | .monitor (.evaluate _) => true
  | _ => false

/-- From the shutdown on, the monitor evaluates once more if it had looked before it, and
then never again. -/
theorem evaluates_after_shutdown {app final : RunningApp Target Router}
    (hshutdown : app.shutdown = true) {events : List AppEvent}
    (hrun : run (RunningApp.step buildRouting) app events = some final) :
    events.countP evaluates ≤ 1 := by
  let due (state : RunningApp Target Router) : ℕ := if state.monitor = .evaluating then 1 else 0
  suffices hinv : final.shutdown = true ∧ events.countP evaluates + due final ≤ due app by
    have hdue : due app ≤ 1 := by
      simp only [due]
      split <;> decide
    omega
  refine run_history_invariant
    (fun past state => state.shutdown = true ∧ past.countP evaluates + due state ≤ due app)
    ⟨hshutdown, by simp⟩ ?_ hrun
  rintro past state event next ⟨hset, hdue⟩ hstep
  rw [List.countP_append]
  cases step_cases hstep with
  | look hlooking =>
      refine ⟨hset, ?_⟩
      simp only [hset, if_true, due, List.countP_singleton, evaluates] at hdue ⊢
      simp at hdue ⊢
      omega
  | evaluate detected hevaluating =>
      refine ⟨hset, ?_⟩
      simp only [hevaluating, due, List.countP_singleton, evaluates, if_true] at hdue ⊢
      simpa using hdue
  | wake hwaiting =>
      refine ⟨hset, ?_⟩
      simp only [hwaiting, due, List.countP_singleton, evaluates] at hdue ⊢
      simpa using hdue
  | signal hwaits => exact ⟨rfl, hdue⟩
  | finish since hserved hdriven hruns => exact ⟨rfl, hdue⟩
  | _ => exact ⟨hset, hdue⟩

end RunningApp

/-- Once an `App::run` whose monitor thread was spawned has returned, the caller's signal came,
every connection's task finished or was aborted after the timeout, none is accepted any more,
and the monitor thread evaluates the gate once more at most. -/
theorem run_winds_down (gate : GateInner Target Router) (now shutdownTimeout : ℕ)
    {past later : List AppEvent} {app final : RunningApp Target Router}
    (hrun : run (RunningApp.step buildRouting) (.ofGate gate now shutdownTimeout) past = some app)
    (hreturned : app.returned = true)
    (hlater : run (RunningApp.step buildRouting) app later = some final) :
    .signal ∈ past ∧
      (∃ since, app.proxy.phase = .returned since ∧ ∀ conn ∈ app.proxy.conns,
        conn.task = .finished ∨
          ∃ time, conn.task = .aborted time ∧ since + shutdownTimeout ≤ time) ∧
      .accept ∉ later ∧ later.countP RunningApp.evaluates ≤ 1 := by
  have hinv : ∀ {events state}, run (RunningApp.step buildRouting)
      (.ofGate gate now shutdownTimeout) events = some state →
      state.Winds shutdownTimeout events :=
    fun hrun => run_history_invariant (fun past app => app.Winds shutdownTimeout past)
      (RunningApp.winds_start gate now shutdownTimeout)
      (fun _ _ _ _ hwinds hstep => hwinds.step hstep) hrun
  have hwinds := hinv hrun
  obtain ⟨since, hphase⟩ := hwinds.returned hreturned
  have hshutdown : app.shutdown = true := hwinds.down (by rw [hphase]; rfl)
  refine ⟨hwinds.signalled hshutdown, ⟨since, hphase, fun conn hmem => ?_⟩, fun haccept => ?_,
    RunningApp.evaluates_after_shutdown hshutdown hlater⟩
  · cases htask : conn.task with
    | finished => exact .inl rfl
    | aborted time =>
        obtain ⟨began, hbegan, hlate⟩ := hwinds.onTime.aborted conn hmem time htask
        rw [hphase] at hbegan
        obtain rfl := Option.some.inj hbegan
        exact .inr ⟨time, rfl, hwinds.timeout ▸ hlate⟩
    | _ =>
        have hover := hwinds.onTime.returned since hphase conn hmem
        rw [htask] at hover
        cases hover
  · obtain ⟨before, after, rfl⟩ := List.append_of_mem haccept
    rw [run_append] at hlater
    obtain ⟨middle, hbefore, hrest⟩ := Option.bind_eq_some_iff.mp hlater
    have hstays : middle.proxy.phase = .returned since := by
      refine run_invariant (fun state : RunningApp Target Router =>
        state.proxy.phase = .returned since) ?_ hphase hbefore
      intro state event next hstate hstep
      cases RunningApp.step_cases hstep with
      | accept proxy hproxy => exact (RunningApp.proxy_step hproxy).2.1 since hstate
      | serve own proxy haccept hshutdown hproxy =>
          exact (RunningApp.proxy_step hproxy).2.1 since hstate
      | _ => exact hstate
    rw [run_cons] at hrest
    obtain ⟨next, haccepts, -⟩ := Option.bind_eq_some_iff.mp hrest
    cases RunningApp.step_cases haccepts with
    | accept proxy hproxy =>
        have haccepting := (RunningApp.accept_cases hproxy).1
        rw [hstays] at haccepting
        cases haccepting

end

/-- The monitor has looked at the flag just before the signal. -/
def windingDown : List AppEvent :=
  [.accept, .serve (.conn 0 .poll), .monitor .look, .signal, .serve .shutdown,
    .serve (.conn 0 .close), .serve (.conn 0 .join), .serve .finish, .finish]

theorem run_winds_down_monitor :
    ∃ app final,
      run (RunningApp.step plainRouting) (.ofGate (.new .direct {}) 0 10) windingDown = some app ∧
      app.returned = true ∧
      run (RunningApp.step plainRouting) app
        [.monitor (.evaluate []), .monitor .wake, .monitor .look] = some final ∧
      [.monitor (.evaluate []), .monitor .wake, .monitor .look].countP RunningApp.evaluates ≤ 1 ∧
      final.monitor = .ended :=
  ⟨_, _, rfl, rfl, rfl,
    (run_winds_down (.new .direct {}) 0 10
      (rfl : run (RunningApp.step plainRouting) (.ofGate (.new .direct {}) 0 10) windingDown =
        some _) rfl rfl).2.2.2, rfl⟩

end Zicade.App
