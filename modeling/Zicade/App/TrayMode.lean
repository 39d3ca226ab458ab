import Zicade.App.Serving

/-! # Tray mode

The proxy runs on a runtime thread, the tray icon on a thread of its own, and the
window on the main thread. `Close` stops the proxy and waits for its thread before
the main thread is told to quit, since the process ends with the main thread.
-/

namespace Zicade.App

open Zicade.Foundation Zicade.Auth Zicade.Schema Zicade.Netmon
open Zicade.Proxy (ProxyServer ServerEvent Conn)

/-! ## The menu -/

inductive TrayAction
  | openWindow
  | close
  deriving DecidableEq, Repr

structure TrayMenuItem where
  id : UInt32
  label : String
  deriving DecidableEq, Repr

def openId : UInt32 := 1

def closeId : UInt32 := 2

def trayMenuItems : List TrayMenuItem := [⟨openId, "Open Zicade"⟩, ⟨closeId, "Close"⟩]

def trayAction (id : UInt32) : Option TrayAction :=
  if id = openId then some .openWindow else if id = closeId then some .close else none

/-- A message to the tray's hidden window. Further messages are dispatched while the menu
is up; the choice is 0 if it is dismissed. -/
inductive TrayMessage
  | leftClick
  | menu (nested : List TrayMessage) (chosen : UInt32)
  | other

mutual

/-- What the window procedure leaves selected; a left click runs the first item. -/
def TrayMessage.dispatch (items : List TrayMenuItem) :
    TrayMessage → Option UInt32 → Option UInt32
  | .leftClick, _ => items.head?.map TrayMenuItem.id
  | .menu nested chosen, selected =>
      if chosen ≠ 0 then some chosen else dispatchAll items nested selected
  | .other, selected => selected

def dispatchAll (items : List TrayMenuItem) : List TrayMessage → Option UInt32 → Option UInt32
  | [], selected => selected
  | message :: rest, selected => dispatchAll items rest (message.dispatch items selected)

end

/-- What the pump does about a message. -/
def TrayMessage.action (message : TrayMessage) : Option TrayAction :=
  (message.dispatch trayMenuItems none).bind trayAction

/-! ## The threads -/

/-- Why the window says that the proxy does not run. -/
inductive StartFailure
  | runtime
  | start (err : StartError)
  | stopped
  deriving DecidableEq, Repr

/-- The runtime thread, `serve_on_runtime`. -/
inductive ServerThread (σ : Type*)
  | building (config : Config)
  | starting (config : Config)
  /-- The control is handed over, and the monitor thread not yet spawned. -/
  | started (app : RunningApp (UpstreamTarget σ) PacRouter)
  | serving (app : RunningApp (UpstreamTarget σ) PacRouter)
  /-- The thread has ended, and its runtime with it; the gate lives on. -/
  | ended (app : Option (RunningApp (UpstreamTarget σ) PacRouter))

def ServerThread.isOver {σ : Type*} : ServerThread σ → Bool
  | .ended _ => true
  | _ => false

/-- The main thread, `run_tray_mode` from the start of the runtime thread on. -/
inductive MainThread
  | receiving
  | spawningTray
  /-- `wait_for_show` -/
  | waiting
  | startingUi
  /-- The UI loop, with `follow_tray` in it. -/
  | looping
  /-- The UI loop, with nobody to follow the tray. -/
  | unattended
  | ending
  | exited (success : Bool)
  deriving DecidableEq, Repr

/-- The tray thread, `pump_tray`. -/
inductive TrayThread
  | unborn
  | adding
  | pumping
  /-- `Close` waits for the runtime thread. -/
  | joining
  | quitting
  | ended
  deriving DecidableEq, Repr

inductive UiCommand
  | showWindow
  | quit
  deriving DecidableEq, Repr

/-- `handle` is the window `MainWindow` knows, and `windows` are the ones on the screen. -/
structure MainWindow where
  handle : Option ℕ := none
  windows : List ℕ := []
  opened : ℕ := 0
  deriving DecidableEq, Repr

/-- Bring the window forward, or open a fresh one. -/
def MainWindow.show (window : MainWindow) (opens : Bool) : MainWindow :=
  if window.handle.any (· ∈ window.windows) then window
  else if opens then
    ⟨some window.opened, window.windows ++ [window.opened], window.opened + 1⟩
  else { window with handle := none }

/-- The windows go with the UI loop. -/
def MainWindow.close (window : MainWindow) : MainWindow := { window with windows := [] }

/-- The process in tray mode; `shutdown` is the channel the runtime thread is stopped by. -/
structure TrayMode (σ : Type*) where
  server : ServerThread σ
  main : MainThread := .receiving
  tray : TrayThread := .unborn
  shutdown : Bool := false
  reported : Option (Except StartFailure Unit) := none
  showWindow : Bool
  commands : List UiCommand := []
  window : MainWindow := {}
  now : ℕ := 0

inductive RuntimeEvent
  | buildRuntime (ok : Bool)
  | startApp
  | spawnMonitor (ok : Bool)
  | app (event : AppEvent)
  | dropRuntime
  deriving DecidableEq, Repr

/-- `opens` tells whether a window can be opened. -/
inductive MainEvent
  | receive
  | spawnTray (ok : Bool)
  | command (opens : Bool)
  | startUi (opens : Bool)
  /-- The UI loop ends by itself. -/
  | endUi
  | exit
  deriving DecidableEq, Repr

inductive TrayEvent
  | addIcon (ok : Bool)
  | message (message : TrayMessage)
  /-- `GetMessageW` fails. -/
  | fail
  /-- The hidden window is destroyed. -/
  | destroy
  | joined
  | sendQuit

inductive ModeEvent
  | tick (elapsed : ℕ)
  | runtime (event : RuntimeEvent)
  | main (event : MainEvent)
  | tray (event : TrayEvent)
  | closeWindow (id : ℕ)

/-- What still happens to an app whose `run` is not yet called or is over: the apply hook
and the monitor thread call its gate. -/
def AppEvent.outlives : AppEvent → Bool
  | .applied _ _ => true
  | .monitor _ => true
  | _ => false

/-- A dropped runtime drops the tasks that were spawned on it. -/
def RunningApp.dropTasks {Target Router : Type*} (app : RunningApp Target Router) :
    RunningApp Target Router :=
  { app with proxy := { app.proxy with
      conns := app.proxy.conns.map fun conn => { conn with tunnel := none, uploads := 0 } } }

/-- `DEFAULT_SHUTDOWN_TIMEOUT`, in seconds. -/
def defaultShutdownTimeout : ℕ := 10

namespace TrayMode

variable {σ : Type*} (base64 : Base64) (sspi : Text → SspiPackage → σ) (env : Environment)

def launched (config : Config) (showWindow : Bool) : TrayMode σ :=
  { server := .building config, showWindow }

/-- The receiver of the commands is gone once the UI is done with them. -/
def listens (mode : TrayMode σ) : Bool :=
  match mode.main with
  | .unattended => false
  | .ending => false
  | .exited _ => false
  | _ => true

def send (mode : TrayMode σ) (command : UiCommand) : TrayMode σ :=
  { mode with commands := if mode.listens then mode.commands ++ [command] else mode.commands }

def stepRuntime (mode : TrayMode σ) (event : RuntimeEvent) : Option (TrayMode σ) :=
  match event, mode.server with
  | .buildRuntime ok, .building config =>
      some (if ok then { mode with server := .starting config }
        else { mode with server := .ended none, reported := some (.error .runtime) })
  | .startApp, .starting config =>
      match start base64 sspi env config with
      | .ok app => some { mode with
          server := .started (.ofGate app.gate mode.now defaultShutdownTimeout)
          reported := some (.ok ()) }
      | .error err => some { mode with
          server := .ended none, reported := some (.error (.start err)) }
  | .spawnMonitor ok, .started app =>
      some { mode with
        server := if ok then .serving app else .ended (some { app with monitor := .ended }) }
  | .app event, .started app =>
      if event.outlives then
        (app.step (gateRebuild base64 sspi env.threadStarts) event).map fun app =>
          { mode with server := .started app }
      else none
  | .app .signal, .serving app =>
      -- the driver awaits the channel
      if mode.shutdown then
        (app.step (gateRebuild base64 sspi env.threadStarts) .signal).map fun app =>
          { mode with server := .serving app }
      else none
  | .app (.serve (.tick _)), .serving _ => none
  | .app event, .serving app =>
      (app.step (gateRebuild base64 sspi env.threadStarts) event).map fun app =>
        { mode with server := .serving app }
  | .app event, .ended (some app) =>
      if event.outlives then
        (app.step (gateRebuild base64 sspi env.threadStarts) event).map fun app =>
          { mode with server := .ended (some app) }
      else none
  | .dropRuntime, .serving app =>
      if app.returned then some { mode with server := .ended (some app.dropTasks) } else none
  | _, _ => none

def stepMain (mode : TrayMode σ) (event : MainEvent) : Option (TrayMode σ) :=
  match event, mode.main with
  | .receive, .receiving =>
      if mode.reported.isNone && !mode.server.isOver then none
      else
        let control := mode.reported.getD (.error .stopped)
        -- a start failure still opens the window
        some { mode with
          main := .spawningTray, reported := some control
          showWindow := mode.showWindow || !control.isOk }
  | .spawnTray ok, .spawningTray =>
      some (if ok then
          { mode with
            tray := .adding, main := if mode.showWindow then .startingUi else .waiting }
        else { mode with shutdown := true, main := .exited false })
  | .command _, .waiting =>
      match mode.commands with
      | .showWindow :: rest => some { mode with main := .startingUi, commands := rest }
      | .quit :: rest => some { mode with main := .ending, commands := rest }
      | [] => if mode.tray = .ended then some { mode with main := .ending } else none
  | .startUi opens, .startingUi =>
      some { mode with main := .looping, window := mode.window.show opens }
  | .command opens, .looping =>
      match mode.commands with
      | .showWindow :: rest => some { mode with
          commands := rest, window := mode.window.show opens }
      | .quit :: rest => some { mode with
          main := .ending, commands := rest, window := mode.window.close }
      | [] => if mode.tray = .ended then some { mode with main := .unattended } else none
  | .endUi, .looping => some { mode with main := .ending, window := mode.window.close }
  | .endUi, .unattended => some { mode with main := .ending, window := mode.window.close }
  | .exit, .ending => some { mode with shutdown := true, main := .exited true }
  | _, _ => none

def stepTray (mode : TrayMode σ) (event : TrayEvent) : Option (TrayMode σ) :=
  match event, mode.tray with
  | .addIcon ok, .adding =>
      some (if ok then { mode with tray := .pumping }
        else { mode with shutdown := true, tray := .quitting })
  | .message message, .pumping =>
      match message.action with
      | some .openWindow => some (mode.send .showWindow)
      | some .close => some { mode with shutdown := true, tray := .joining }
      | none => some mode
  | .fail, .pumping => some { mode with shutdown := true, tray := .quitting }
  | .destroy, .pumping => some { mode with tray := .quitting }
  | .joined, .joining =>
      if mode.server.isOver then some { mode with tray := .quitting } else none
  | .sendQuit, .quitting => some { mode.send .quit with tray := .ended }
  | _, _ => none

/-- The proxy's clock goes on while the runtime thread is there. -/
def tick (mode : TrayMode σ) (elapsed : ℕ) : TrayMode σ :=
  let later (app : RunningApp (UpstreamTarget σ) PacRouter) :=
    { app with proxy := { app.proxy with now := app.proxy.now + elapsed } }
  { mode with
    now := mode.now + elapsed
    server :=
      match mode.server with
      | .started app => .started (later app)
      | .serving app => .serving (later app)
      | server => server }

def step (mode : TrayMode σ) (event : ModeEvent) : Option (TrayMode σ) :=
  match mode.main with
  | .exited _ => none
  | _ =>
      match event with
      | .tick elapsed => some (mode.tick elapsed)
      | .runtime event => mode.stepRuntime base64 sspi env event
      | .main event => mode.stepMain event
      | .tray event => mode.stepTray event
      | .closeWindow id => some { mode with
          window := { mode.window with windows := mode.window.windows.erase id } }

/-! ## What a step can do -/

/-- The runtime thread builds its runtime, starts the app, spawns the monitor, serves, and
drops the runtime. -/
inductive RuntimeSteps (mode : TrayMode σ) : RuntimeEvent → TrayMode σ → Prop
  | built (config : Config) (hserver : mode.server = .building config) :
      RuntimeSteps mode (.buildRuntime true) { mode with server := .starting config }
  | unbuilt (config : Config) (hserver : mode.server = .building config) :
      RuntimeSteps mode (.buildRuntime false)
        { mode with server := .ended none, reported := some (.error .runtime) }
  | started (config : Config) (app : Started σ) (hserver : mode.server = .starting config)
      (hstart : start base64 sspi env config = .ok app) :
      RuntimeSteps mode .startApp { mode with
        server := .started (.ofGate app.gate mode.now defaultShutdownTimeout)
        reported := some (.ok ()) }
  | unstarted (config : Config) (err : StartError) (hserver : mode.server = .starting config) :
      RuntimeSteps mode .startApp
        { mode with server := .ended none, reported := some (.error (.start err)) }
  | spawned (app : RunningApp (UpstreamTarget σ) PacRouter) (hserver : mode.server = .started app) :
      RuntimeSteps mode (.spawnMonitor true) { mode with server := .serving app }
  | unspawned (app : RunningApp (UpstreamTarget σ) PacRouter)
      (hserver : mode.server = .started app) :
      RuntimeSteps mode (.spawnMonitor false)
        { mode with server := .ended (some { app with monitor := .ended }) }
  | early (event : AppEvent) (app next : RunningApp (UpstreamTarget σ) PacRouter)
      (hserver : mode.server = .started app) (houtlives : event.outlives = true)
      (happ : app.step (gateRebuild base64 sspi env.threadStarts) event = some next) :
      RuntimeSteps mode (.app event) { mode with server := .started next }
  | served (event : AppEvent) (app next : RunningApp (UpstreamTarget σ) PacRouter)
      (hserver : mode.server = .serving app) (hsignal : event = .signal → mode.shutdown = true)
      (hclock : ∀ elapsed, event ≠ .serve (.tick elapsed))
      (happ : app.step (gateRebuild base64 sspi env.threadStarts) event = some next) :
      RuntimeSteps mode (.app event) { mode with server := .serving next }
  | late (event : AppEvent) (app next : RunningApp (UpstreamTarget σ) PacRouter)
      (hserver : mode.server = .ended (some app)) (houtlives : event.outlives = true)
      (happ : app.step (gateRebuild base64 sspi env.threadStarts) event = some next) :
      RuntimeSteps mode (.app event) { mode with server := .ended (some next) }
  | dropped (app : RunningApp (UpstreamTarget σ) PacRouter) (hserver : mode.server = .serving app)
      (hreturned : app.returned = true) :
      RuntimeSteps mode .dropRuntime { mode with server := .ended (some app.dropTasks) }

/-- The main thread receives the control, spawns the tray, and runs the UI. -/
inductive MainSteps (mode : TrayMode σ) : MainEvent → TrayMode σ → Prop
  | received (control : Except StartFailure Unit) (hmain : mode.main = .receiving)
      (hsent : mode.reported = none → mode.server.isOver = true)
      (hcontrol : control = mode.reported.getD (.error .stopped)) :
      MainSteps mode .receive { mode with
        main := .spawningTray, reported := some control
        showWindow := mode.showWindow || !control.isOk }
  | traySpawned (hmain : mode.main = .spawningTray) :
      MainSteps mode (.spawnTray true) { mode with
        tray := .adding, main := if mode.showWindow then .startingUi else .waiting }
  | trayUnspawned (hmain : mode.main = .spawningTray) :
      MainSteps mode (.spawnTray false) { mode with shutdown := true, main := .exited false }
  | asked (opens : Bool) (rest : List UiCommand) (hmain : mode.main = .waiting)
      (hcommands : mode.commands = .showWindow :: rest) :
      MainSteps mode (.command opens) { mode with main := .startingUi, commands := rest }
  | told (opens : Bool) (rest : List UiCommand) (hmain : mode.main = .waiting)
      (hcommands : mode.commands = .quit :: rest) :
      MainSteps mode (.command opens) { mode with main := .ending, commands := rest }
  | gone (opens : Bool) (hmain : mode.main = .waiting) (hcommands : mode.commands = [])
      (htray : mode.tray = .ended) : MainSteps mode (.command opens) { mode with main := .ending }
  | uiStarted (opens : Bool) (hmain : mode.main = .startingUi) :
      MainSteps mode (.startUi opens)
        { mode with main := .looping, window := mode.window.show opens }
  | shown (opens : Bool) (rest : List UiCommand) (hmain : mode.main = .looping)
      (hcommands : mode.commands = .showWindow :: rest) :
      MainSteps mode (.command opens)
        { mode with commands := rest, window := mode.window.show opens }
  | quit (opens : Bool) (rest : List UiCommand) (hmain : mode.main = .looping)
      (hcommands : mode.commands = .quit :: rest) :
      MainSteps mode (.command opens)
        { mode with main := .ending, commands := rest, window := mode.window.close }
  | left (opens : Bool) (hmain : mode.main = .looping) (hcommands : mode.commands = [])
      (htray : mode.tray = .ended) :
      MainSteps mode (.command opens) { mode with main := .unattended }
  | uiEnded (hmain : mode.main = .looping ∨ mode.main = .unattended) :
      MainSteps mode .endUi { mode with main := .ending, window := mode.window.close }
  | exits (hmain : mode.main = .ending) :
      MainSteps mode .exit { mode with shutdown := true, main := .exited true }

/-- The tray thread shows its icon, pumps messages, and quits. -/
inductive TraySteps (mode : TrayMode σ) : TrayEvent → TrayMode σ → Prop
  | added (htray : mode.tray = .adding) :
      TraySteps mode (.addIcon true) { mode with tray := .pumping }
  | unadded (htray : mode.tray = .adding) :
      TraySteps mode (.addIcon false) { mode with shutdown := true, tray := .quitting }
  | opened (message : TrayMessage) (htray : mode.tray = .pumping)
      (haction : message.action = some .openWindow) :
      TraySteps mode (.message message) (mode.send .showWindow)
  | closed (message : TrayMessage) (htray : mode.tray = .pumping)
      (haction : message.action = some .close) :
      TraySteps mode (.message message) { mode with shutdown := true, tray := .joining }
  | ignored (message : TrayMessage) (htray : mode.tray = .pumping)
      (haction : message.action = none) : TraySteps mode (.message message) mode
  | failed (htray : mode.tray = .pumping) :
      TraySteps mode .fail { mode with shutdown := true, tray := .quitting }
  | destroyed (htray : mode.tray = .pumping) :
      TraySteps mode .destroy { mode with tray := .quitting }
  | joined (htray : mode.tray = .joining) (hover : mode.server.isOver = true) :
      TraySteps mode .joined { mode with tray := .quitting }
  | sent (htray : mode.tray = .quitting) :
      TraySteps mode .sendQuit { mode.send .quit with tray := .ended }

variable {base64 sspi env}

theorem stepRuntime_cases {mode next : TrayMode σ} {event : RuntimeEvent}
    (hstep : mode.stepRuntime base64 sspi env event = some next) :
    mode.RuntimeSteps base64 sspi env event next := by
  unfold stepRuntime at hstep
  split at hstep
  next ok config hserver =>
    cases ok with
    | true =>
        obtain rfl := Option.some.inj hstep
        exact .built config hserver
    | false =>
        obtain rfl := Option.some.inj hstep
        exact .unbuilt config hserver
  next config hserver =>
    split at hstep
    next app hstart =>
      obtain rfl := Option.some.inj hstep
      exact .started config app hserver hstart
    next err hstart =>
      obtain rfl := Option.some.inj hstep
      exact .unstarted config err hserver
  next ok app hserver =>
    cases ok with
    | true =>
        obtain rfl := Option.some.inj hstep
        exact .spawned app hserver
    | false =>
        obtain rfl := Option.some.inj hstep
        exact .unspawned app hserver
  next event app hserver =>
    rw [Option.ite_none_right_eq_some] at hstep
    obtain ⟨houtlives, hstep⟩ := hstep
    obtain ⟨after, happ, rfl⟩ := Option.map_eq_some_iff.mp hstep
    exact .early event app after hserver houtlives happ
  next app hserver =>
    rw [Option.ite_none_right_eq_some] at hstep
    obtain ⟨hshutdown, hstep⟩ := hstep
    obtain ⟨after, happ, rfl⟩ := Option.map_eq_some_iff.mp hstep
    exact .served .signal app after hserver (fun _ => hshutdown) nofun happ
  next => cases hstep
  next event app hsignal hclock hserver =>
    obtain ⟨after, happ, rfl⟩ := Option.map_eq_some_iff.mp hstep
    exact .served event app after hserver (fun hevent => absurd hevent hsignal) hclock happ
  next event app hserver =>
    rw [Option.ite_none_right_eq_some] at hstep
    obtain ⟨houtlives, hstep⟩ := hstep
    obtain ⟨after, happ, rfl⟩ := Option.map_eq_some_iff.mp hstep
    exact .late event app after hserver houtlives happ
  next app hserver =>
    rw [Option.ite_none_right_eq_some, Option.some.injEq] at hstep
    obtain ⟨hreturned, rfl⟩ := hstep
    exact .dropped app hserver hreturned
  next => cases hstep

theorem stepMain_cases {mode next : TrayMode σ} {event : MainEvent}
    (hstep : mode.stepMain event = some next) : mode.MainSteps event next := by
  unfold stepMain at hstep
  split at hstep
  next hmain =>
    rw [Option.ite_none_left_eq_some, Option.some.injEq] at hstep
    obtain ⟨hsent, rfl⟩ := hstep
    exact .received _ hmain (fun hnone => by simpa [hnone] using hsent) rfl
  next ok hmain =>
    cases ok with
    | true =>
        obtain rfl := Option.some.inj hstep
        exact .traySpawned hmain
    | false =>
        obtain rfl := Option.some.inj hstep
        exact .trayUnspawned hmain
  next opens hmain =>
    split at hstep
    next rest hcommands =>
      obtain rfl := Option.some.inj hstep
      exact .asked opens rest hmain hcommands
    next rest hcommands =>
      obtain rfl := Option.some.inj hstep
      exact .told opens rest hmain hcommands
    next hcommands =>
      rw [Option.ite_none_right_eq_some, Option.some.injEq] at hstep
      obtain ⟨htray, rfl⟩ := hstep
      exact .gone opens hmain hcommands htray
  next opens hmain =>
    obtain rfl := Option.some.inj hstep
    exact .uiStarted opens hmain
  next opens hmain =>
    split at hstep
    next rest hcommands =>
      obtain rfl := Option.some.inj hstep
      exact .shown opens rest hmain hcommands
    next rest hcommands =>
      obtain rfl := Option.some.inj hstep
      exact .quit opens rest hmain hcommands
    next hcommands =>
      rw [Option.ite_none_right_eq_some, Option.some.injEq] at hstep
      obtain ⟨htray, rfl⟩ := hstep
      exact .left opens hmain hcommands htray
  next hmain =>
    obtain rfl := Option.some.inj hstep
    exact .uiEnded (.inl hmain)
  next hmain =>
    obtain rfl := Option.some.inj hstep
    exact .uiEnded (.inr hmain)
  next hmain =>
    obtain rfl := Option.some.inj hstep
    exact .exits hmain
  next => cases hstep

theorem stepTray_cases {mode next : TrayMode σ} {event : TrayEvent}
    (hstep : mode.stepTray event = some next) : mode.TraySteps event next := by
  unfold stepTray at hstep
  split at hstep
  next ok htray =>
    cases ok with
    | true =>
        obtain rfl := Option.some.inj hstep
        exact .added htray
    | false =>
        obtain rfl := Option.some.inj hstep
        exact .unadded htray
  next message htray =>
    split at hstep
    next haction =>
      obtain rfl := Option.some.inj hstep
      exact .opened message htray haction
    next haction =>
      obtain rfl := Option.some.inj hstep
      exact .closed message htray haction
    next haction =>
      obtain rfl := Option.some.inj hstep
      exact .ignored message htray haction
  next htray =>
    obtain rfl := Option.some.inj hstep
    exact .failed htray
  next htray =>
    obtain rfl := Option.some.inj hstep
    exact .destroyed htray
  next htray =>
    rw [Option.ite_none_right_eq_some, Option.some.injEq] at hstep
    obtain ⟨hover, rfl⟩ := hstep
    exact .joined htray hover
  next htray =>
    obtain rfl := Option.some.inj hstep
    exact .sent htray
  next => cases hstep

variable (base64 sspi env) in
/-- A step of the process, which has not exited, is one of its threads', of the clock, or of
the user. -/
inductive Steps (mode : TrayMode σ) : ModeEvent → TrayMode σ → Prop
  | tick (elapsed : ℕ) : Steps mode (.tick elapsed) (mode.tick elapsed)
  | runtime (event : RuntimeEvent) (next : TrayMode σ)
      (hruntime : mode.RuntimeSteps base64 sspi env event next) : Steps mode (.runtime event) next
  | main (event : MainEvent) (next : TrayMode σ) (hmain : mode.MainSteps event next) :
      Steps mode (.main event) next
  | tray (event : TrayEvent) (next : TrayMode σ) (htray : mode.TraySteps event next) :
      Steps mode (.tray event) next
  | closeWindow (id : ℕ) :
      Steps mode (.closeWindow id)
        { mode with window := { mode.window with windows := mode.window.windows.erase id } }

theorem step_cases {mode next : TrayMode σ} {event : ModeEvent}
    (hstep : mode.step base64 sspi env event = some next) :
    (∀ success, mode.main ≠ .exited success) ∧ mode.Steps base64 sspi env event next := by
  unfold step at hstep
  split at hstep
  next => cases hstep
  next hruns =>
    refine ⟨hruns, ?_⟩
    cases event with
    | tick elapsed =>
        obtain rfl := Option.some.inj hstep
        exact .tick elapsed
    | runtime event => exact .runtime event next (stepRuntime_cases hstep)
    | main event => exact .main event next (stepMain_cases hstep)
    | tray event => exact .tray event next (stepTray_cases hstep)
    | closeWindow id =>
        obtain rfl := Option.some.inj hstep
        exact .closeWindow id

/-! ## What every run keeps -/

end TrayMode

/-- What is left of an app whose thread has ended: no task runs, and none was aborted before
the drain had waited its time. -/
def RunningApp.Settled {Target Router : Type*} (app : RunningApp Target Router) : Prop :=
  ∀ conn ∈ app.proxy.conns, conn.relaying = false ∧ conn.entryOpen = false ∧
    (conn.task = .finished ∨ ∃ since time, app.proxy.phase = .returned since ∧
      conn.task = .aborted time ∧ since + defaultShutdownTimeout ≤ time)

/-- An app that has served winds down, and its clock is that of the process. -/
def ServerThread.Sound {σ : Type*} (now : ℕ) : ServerThread σ → Prop
  | .building _ => True
  | .starting _ => True
  | .started app => app.proxy.now = now ∧ (∃ past, app.Winds defaultShutdownTimeout past) ∧
      app.proxy.conns = []
  | .serving app => app.proxy.now = now ∧ ∃ past, app.Winds defaultShutdownTimeout past
  | .ended none => True
  | .ended (some app) => app.Settled

def ServerThread.isStarting {σ : Type*} : ServerThread σ → Bool
  | .building _ => true
  | .starting _ => true
  | _ => false

namespace RunningApp

variable {Target Router : Type*} {buildRouting : Config → Routing Target Router}
  {app next : RunningApp Target Router} {event : AppEvent}

/-- The gate's callers leave the proxy alone. -/
theorem proxy_of_outlives (houtlives : event.outlives = true)
    (hstep : app.step buildRouting event = some next) :
    next.proxy = app.proxy ∧ next.driven = app.driven ∧ next.returned = app.returned := by
  cases step_cases hstep with
  | accept proxy hproxy => cases houtlives
  | serve own proxy haccept hshutdown hproxy => cases houtlives
  | signal hwaits => cases houtlives
  | finish since hserved hdriven hruns => cases houtlives
  | _ => exact ⟨rfl, rfl, rfl⟩

/-- Only the clock's own step moves it. -/
theorem now_step (hclock : ∀ elapsed, event ≠ .serve (.tick elapsed))
    (hstep : app.step buildRouting event = some next) : next.proxy.now = app.proxy.now := by
  cases step_cases hstep with
  | accept proxy haccept => exact ProxyServer.now_step (fun _ hevent => by cases hevent) haccept
  | serve own proxy haccept hshutdown hserve =>
      exact ProxyServer.now_step
        (fun elapsed hown => hclock elapsed (congrArg AppEvent.serve hown)) hserve
  | _ => rfl

/-- A returned app whose runtime is dropped is settled. -/
theorem Winds.settled {past : List AppEvent} (hwinds : app.Winds defaultShutdownTimeout past)
    (hreturned : app.returned = true) : app.dropTasks.Settled := by
  obtain ⟨since, hphase⟩ := hwinds.returned hreturned
  intro conn hmem
  obtain ⟨old, hold, rfl⟩ := List.mem_map.mp hmem
  have hover := hwinds.onTime.returned since hphase old hold
  let kept : Conn := { old with tunnel := none, uploads := 0 }
  have hbehind : kept.leftBehind = false := by simp [kept, Conn.leftBehind, Conn.detached]
  have hended : kept.task.isOver = true := hover
  obtain ⟨hquiet, hclosed⟩ := Conn.quiet_of_over hended hbehind
  refine ⟨hquiet, hclosed, ?_⟩
  cases htask : old.task with
  | finished => exact .inl rfl
  | aborted time =>
      obtain ⟨began, hbegan, hlate⟩ := hwinds.onTime.aborted old hold time htask
      rw [hphase] at hbegan
      obtain rfl := Option.some.inj hbegan
      exact .inr ⟨since, time, hphase, rfl, hwinds.timeout ▸ hlate⟩
  | _ =>
      rw [htask] at hover
      cases hover

end RunningApp

namespace TrayMode

variable {σ : Type*} {base64 : Base64} {sspi : Text → SspiPackage → σ} {env : Environment}
  {mode next : TrayMode σ}

/-- What holds in every run, whatever breaks: the start is reported, the tray comes after it,
and the UI is told to quit before the tray is gone. -/
structure Sound (mode : TrayMode σ) : Prop where
  server : mode.server.Sound mode.now
  reports : mode.server.isStarting = true → mode.reported = none
  received : mode.main ≠ .receiving → mode.reported ≠ none
  unborn : mode.tray ≠ .unborn → mode.main ≠ .receiving ∧ mode.main ≠ .spawningTray
  quits : mode.tray = .ended → mode.listens = true → .quit ∈ mode.commands
  attended : mode.main ≠ .unattended

theorem sound_launched (config : Config) (showWindow : Bool) :
    (launched (σ := σ) config showWindow).Sound :=
  ⟨trivial, fun _ => rfl, fun hmain => absurd rfl hmain, fun htray => absurd rfl htray,
    nofun, nofun⟩

/-- The runtime thread keeps its app sound, and reports before it stops starting. -/
theorem RuntimeSteps.server {event : RuntimeEvent}
    (hsteps : mode.RuntimeSteps base64 sspi env event next)
    (hserver : mode.server.Sound mode.now) (hreports : mode.server.isStarting = true →
      mode.reported = none) :
    next.server.Sound next.now ∧ (next.server.isStarting = true → next.reported = none) ∧
      (mode.reported ≠ none → next.reported ≠ none) := by
  cases hsteps with
  | built config hold => exact ⟨trivial, fun _ => hreports (by rw [hold]; rfl), id⟩
  | unbuilt config hold => exact ⟨trivial, nofun, fun _ => nofun⟩
  | started config app hold hstart =>
      exact ⟨⟨rfl, ⟨[], RunningApp.winds_start _ _ _⟩, rfl⟩, nofun, fun _ => nofun⟩
  | unstarted config err hold => exact ⟨trivial, nofun, fun _ => nofun⟩
  | spawned app hold =>
      rw [hold] at hserver
      exact ⟨⟨hserver.1, hserver.2.1⟩, nofun, id⟩
  | unspawned app hold =>
      rw [hold] at hserver
      refine ⟨fun conn hmem => ?_, nofun, id⟩
      rw [show app.proxy.conns = [] from hserver.2.2] at hmem
      cases hmem
  | early own app after hold houtlives happ =>
      rw [hold] at hserver
      obtain ⟨hnow, ⟨past, hwinds⟩, hconns⟩ := hserver
      obtain ⟨hproxy, -, -⟩ := RunningApp.proxy_of_outlives houtlives happ
      exact ⟨⟨by rw [hproxy, hnow], ⟨_, hwinds.step happ⟩, by rw [hproxy, hconns]⟩, nofun, id⟩
  | served own app after hold hsignal hclock happ =>
      rw [hold] at hserver
      obtain ⟨hnow, past, hwinds⟩ := hserver
      exact ⟨⟨(RunningApp.now_step hclock happ).trans hnow, _, hwinds.step happ⟩, nofun, id⟩
  | late own app after hold houtlives happ =>
      rw [hold] at hserver
      obtain ⟨hproxy, -, -⟩ := RunningApp.proxy_of_outlives houtlives happ
      refine ⟨?_, nofun, id⟩
      show after.Settled
      rw [RunningApp.Settled, hproxy]
      exact hserver
  | dropped app hold hreturned =>
      rw [hold] at hserver
      obtain ⟨-, past, hwinds⟩ := hserver
      exact ⟨hwinds.settled hreturned, nofun, id⟩

theorem server_tick (elapsed : ℕ) (hserver : mode.server.Sound mode.now) :
    (mode.tick elapsed).server.Sound (mode.tick elapsed).now := by
  have hticks : ∀ {past} {app : RunningApp (UpstreamTarget σ) PacRouter},
      app.Winds defaultShutdownTimeout past →
        ∃ past, ({ app with proxy := { app.proxy with now := app.proxy.now + elapsed } } :
          RunningApp (UpstreamTarget σ) PacRouter).Winds defaultShutdownTimeout past := by
    intro past app hwinds
    have hstep : app.step (fun _ => .direct) (.serve (.tick elapsed)) =
        some { app with proxy := { app.proxy with now := app.proxy.now + elapsed } } := rfl
    exact ⟨_, hwinds.step hstep⟩
  unfold tick
  cases hold : mode.server with
  | building config => trivial
  | starting config => trivial
  | started app =>
      rw [hold] at hserver
      obtain ⟨hnow, ⟨past, hwinds⟩, hconns⟩ := hserver
      exact ⟨congrArg (· + elapsed) hnow, hticks hwinds, hconns⟩
  | serving app =>
      rw [hold] at hserver
      obtain ⟨hnow, past, hwinds⟩ := hserver
      exact ⟨congrArg (· + elapsed) hnow, hticks hwinds⟩
  | ended app =>
      rw [hold] at hserver
      cases app with
      | none => trivial
      | some app => exact hserver

/-- A step of the main thread leaves the server alone, and has what it needs. -/
theorem Sound.main {event : MainEvent} (hsound : mode.Sound) (hsteps : mode.MainSteps event next) :
    next.Sound := by
  obtain ⟨hserver, hreports, hreceived, hunborn, hquits, hattended⟩ := hsound
  cases hsteps with
  | received control hmain hsent hcontrol =>
      have hstarted : mode.server.isStarting = false := by
        cases hreported : mode.reported with
        | none =>
            have hover := hsent hreported
            cases hold : mode.server <;> simp_all [ServerThread.isOver, ServerThread.isStarting]
        | some sent =>
            refine Bool.eq_false_iff.mpr fun hstarting => ?_
            rw [hreports hstarting] at hreported
            cases hreported
      refine ⟨hserver, fun hstarting => ?_, fun _ => nofun,
        fun hborn => absurd hmain (hunborn hborn).1, fun hover _ => ?_, nofun⟩
      · exact absurd (hstarted.symm.trans hstarting) nofun
      · exact absurd hmain (hunborn (by rw [hover]; nofun)).1
  | traySpawned hmain =>
      refine ⟨hserver, hreports, fun _ => hreceived (by rw [hmain]; nofun), fun _ => ?_, nofun, ?_⟩
      · cases mode.showWindow <;> exact ⟨nofun, nofun⟩
      · cases mode.showWindow <;> nofun
  | trayUnspawned hmain =>
      exact ⟨hserver, hreports, fun _ => hreceived (by rw [hmain]; nofun), fun _ => ⟨nofun, nofun⟩,
        nofun, nofun⟩
  | asked opens rest hmain hcommands =>
      refine ⟨hserver, hreports, fun _ => hreceived (by rw [hmain]; nofun), fun _ => ⟨nofun, nofun⟩,
        fun hover _ => ?_, nofun⟩
      have hquit := hquits hover (by rw [listens, hmain])
      rw [hcommands] at hquit
      exact (List.mem_cons.mp hquit).resolve_left nofun
  | told opens rest hmain hcommands =>
      exact ⟨hserver, hreports, fun _ => hreceived (by rw [hmain]; nofun), fun _ => ⟨nofun, nofun⟩,
        nofun, nofun⟩
  | gone opens hmain hcommands htray =>
      exact ⟨hserver, hreports, fun _ => hreceived (by rw [hmain]; nofun), fun _ => ⟨nofun, nofun⟩,
        nofun, nofun⟩
  | uiStarted opens hmain =>
      exact ⟨hserver, hreports, fun _ => hreceived (by rw [hmain]; nofun), fun _ => ⟨nofun, nofun⟩,
        fun hover _ => hquits hover (by rw [listens, hmain]), nofun⟩
  | shown opens rest hmain hcommands =>
      refine ⟨hserver, hreports, hreceived, hunborn, fun hover _ => ?_, hattended⟩
      have hquit := hquits hover (by rw [listens, hmain])
      rw [hcommands] at hquit
      exact (List.mem_cons.mp hquit).resolve_left nofun
  | quit opens rest hmain hcommands =>
      exact ⟨hserver, hreports, fun _ => hreceived (by rw [hmain]; nofun), fun _ => ⟨nofun, nofun⟩,
        nofun, nofun⟩
  | left opens hmain hcommands htray =>
      have hquit := hquits htray (by rw [listens, hmain])
      rw [hcommands] at hquit
      cases hquit
  | uiEnded hmain =>
      refine ⟨hserver, hreports, fun _ => hreceived ?_, fun _ => ⟨nofun, nofun⟩, nofun, nofun⟩
      rcases hmain with hmain | hmain <;> rw [hmain] <;> nofun
  | exits hmain =>
      exact ⟨hserver, hreports, fun _ => hreceived (by rw [hmain]; nofun), fun _ => ⟨nofun, nofun⟩,
        nofun, nofun⟩

theorem Sound.tray {event : TrayEvent} (hsound : mode.Sound) (hsteps : mode.TraySteps event next) :
    next.Sound := by
  obtain ⟨hserver, hreports, hreceived, hunborn, hquits, hattended⟩ := hsound
  cases hsteps with
  | added htray =>
      exact ⟨hserver, hreports, hreceived, fun _ => hunborn (by rw [htray]; nofun), nofun,
        hattended⟩
  | unadded htray =>
      exact ⟨hserver, hreports, hreceived, fun _ => hunborn (by rw [htray]; nofun), nofun,
        hattended⟩
  | opened message htray haction =>
      refine ⟨hserver, hreports, hreceived, hunborn, fun hover => ?_, hattended⟩
      exact absurd (htray.symm.trans hover) nofun
  | closed message htray haction =>
      exact ⟨hserver, hreports, hreceived, fun _ => hunborn (by rw [htray]; nofun), nofun,
        hattended⟩
  | ignored message htray haction =>
      exact ⟨hserver, hreports, hreceived, hunborn, hquits, hattended⟩
  | failed htray =>
      exact ⟨hserver, hreports, hreceived, fun _ => hunborn (by rw [htray]; nofun), nofun,
        hattended⟩
  | destroyed htray =>
      exact ⟨hserver, hreports, hreceived, fun _ => hunborn (by rw [htray]; nofun), nofun,
        hattended⟩
  | joined htray hover =>
      exact ⟨hserver, hreports, hreceived, fun _ => hunborn (by rw [htray]; nofun), nofun,
        hattended⟩
  | sent htray =>
      refine ⟨hserver, hreports, hreceived, fun _ => hunborn (by rw [htray]; nofun),
        fun _ hlistens => ?_,
        hattended⟩
      have hlistening : mode.listens = true := hlistens
      simp only [send, hlistening, if_true]
      exact List.mem_append_right _ (List.mem_singleton_self _)

theorem Sound.step {event : ModeEvent} (hsound : mode.Sound)
    (hstep : mode.step base64 sspi env event = some next) : next.Sound := by
  cases (step_cases hstep).2 with
  | tick elapsed =>
      have hserver := server_tick elapsed hsound.server
      refine ⟨hserver, fun hstarting => hsound.reports ?_, hsound.received, hsound.unborn,
        hsound.quits, hsound.attended⟩
      rw [tick] at hstarting
      cases hold : mode.server <;> simp_all [ServerThread.isStarting]
  | runtime own _ hruntime =>
      obtain ⟨hserver, hreports, hreported⟩ := hruntime.server hsound.server hsound.reports
      have hothers : next.main = mode.main ∧ next.tray = mode.tray ∧
          next.commands = mode.commands := by
        cases hruntime <;> exact ⟨rfl, rfl, rfl⟩
      obtain ⟨hmain, htray, hcommands⟩ := hothers
      refine ⟨hserver, hreports, fun hreceived => ?_, fun hborn => ?_, fun hover hlistens => ?_, ?_⟩
      · exact hreported (hsound.received (hmain ▸ hreceived))
      · rw [hmain]
        exact hsound.unborn (htray ▸ hborn)
      · rw [hcommands]
        refine hsound.quits (htray ▸ hover) ?_
        rwa [listens, hmain] at hlistens
      · rw [hmain]
        exact hsound.attended
  | main own _ hmain => exact hsound.main hmain
  | tray own _ htray => exact hsound.tray htray
  | closeWindow id =>
      exact ⟨hsound.server, hsound.reports, hsound.received, hsound.unborn, hsound.quits,
        hsound.attended⟩

theorem sound_of_run {config : Config} {showWindow : Bool} {events : List ModeEvent}
    (hrun : run (TrayMode.step base64 sspi env) (.launched config showWindow) events = some mode) :
    mode.Sound :=
  run_invariant Sound (fun _ _ _ hsound hstep => hsound.step hstep)
    (sound_launched config showWindow) hrun

/-! ## Closing in order -/

end TrayMode

/-- The tray or the UI loop goes without being asked. -/
def ModeEvent.breaks : ModeEvent → Bool
  | .main .endUi => true
  | .main (.spawnTray false) => true
  | .tray (.addIcon false) => true
  | .tray .fail => true
  | .tray .destroy => true
  | _ => false

/-- The user closes the app from the tray's menu. -/
def ModeEvent.closes : ModeEvent → Bool
  | .tray (.message message) => message.action = some .close
  | _ => false

def TrayThread.isClosing : TrayThread → Bool
  | .joining => true
  | .quitting => true
  | .ended => true
  | _ => false

/-- Its pump has returned. -/
def TrayThread.hasQuit : TrayThread → Bool
  | .quitting => true
  | .ended => true
  | _ => false

namespace TrayMode

variable {σ : Type*} {base64 : Base64} {sspi : Text → SspiPackage → σ} {env : Environment}
  {mode next : TrayMode σ}

/-- As long as nothing breaks, each thread ends after the one it waits for: the tray's after
the runtime's, and the main thread after the tray's. -/
structure Orderly (past : List ModeEvent) (mode : TrayMode σ) : Prop where
  asked : mode.tray.isClosing = true → mode.shutdown = true ∧ past.any ModeEvent.closes = true
  joined : mode.tray.hasQuit = true → mode.server.isOver = true
  patient : .quit ∈ mode.commands → mode.tray = .ended
  ending : mode.main = .ending → mode.tray = .ended
  exited : ∀ success, mode.main = .exited success → mode.tray = .ended ∧ success = true

theorem orderly_launched (config : Config) (showWindow : Bool) :
    (launched (σ := σ) config showWindow).Orderly [] :=
  ⟨nofun, nofun, nofun, nofun, nofun⟩

/-- A thread that is over stays over. -/
theorem RuntimeSteps.isOver {event : RuntimeEvent}
    (hsteps : mode.RuntimeSteps base64 sspi env event next) (hover : mode.server.isOver = true) :
    next.server.isOver = true := by
  cases hsteps with
  | late own app after hold houtlives happ => rfl
  | built config hold => simp [hold, ServerThread.isOver] at hover
  | started config app hold hstart => simp [hold, ServerThread.isOver] at hover
  | spawned app hold => simp [hold, ServerThread.isOver] at hover
  | early own app after hold houtlives happ => simp [hold, ServerThread.isOver] at hover
  | served own app after hold hsignal hclock happ => simp [hold, ServerThread.isOver] at hover
  | _ => rfl

theorem isOver_tick (elapsed : ℕ) : (mode.tick elapsed).server.isOver = mode.server.isOver := by
  rw [tick]
  cases mode.server <;> rfl

theorem Orderly.main {past : List ModeEvent} {event : MainEvent} (horderly : mode.Orderly past)
    (hsound : mode.Sound) (hsmooth : (ModeEvent.main event).breaks = false)
    (hsteps : mode.MainSteps event next) :
    next.Orderly past := by
  obtain ⟨hasked, hjoined, hpatient, hending, hexited⟩ := horderly
  cases hsteps with
  | received control hmain hsent hcontrol =>
      exact ⟨hasked, hjoined, hpatient, nofun, nofun⟩
  | traySpawned hmain =>
      refine ⟨nofun, nofun, fun hquit => ?_, ?_, ?_⟩
      · have hunborn : mode.tray = .unborn := by
          by_contra hborn
          exact (hsound.unborn hborn).2 hmain
        exact absurd (hunborn.symm.trans (hpatient hquit)) nofun
      · cases mode.showWindow <;> nofun
      · cases mode.showWindow <;> nofun
  | trayUnspawned hmain => cases hsmooth
  | asked opens rest hmain hcommands =>
      refine ⟨hasked, hjoined, fun hquit => hpatient ?_, nofun, nofun⟩
      rw [hcommands]
      exact List.mem_cons_of_mem _ hquit
  | told opens rest hmain hcommands =>
      have hquit : mode.tray = .ended := hpatient (by rw [hcommands]; exact List.mem_cons_self)
      exact ⟨hasked, hjoined, fun _ => hquit, fun _ => hquit, nofun⟩
  | gone opens hmain hcommands htray =>
      exact ⟨hasked, hjoined, hpatient, fun _ => htray, nofun⟩
  | uiStarted opens hmain => exact ⟨hasked, hjoined, hpatient, nofun, nofun⟩
  | shown opens rest hmain hcommands =>
      refine ⟨hasked, hjoined, fun hquit => hpatient ?_, hending, hexited⟩
      rw [hcommands]
      exact List.mem_cons_of_mem _ hquit
  | quit opens rest hmain hcommands =>
      have hquit : mode.tray = .ended := hpatient (by rw [hcommands]; exact List.mem_cons_self)
      exact ⟨hasked, hjoined, fun _ => hquit, fun _ => hquit, nofun⟩
  | left opens hmain hcommands htray => exact ⟨hasked, hjoined, hpatient, nofun, nofun⟩
  | uiEnded hmain => cases hsmooth
  | exits hmain =>
      have hover := hending hmain
      refine ⟨fun hclosing => ⟨rfl, (hasked hclosing).2⟩, hjoined, hpatient, nofun, ?_⟩
      rintro success ⟨⟩
      exact ⟨hover, rfl⟩

theorem Orderly.tray {past : List ModeEvent} {event : TrayEvent} (horderly : mode.Orderly past)
    (hsmooth : (ModeEvent.tray event).breaks = false) (hsteps : mode.TraySteps event next) :
    next.Orderly (past ++ [ModeEvent.tray event]) := by
  obtain ⟨hasked, hjoined, hpatient, hending, hexited⟩ := horderly
  have hpast : past.any ModeEvent.closes = true →
      (past ++ [ModeEvent.tray event]).any ModeEvent.closes = true := by
    intro hclosed
    rw [List.any_append, hclosed, Bool.true_or]
  -- before the tray is over nothing has ended, and nobody is told to quit
  have hbefore : ∀ tray, mode.tray = tray → tray ≠ .ended →
      .quit ∉ mode.commands ∧ mode.main ≠ .ending ∧ ∀ success, mode.main ≠ .exited success := by
    intro tray htray hover
    rw [← htray] at hover
    exact ⟨fun hquit => hover (hpatient hquit), fun hmain => hover (hending hmain),
      fun success hmain => hover (hexited success hmain).1⟩
  cases hsteps with
  | added htray =>
      obtain ⟨hquit, hmain, hruns⟩ := hbefore _ htray nofun
      exact ⟨nofun, nofun, fun hnext => absurd hnext hquit,
        fun hnext => absurd hnext hmain, fun success hnext => absurd hnext (hruns success)⟩
  | unadded htray => cases hsmooth
  | opened message htray haction =>
      obtain ⟨hquit, hmain, hruns⟩ := hbefore _ htray nofun
      refine ⟨fun hclosing => ?_, hjoined, fun hnext => absurd hnext ?_,
        fun hnext => absurd hnext hmain, fun success hnext => absurd hnext (hruns success)⟩
      · obtain ⟨hshutdown, hclosed⟩ := hasked hclosing
        exact ⟨hshutdown, hpast hclosed⟩
      · simp only [send]
        split
        · simpa using hquit
        · exact hquit
  | closed message htray haction =>
      obtain ⟨hquit, hmain, hruns⟩ := hbefore _ htray nofun
      refine ⟨fun _ => ⟨rfl, ?_⟩, nofun, fun hnext => absurd hnext hquit,
        fun hnext => absurd hnext hmain,
        fun success hnext => absurd hnext (hruns success)⟩
      rw [List.any_append]
      simp [ModeEvent.closes, haction]
  | ignored message htray haction =>
      exact ⟨fun hclosing => (hasked hclosing).imp id hpast, hjoined, hpatient, hending, hexited⟩
  | failed htray => cases hsmooth
  | destroyed htray => cases hsmooth
  | joined htray hover =>
      obtain ⟨hquit, hmain, hruns⟩ := hbefore _ htray nofun
      exact ⟨fun _ => (hasked (by rw [htray]; rfl)).imp id hpast, fun _ => hover,
        fun hnext => absurd hnext hquit, fun hnext => absurd hnext hmain,
        fun success hnext => absurd hnext (hruns success)⟩
  | sent htray =>
      obtain ⟨hquit, hmain, hruns⟩ := hbefore _ htray nofun
      exact ⟨fun _ => (hasked (by rw [htray]; rfl)).imp id hpast,
        fun _ => hjoined (by rw [htray]; rfl),
        fun _ => rfl, fun _ => rfl, fun success hnext => absurd hnext (hruns success)⟩

theorem Orderly.step {past : List ModeEvent} {event : ModeEvent} (horderly : mode.Orderly past)
    (hsound : mode.Sound) (hsmooth : event.breaks = false)
    (hstep : mode.step base64 sspi env event = some next) : next.Orderly (past ++ [event]) := by
  obtain ⟨-, hsteps⟩ := step_cases hstep
  have hlater : ∀ {after : TrayMode σ}, after.Orderly past → after.Orderly (past ++ [event]) := by
    rintro after ⟨hasked, hjoined, hpatient, hending, hexited⟩
    refine ⟨fun hclosing => (hasked hclosing).imp id fun hclosed => ?_, hjoined, hpatient, hending,
      hexited⟩
    rw [List.any_append, hclosed, Bool.true_or]
  cases hsteps with
  | tick elapsed =>
      exact hlater ⟨horderly.asked, fun hclosing =>
        (isOver_tick elapsed).trans (horderly.joined hclosing), horderly.patient, horderly.ending,
        horderly.exited⟩
  | runtime own _ hruntime =>
      have hothers : next.main = mode.main ∧ next.tray = mode.tray ∧
          next.commands = mode.commands ∧ next.shutdown = mode.shutdown := by
        cases hruntime <;> exact ⟨rfl, rfl, rfl, rfl⟩
      obtain ⟨hmain, htray, hcommands, hshutdown⟩ := hothers
      refine hlater ⟨?_, ?_, ?_, ?_, ?_⟩
      · rw [htray, hshutdown]
        exact horderly.asked
      · rw [htray]
        exact fun hclosing => hruntime.isOver (horderly.joined hclosing)
      · rw [hcommands, htray]
        exact horderly.patient
      · rw [hmain, htray]
        exact horderly.ending
      · rw [hmain, htray]
        exact horderly.exited
  | main own _ hmain => exact hlater (horderly.main hsound hsmooth hmain)
  | tray own _ htray => exact horderly.tray hsmooth htray
  | closeWindow id =>
      exact hlater ⟨horderly.asked, horderly.joined, horderly.patient, horderly.ending,
        horderly.exited⟩

end TrayMode

/-- Once the runtime thread was spawned, in a run in which neither the tray nor the UI loop goes
by itself, the process exits only after a `Close`, with the runtime thread ended and every
connection's task finished, or aborted after the drain's timeout. -/
theorem exits_after_drain {σ : Type*} {base64 : Base64} {sspi : Text → SspiPackage → σ}
    {env : Environment} {config : Config} {showWindow : Bool} {events : List ModeEvent}
    {final : TrayMode σ}
    (hrun : run (TrayMode.step base64 sspi env) (.launched config showWindow) events = some final)
    (hsmooth : ∀ event ∈ events, event.breaks = false) {success : Bool}
    (hexited : final.main = .exited success) :
    success = true ∧ (∃ event ∈ events, event.closes = true) ∧
      ∃ app, final.server = .ended app ∧ ∀ app' ∈ app, app'.Settled := by
  have horderly : final.Orderly events := by
    refine (run_history_invariant
      (fun past mode => mode.Sound ∧ ((∀ event ∈ past, event.breaks = false) → mode.Orderly past))
      ⟨TrayMode.sound_launched config showWindow, fun _ =>
        TrayMode.orderly_launched config showWindow⟩ ?_ hrun).2 hsmooth
    rintro past mode event next ⟨hsound, hpast⟩ hstep
    refine ⟨hsound.step hstep, fun hall => ?_⟩
    obtain ⟨hbefore, hlast⟩ := List.forall_mem_append.mp hall
    exact (hpast hbefore).step hsound (hlast event (List.mem_singleton_self event)) hstep
  obtain ⟨hover, hsuccess⟩ := horderly.exited success hexited
  obtain ⟨-, hclosed⟩ := horderly.asked (by rw [hover]; rfl)
  have hended := horderly.joined (by rw [hover]; rfl)
  have hserver := (TrayMode.sound_of_run hrun).server
  refine ⟨hsuccess, List.any_eq_true.mp hclosed, ?_⟩
  cases hold : final.server with
  | ended app =>
      refine ⟨app, rfl, ?_⟩
      rintro app' rfl
      rw [hold] at hserver
      exact hserver
  | _ => simp [hold, ServerThread.isOver] at hended

/-- A background start, one `Open`, and a `Close` that finds a connection which never ends. -/
def closingRun : List ModeEvent :=
  [.runtime (.buildRuntime true), .runtime .startApp, .main .receive, .main (.spawnTray true),
    .runtime (.spawnMonitor true), .tray (.addIcon true), .tray (.message .leftClick),
    .main (.command true), .main (.startUi true), .runtime (.app .accept),
    .tray (.message (.menu [.leftClick] closeId)), .runtime (.app .signal),
    .runtime (.app (.serve .shutdown)), .tick 10, .runtime (.app (.serve .timeout)),
    .runtime (.app (.serve (.abort 0))), .runtime (.app (.serve (.conn 0 .join))),
    .runtime (.app (.serve .finish)), .runtime (.app .finish), .runtime .dropRuntime,
    .tray .joined, .tray .sendQuit, .main (.command true), .main .exit]

def plainEnvironment : Environment := ⟨⟨true⟩, true, true, []⟩

theorem exits_after_drain_closingRun :
    ∃ final app, run (TrayMode.step standardBase64 noSspi plainEnvironment)
        (.launched {} false) closingRun = some final ∧
      final.main = .exited true ∧ final.server = .ended (some app) ∧
      app.proxy.conns.map Conn.task = [.aborted 10] ∧ app.Settled := by
  obtain ⟨-, -, app, happ, hsettled⟩ := exits_after_drain
    (rfl : run (TrayMode.step standardBase64 noSspi plainEnvironment) (.launched {} false)
      closingRun = some _) (by decide) rfl
  obtain rfl := ServerThread.ended.inj happ
  exact ⟨_, _, rfl, rfl, rfl, rfl, hsettled _ rfl⟩

/-! ## The window -/

/-- The user asks for the window from the tray. -/
def ModeEvent.opens : ModeEvent → Bool
  | .tray (.message message) => message.action = some .openWindow
  | _ => false

/-- The UI toolkit is running or about to. -/
def MainThread.inUi : MainThread → Bool
  | .startingUi => true
  | .looping => true
  | .unattended => true
  | _ => false

namespace MainWindow

/-- At most one window is open, and it is the one that the handle names. -/
def AtMostOne (window : MainWindow) : Prop :=
  window.windows = [] ∨ ∃ id, window.handle = some id ∧ window.windows = [id]

theorem AtMostOne.show {window : MainWindow} (hone : window.AtMostOne) (opens : Bool) :
    (window.show opens).AtMostOne := by
  rcases hone with hnone | ⟨id, hhandle, hwindows⟩
  · unfold MainWindow.show
    have hgone : window.handle.any (· ∈ window.windows) = false := by simp [hnone]
    rw [hgone]
    cases opens with
    | false => exact .inl hnone
    | true => exact .inr ⟨window.opened, rfl, by simp [hnone]⟩
  · have hkept : window.show opens = window := by
      rw [MainWindow.show, if_pos (by simp [hhandle, hwindows])]
    rw [hkept]
    exact .inr ⟨id, hhandle, hwindows⟩

theorem AtMostOne.erase {window : MainWindow} (hone : window.AtMostOne) (closed : ℕ) :
    ({ window with windows := window.windows.erase closed } : MainWindow).AtMostOne := by
  rcases hone with hnone | ⟨id, hhandle, hwindows⟩
  · exact .inl (by simp [hnone])
  · by_cases hclosed : id = closed
    · exact .inl (by simp [hwindows, hclosed])
    · exact .inr ⟨id, hhandle, by simp [hwindows, hclosed]⟩

end MainWindow

namespace TrayMode

variable {σ : Type*} {base64 : Base64} {sspi : Text → SspiPackage → σ} {env : Environment}
  {mode next : TrayMode σ}

/-- Where a window comes from. -/
structure Windowed (showWindow : Bool) (past : List ModeEvent) (mode : TrayMode σ) : Prop where
  one : mode.window.AtMostOne
  inUi : mode.window.windows ≠ [] → mode.main = .looping
  unread : mode.main = .receiving → mode.showWindow = showWindow
  shows : mode.showWindow = true →
    showWindow = true ∨ ∃ failure, mode.reported = some (.error failure)
  sent : .showWindow ∈ mode.commands → past.any ModeEvent.opens = true
  asked : mode.main.inUi = true → mode.showWindow = true ∨ past.any ModeEvent.opens = true

theorem windowed_launched (config : Config) (showWindow : Bool) :
    (launched (σ := σ) config showWindow).Windowed showWindow [] :=
  ⟨.inl rfl, fun hne => absurd rfl hne, fun _ => rfl, .inl, nofun, nofun⟩

theorem Windowed.main {showWindow : Bool} {past : List ModeEvent} {event : MainEvent}
    (hwindowed : mode.Windowed showWindow past) (hsound : mode.Sound)
    (hsteps : mode.MainSteps event next) : next.Windowed showWindow past := by
  obtain ⟨hone, hinUi, hunread, hshows, hsent, hasked⟩ := hwindowed
  have hclosed : ∀ {main}, mode.main = main → main ≠ .looping → mode.window.windows = [] := by
    intro main hmain hother
    by_contra hne
    exact hother (hmain ▸ hinUi hne)
  cases hsteps with
  | received control hmain hready hcontrol =>
      refine ⟨hone, fun hne => absurd (hclosed hmain nofun) hne, nofun, fun hshow => ?_,
        hsent, nofun⟩
      rw [hunread hmain] at hshow
      cases control with
      | ok => exact .inl (by simpa [Except.isOk, Except.toBool] using hshow)
      | error failure => exact .inr ⟨failure, rfl⟩
  | traySpawned hmain =>
      refine ⟨hone, fun hne => absurd (hclosed hmain nofun) hne, ?_, hshows, hsent, fun hui => ?_⟩
      · cases mode.showWindow <;> nofun
      · cases hshow : mode.showWindow with
        | true => exact .inl rfl
        | false => simp [hshow, MainThread.inUi] at hui
  | trayUnspawned hmain =>
      exact ⟨hone, fun hne => absurd (hclosed hmain nofun) hne, nofun, hshows, hsent, nofun⟩
  | asked opens rest hmain hcommands =>
      have hopened : past.any ModeEvent.opens = true :=
        hsent (by rw [hcommands]; exact List.mem_cons_self)
      exact ⟨hone, fun hne => absurd (hclosed hmain nofun) hne, nofun, hshows, fun _ => hopened,
        fun _ => .inr hopened⟩
  | told opens rest hmain hcommands =>
      refine ⟨hone, fun hne => absurd (hclosed hmain nofun) hne, nofun, hshows,
        fun hmem => ?_, nofun⟩
      exact hsent (by rw [hcommands]; exact List.mem_cons_of_mem _ hmem)
  | gone opens hmain hcommands htray =>
      exact ⟨hone, fun hne => absurd (hclosed hmain nofun) hne, nofun, hshows, hsent, nofun⟩
  | uiStarted opens hmain =>
      exact ⟨hone.show opens, fun _ => rfl, nofun, hshows, hsent,
        fun _ => hasked (by rw [hmain]; rfl)⟩
  | shown opens rest hmain hcommands =>
      refine ⟨hone.show opens, fun _ => hmain, hunread, hshows, fun hmem => ?_, hasked⟩
      exact hsent (by rw [hcommands]; exact List.mem_cons_of_mem _ hmem)
  | quit opens rest hmain hcommands =>
      refine ⟨.inl rfl, fun hne => absurd rfl hne, nofun, hshows, fun hmem => ?_, nofun⟩
      exact hsent (by rw [hcommands]; exact List.mem_cons_of_mem _ hmem)
  | left opens hmain hcommands htray =>
      have hquit := hsound.quits htray (by rw [listens, hmain])
      rw [hcommands] at hquit
      cases hquit
  | uiEnded hmain => exact ⟨.inl rfl, fun hne => absurd rfl hne, nofun, hshows, hsent, nofun⟩
  | exits hmain =>
      exact ⟨hone, fun hne => absurd (hclosed hmain nofun) hne, nofun, hshows, hsent, nofun⟩

/-- A thread that has reported its start does not report again. -/
theorem RuntimeSteps.reported {event : RuntimeEvent} (hsound : mode.Sound)
    (hsteps : mode.RuntimeSteps base64 sspi env event next) (hread : mode.main ≠ .receiving) :
    next.reported = mode.reported := by
  have hstarted : mode.server.isStarting = true → False :=
    fun hstarting => hsound.received hread (hsound.reports hstarting)
  cases hsteps with
  | unbuilt config hold => exact (hstarted (by rw [hold]; rfl)).elim
  | started config app hold hstart => exact (hstarted (by rw [hold]; rfl)).elim
  | unstarted config err hold => exact (hstarted (by rw [hold]; rfl)).elim
  | _ => rfl

theorem Windowed.step {showWindow : Bool} {past : List ModeEvent} {event : ModeEvent}
    (hwindowed : mode.Windowed showWindow past) (hsound : mode.Sound)
    (hstep : mode.step base64 sspi env event = some next) :
    next.Windowed showWindow (past ++ [event]) := by
  have hpast : past.any ModeEvent.opens = true → (past ++ [event]).any ModeEvent.opens = true := by
    intro hopened
    rw [List.any_append, hopened, Bool.true_or]
  have hlater : ∀ {after : TrayMode σ}, after.Windowed showWindow past →
      after.Windowed showWindow (past ++ [event]) := by
    rintro after ⟨hone, hinUi, hunread, hshows, hsent, hasked⟩
    exact ⟨hone, hinUi, hunread, hshows, fun hmem => hpast (hsent hmem),
      fun hui => (hasked hui).imp id hpast⟩
  cases (step_cases hstep).2 with
  | tick elapsed =>
      exact hlater ⟨hwindowed.one, hwindowed.inUi, hwindowed.unread, hwindowed.shows,
        hwindowed.sent, hwindowed.asked⟩
  | runtime own _ hruntime =>
      have hothers : next.main = mode.main ∧ next.showWindow = mode.showWindow ∧
          next.commands = mode.commands ∧ next.window = mode.window := by
        cases hruntime <;> exact ⟨rfl, rfl, rfl, rfl⟩
      obtain ⟨hmain, hshow, hcommands, hwindow⟩ := hothers
      obtain ⟨hone, hinUi, hunread, hshows, hsent, hasked⟩ := hwindowed
      rw [← hwindow] at hone
      rw [← hwindow, ← hmain] at hinUi
      rw [← hmain, ← hshow] at hunread
      rw [← hcommands] at hsent
      rw [← hmain, ← hshow] at hasked
      refine hlater ⟨hone, hinUi, hunread, fun hshown => ?_, hsent, hasked⟩
      by_cases hread : mode.main = .receiving
      · exact .inl ((hunread (hmain.trans hread)).symm.trans hshown)
      · rw [hruntime.reported hsound hread]
        exact hshows (hshow.symm.trans hshown)
  | main own _ hmain => exact hlater (hwindowed.main hsound hmain)
  | tray own _ htray =>
      cases htray with
      | opened message hpumping haction =>
          refine ⟨hwindowed.one, hwindowed.inUi, hwindowed.unread, hwindowed.shows, fun _ => ?_,
            fun hui => (hwindowed.asked hui).imp id hpast⟩
          rw [List.any_append]
          simp [ModeEvent.opens, haction]
      | sent hquitting =>
          refine hlater ⟨hwindowed.one, hwindowed.inUi, hwindowed.unread, hwindowed.shows,
            fun hmem => hwindowed.sent ?_, hwindowed.asked⟩
          simp only [send] at hmem
          split at hmem
          · simpa using hmem
          · exact hmem
      | _ =>
          exact hlater ⟨hwindowed.one, hwindowed.inUi, hwindowed.unread, hwindowed.shows,
            hwindowed.sent, hwindowed.asked⟩
  | closeWindow id =>
      refine hlater ⟨hwindowed.one.erase id, fun hne => hwindowed.inUi fun hnone => hne ?_,
        hwindowed.unread, hwindowed.shows, hwindowed.sent, hwindowed.asked⟩
      simp [hnone]

end TrayMode

/-- In every run at most one window is open, the one its handle names, and the UI toolkit is
started only to show the window from the start, to report a failed start, or once the user
has asked for it; a UI loop never goes on with nobody to quit it. -/
theorem window_on_request {σ : Type*} {base64 : Base64} {sspi : Text → SspiPackage → σ}
    {env : Environment} {config : Config} {showWindow : Bool} {events : List ModeEvent}
    {final : TrayMode σ}
    (hrun : run (TrayMode.step base64 sspi env) (.launched config showWindow) events =
      some final) :
    final.window.AtMostOne ∧ final.main ≠ .unattended ∧
      (final.window.windows ≠ [] → final.main = .looping) ∧
      (final.main.inUi = true → showWindow = true ∨
        (∃ failure, final.reported = some (.error failure)) ∨
        ∃ event ∈ events, event.opens = true) := by
  obtain ⟨hsound, hone, hinUi, -, hshows, -, hasked⟩ :=
    run_history_invariant
      (fun past mode => mode.Sound ∧ mode.Windowed showWindow past)
      ⟨TrayMode.sound_launched config showWindow, TrayMode.windowed_launched config showWindow⟩
      (fun _ _ _ _ hinv hstep => ⟨hinv.1.step hstep, hinv.2.step hinv.1 hstep⟩) hrun
  refine ⟨hone, hsound.attended, hinUi, fun hui => ?_⟩
  rcases hasked hui with hshown | hopened
  · exact (hshows hshown).imp id .inl
  · exact .inr (.inr (List.any_eq_true.mp hopened))

/-- In the background start above the window is the one that the user asked for. -/
theorem window_on_request_opened :
    ∃ final, run (TrayMode.step standardBase64 noSspi plainEnvironment) (.launched {} false)
        (closingRun.take 9) = some final ∧
      final.window.windows = [0] ∧ final.window.AtMostOne ∧
      ∃ event ∈ closingRun.take 9, event.opens = true := by
  obtain ⟨hone, -, -, hasked⟩ := window_on_request
    (rfl : run (TrayMode.step standardBase64 noSspi plainEnvironment) (.launched {} false)
      (closingRun.take 9) = some _)
  refine ⟨_, rfl, rfl, hone, ?_⟩
  rcases hasked rfl with hshown | ⟨failure, hfailed⟩ | hopened
  · cases hshown
  · cases hfailed
  · exact hopened

end Zicade.App
