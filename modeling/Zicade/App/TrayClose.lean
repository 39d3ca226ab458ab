import Zicade.App.TrayMode
import Zicade.Foundation.Liveness

/-! # Close ends the process

After `Close` the runtime thread winds down, the tray thread waits for it, and the main
thread waits for the tray's word. Each wait is for a thread that comes closer to its end
with every step, so in a fair execution the process exits.
-/

namespace Zicade.App

open Zicade.Foundation Zicade.Auth Zicade.Schema Zicade.Netmon
open Zicade.Proxy (ProxyServer ServerEvent Conn)

/-! ## The app -/

namespace RunningApp

variable {Target Router : Type*} {buildRouting : Config → Routing Target Router}
  {app next : RunningApp Target Router} {event : AppEvent}

/-- A step that `App::run` takes by itself. -/
def own (app : RunningApp Target Router) : AppEvent → Bool
  | .signal => true
  | .serve event => app.proxy.drains event
  | .finish => true
  | _ => false

/-- How far the app is from its return. -/
def stage (app : RunningApp Target Router) : ℕ :=
  (!app.driven).toNat + (!app.returned).toNat + app.proxy.phase.stage

theorem stage_le (app : RunningApp Target Router) : app.stage ≤ 5 := by
  have hdriven := Bool.toNat_le (!app.driven)
  have hreturned := Bool.toNat_le (!app.returned)
  have hphase : app.proxy.phase.stage ≤ 3 := by
    cases app.proxy.phase <;> simp [Proxy.Phase.stage]
  rw [stage]
  omega

/-- A step leaves the app where it is or brings it closer to its return, as its own do. -/
theorem step_remaining (hstep : app.step buildRouting event = some next) :
    (next.stage < app.stage ∨ next.stage = app.stage ∧ next.proxy.owed ≤ app.proxy.owed) ∧
      (app.own event = true →
        next.stage < app.stage ∨ next.stage = app.stage ∧ next.proxy.owed < app.proxy.owed) ∧
      (app.own event = false → next.proxy.deadline = app.proxy.deadline) := by
  cases step_cases hstep with
  | signal hwaits =>
      have hless : (!true).toNat + (!app.returned).toNat + app.proxy.phase.stage < app.stage := by
        simp [stage, hwaits]
      exact ⟨.inl hless, fun _ => .inl hless, fun hother => (by cases hother)⟩
  | finish since hserved hdriven hruns =>
      have hless : (!app.driven).toNat + (!true).toNat + app.proxy.phase.stage < app.stage := by
        simp [stage, hruns]
      exact ⟨.inl hless, fun _ => .inl hless, fun hother => (by cases hother)⟩
  | accept proxy hproxy =>
      obtain ⟨haccepting, rfl⟩ := accept_cases hproxy
      refine ⟨.inr ⟨rfl, ?_⟩, fun hown => (by cases hown), fun _ => rfl⟩
      simp [ProxyServer.owed, haccepting, Proxy.Phase.isDown]
  | serve own proxy haccept hshutdown hproxy =>
      obtain ⟨hle, hless, hstays⟩ := ProxyServer.step_remaining hproxy
      rw [ProxyServer.remaining, ProxyServer.remaining, Prod.Lex.toLex_le_toLex] at hle
      rw [ProxyServer.remaining, ProxyServer.remaining, Prod.Lex.toLex_lt_toLex] at hless
      refine ⟨hle.imp (fun hphase => ?_) (fun hphase => ⟨?_, hphase.2⟩),
        fun hdrains => (hless hdrains).imp (fun hphase => ?_) (fun hphase => ⟨?_, hphase.2⟩),
        fun hother => ?_⟩
      · simp only [stage] at hphase ⊢
        omega
      · simp only [stage]
        have hsame := hphase.1
        dsimp only at hsame
        omega
      · simp only [stage] at hphase ⊢
        omega
      · simp only [stage]
        have hsame := hphase.1
        dsimp only at hsame
        omega
      · rw [ProxyServer.deadline, ProxyServer.deadline, hstays hother, (proxy_step hproxy).1]
  | _ => exact ⟨.inr ⟨rfl, le_rfl⟩, fun hown => (by cases hown), fun _ => rfl⟩

theorem step_serve {own : ServerEvent} (haccept : ∀ mode, own ≠ .accept mode)
    (hshutdown : own ≠ .shutdown) :
    app.step buildRouting (.serve own) =
      (app.proxy.step own).map fun proxy => { app with proxy } := by
  rw [step]
  unfold stepServe
  split
  next mode => exact absurd rfl (haccept mode)
  next => exact absurd rfl hshutdown
  next => rfl

variable (buildRouting) in
/-- An app that has its signal coming and has not returned has a step to take, once the drain
is late enough. -/
theorem exists_own {shutdownTimeout : ℕ} {past : List AppEvent}
    (hwinds : app.Winds shutdownTimeout past) (hruns : app.returned = false)
    (hlate : app.proxy.deadline ≤ app.proxy.now) :
    ∃ event, app.own event = true ∧ (∀ elapsed, event ≠ .serve (.tick elapsed)) ∧
      (app.step buildRouting event).isSome := by
  cases hdriven : app.driven with
  | false => exact ⟨.signal, rfl, by simp, by simp [step, hdriven]⟩
  | true =>
      have hshutdown := hwinds.driven hdriven
      cases hphase : app.proxy.phase with
      | accepting =>
          refine ⟨.serve .shutdown, rfl, by simp, ?_⟩
          simp [step, stepServe, hshutdown, ProxyServer.step, hphase]
      | returned since =>
          exact ⟨.finish, rfl, by simp, by simp [step, hphase, hdriven, hruns]⟩
      | _ =>
          have hdown : app.proxy.phase.isDown = true := by
            rw [hphase]
            rfl
          obtain ⟨own, hother, hdrains, hsome⟩ :=
            ProxyServer.exists_drains hdown (by simp [hphase]) hlate
          refine ⟨.serve own, hdrains, ?_, ?_⟩
          · rintro elapsed ⟨⟩
            cases hdrains
          · rw [step_serve ?_ hother]
            · simpa using hsome
            · rintro mode rfl
              cases hdrains

end RunningApp

/-! ## The ranks of the threads -/

def ServerThread.stage {σ : Type*} : ServerThread σ → ℕ
  | .building _ => 10
  | .starting _ => 9
  | .started _ => 8
  | .serving app => 2 + app.stage
  | .ended _ => 0

/-- What the drain has left to do. -/
def ServerThread.owed {σ : Type*} : ServerThread σ → ℕ
  | .serving app => app.proxy.owed
  | _ => 0

def ServerThread.deadline {σ : Type*} : ServerThread σ → ℕ
  | .serving app => app.proxy.deadline
  | _ => 0

def MainThread.stage : MainThread → ℕ
  | .receiving => 7
  | .spawningTray => 6
  | .waiting => 4
  | .startingUi => 3
  | .looping => 2
  | .unattended => 2
  | .ending => 1
  | .exited _ => 0

def TrayThread.stage : TrayThread → ℕ
  | .unborn => 7
  | .adding => 6
  | .pumping => 5
  | .joining => 4
  | .quitting => 2
  | .ended => 0

/-- A step that the process takes by itself, and not its user, its clients or the clock. -/
def TrayMode.own {σ : Type*} (mode : TrayMode σ) : ModeEvent → Bool
  | .runtime (.app event) =>
      match mode.server with
      | .serving app => app.own event
      | _ => false
  | .runtime _ => true
  | .main .endUi => false
  | .main _ => true
  | .tray .joined => true
  | .tray .sendQuit => true
  | _ => false

namespace TrayMode

variable {σ : Type*} {base64 : Base64} {sspi : Text → SspiPackage → σ} {env : Environment}
  {mode next : TrayMode σ}

def stage (mode : TrayMode σ) : ℕ :=
  mode.server.stage + mode.main.stage + mode.tray.stage + mode.commands.length

def rank (mode : TrayMode σ) : ℕ ×ₗ ℕ := toLex (mode.stage, mode.server.owed)

def hasExited (mode : TrayMode σ) : Prop := ∃ success, mode.main = .exited success

/-- From a `Close` on, the tray thread waits for the runtime's and then quits. -/
structure Closing (mode : TrayMode σ) : Prop where
  sound : mode.Sound
  shutdown : mode.shutdown = true
  tray : mode.tray.isClosing = true
  joined : mode.tray.hasQuit = true → mode.server.isOver = true

theorem closing_of_closes {event : ModeEvent} (hsound : mode.Sound) (hcloses : event.closes = true)
    (hstep : mode.step base64 sspi env event = some next) : next.Closing := by
  have hnext := hsound.step hstep
  cases (step_cases hstep).2 with
  | tray own _ hown =>
      cases hown with
      | closed message hpumping haction => exact ⟨hnext, rfl, rfl, nofun⟩
      | opened message hpumping haction => simp [ModeEvent.closes, haction] at hcloses
      | ignored message hpumping haction => simp [ModeEvent.closes, haction] at hcloses
      | _ => cases hcloses
  | _ => cases hcloses

theorem Closing.step {event : ModeEvent} (hclosing : mode.Closing)
    (hstep : mode.step base64 sspi env event = some next) : next.Closing := by
  obtain ⟨hsound, hshutdown, htray, hjoined⟩ := hclosing
  have hnext := hsound.step hstep
  cases (step_cases hstep).2 with
  | tick elapsed =>
      exact ⟨hnext, hshutdown, htray, fun hquit => (isOver_tick elapsed).trans (hjoined hquit)⟩
  | runtime own _ hruntime =>
      have hothers : next.tray = mode.tray ∧ next.shutdown = mode.shutdown := by
        cases hruntime <;> exact ⟨rfl, rfl⟩
      obtain ⟨hsame, hset⟩ := hothers
      exact ⟨hnext, hset.trans hshutdown, hsame ▸ htray,
        fun hquit => hruntime.isOver (hjoined (hsame ▸ hquit))⟩
  | main own _ hmain =>
      cases hmain with
      | traySpawned hspawning =>
          have hborn : mode.tray ≠ .unborn := by
            intro hunborn
            rw [hunborn] at htray
            cases htray
          exact absurd hspawning (hsound.unborn hborn).2
      | trayUnspawned hspawning => exact ⟨hnext, rfl, htray, hjoined⟩
      | exits hending => exact ⟨hnext, rfl, htray, hjoined⟩
      | _ => exact ⟨hnext, hshutdown, htray, hjoined⟩
  | tray own _ hown =>
      cases hown with
      | joined hjoining hover => exact ⟨hnext, hshutdown, rfl, fun _ => hover⟩
      | sent hquitting =>
          exact ⟨hnext, hshutdown, rfl, fun _ => hjoined (by rw [hquitting]; rfl)⟩
      | added hother => simp [hother, TrayThread.isClosing] at htray
      | unadded hother => simp [hother, TrayThread.isClosing] at htray
      | opened message hother haction => simp [hother, TrayThread.isClosing] at htray
      | closed message hother haction => simp [hother, TrayThread.isClosing] at htray
      | ignored message hother haction => simp [hother, TrayThread.isClosing] at htray
      | failed hother => simp [hother, TrayThread.isClosing] at htray
      | destroyed hother => simp [hother, TrayThread.isClosing] at htray
  | closeWindow id => exact ⟨hnext, hshutdown, htray, hjoined⟩

/-- A step to a smaller stage, or to one where the drain owes less. -/
theorem rank_lt (hless : next.stage < mode.stage ∨
    next.stage = mode.stage ∧ next.server.owed < mode.server.owed) : next.rank < mode.rank := by
  rw [rank, rank, Prod.Lex.toLex_lt_toLex]
  exact hless

theorem rank_le (hle : next.stage < mode.stage ∨
    next.stage = mode.stage ∧ next.server.owed ≤ mode.server.owed) : next.rank ≤ mode.rank := by
  rw [rank, rank, Prod.Lex.toLex_le_toLex]
  exact hle

/-- The runtime thread gets no further from its end, and its own steps bring it closer. -/
theorem RuntimeSteps.remaining {event : RuntimeEvent}
    (hsteps : mode.RuntimeSteps base64 sspi env event next) :
    next.rank ≤ mode.rank ∧ (mode.own (.runtime event) = true → next.rank < mode.rank) ∧
      (mode.own (.runtime event) = false → next.server.deadline ≤ mode.server.deadline) := by
  have hothers : next.main = mode.main ∧ next.tray = mode.tray ∧
      next.commands = mode.commands := by
    cases hsteps <;> exact ⟨rfl, rfl, rfl⟩
  obtain ⟨hmain, htray, hcommands⟩ := hothers
  have hlower : next.server.stage < mode.server.stage → next.rank < mode.rank := by
    intro hless
    refine rank_lt (.inl ?_)
    rw [stage, stage, hmain, htray, hcommands]
    omega
  cases hsteps with
  | built config hold =>
      have hless := hlower (by rw [hold]; exact Nat.lt_succ_self 9)
      exact ⟨hless.le, fun _ => hless, nofun⟩
  | unbuilt config hold =>
      have hless := hlower (by rw [hold]; exact Nat.succ_pos 9)
      exact ⟨hless.le, fun _ => hless, nofun⟩
  | started config app hold hstart =>
      have hless := hlower (by rw [hold]; exact Nat.lt_succ_self 8)
      exact ⟨hless.le, fun _ => hless, nofun⟩
  | unstarted config err hold =>
      have hless := hlower (by rw [hold]; exact Nat.succ_pos 8)
      exact ⟨hless.le, fun _ => hless, nofun⟩
  | spawned app hold =>
      have hstage := app.stage_le
      have hless := hlower (by rw [hold]; simp only [ServerThread.stage]; omega)
      exact ⟨hless.le, fun _ => hless, nofun⟩
  | unspawned app hold =>
      have hless := hlower (by rw [hold]; exact Nat.succ_pos 7)
      exact ⟨hless.le, fun _ => hless, nofun⟩
  | early own app after hold houtlives happ =>
      refine ⟨rank_le (.inr ?_), fun hown => ?_, fun _ => Nat.zero_le _⟩
      · rw [stage, stage, hold]
        exact ⟨rfl, le_rfl⟩
      · rw [TrayMode.own, hold] at hown
        cases hown
  | served own app after hold hsignal hclock happ =>
      obtain ⟨hle, hless, hdeadline⟩ := RunningApp.step_remaining happ
      rw [TrayMode.own, hold]
      have hstage : mode.stage =
          2 + app.stage + mode.main.stage + mode.tray.stage + mode.commands.length := by
        rw [stage, hold]
        rfl
      have howed : mode.server.owed = app.proxy.owed := by
        rw [hold]
        rfl
      refine ⟨rank_le ?_, fun hown => rank_lt ?_, fun hother => (hdeadline hother).le⟩
      · rw [hstage, howed]
        simp only [stage, ServerThread.stage, ServerThread.owed]
        omega
      · have hdown := hless hown
        rw [hstage, howed]
        simp only [stage, ServerThread.stage, ServerThread.owed]
        omega
  | late own app after hold houtlives happ =>
      refine ⟨rank_le (.inr ?_), fun hown => ?_, fun _ => Nat.zero_le _⟩
      · rw [stage, stage, hold]
        exact ⟨rfl, le_rfl⟩
      · rw [TrayMode.own, hold] at hown
        cases hown
  | dropped app hold hreturned =>
      have hless := hlower (by rw [hold]; simp [ServerThread.stage])
      exact ⟨hless.le, fun _ => hless, nofun⟩

/-- A step of the main thread that it takes by itself brings it closer to its end. -/
theorem MainSteps.remaining {event : MainEvent} (hclosing : mode.Closing)
    (hsteps : mode.MainSteps event next) : next.rank < mode.rank := by
  have hsame : next.server = mode.server := by cases hsteps <;> rfl
  refine rank_lt (.inl ?_)
  rw [stage, stage, hsame]
  have hborn : mode.tray ≠ .unborn := by
    intro hunborn
    have htray := hclosing.tray
    rw [hunborn] at htray
    cases htray
  cases hsteps with
  | received control hmain hsent hcontrol => exact absurd hmain (hclosing.sound.unborn hborn).1
  | traySpawned hmain => exact absurd hmain (hclosing.sound.unborn hborn).2
  | trayUnspawned hmain => exact absurd hmain (hclosing.sound.unborn hborn).2
  | left opens hmain hcommands htray =>
      have hquit := hclosing.sound.quits htray (by rw [listens, hmain])
      rw [hcommands] at hquit
      cases hquit
  | uiEnded hmain =>
      have hstage : mode.main.stage = 2 := by rcases hmain with hmain | hmain <;> rw [hmain] <;> rfl
      rw [hstage]
      simp only [MainThread.stage]
      omega
  | asked opens rest hmain hcommands =>
      simp only [hmain, hcommands, MainThread.stage, List.length_cons]
      omega
  | told opens rest hmain hcommands =>
      simp only [hmain, hcommands, MainThread.stage, List.length_cons]
      omega
  | shown opens rest hmain hcommands =>
      simp only [hmain, hcommands, List.length_cons]
      omega
  | quit opens rest hmain hcommands =>
      simp only [hmain, hcommands, MainThread.stage, List.length_cons]
      omega
  | gone opens hmain hcommands htray =>
      simp only [hmain, MainThread.stage]
      omega
  | uiStarted opens hmain =>
      simp only [hmain, MainThread.stage]
      omega
  | exits hmain =>
      simp only [hmain, MainThread.stage]
      omega

theorem TraySteps.remaining {event : TrayEvent} (hclosing : mode.Closing)
    (hsteps : mode.TraySteps event next) : next.rank < mode.rank := by
  have htray := hclosing.tray
  cases hsteps with
  | joined hjoining hover =>
      refine rank_lt (.inl ?_)
      simp only [stage, hjoining, TrayThread.stage]
      omega
  | sent hquitting =>
      refine rank_lt (.inl ?_)
      simp only [stage, send, hquitting, TrayThread.stage]
      split
      · rw [List.length_append, List.length_singleton]
        omega
      · omega
  | added hother => simp [hother, TrayThread.isClosing] at htray
  | unadded hother => simp [hother, TrayThread.isClosing] at htray
  | opened message hother haction => simp [hother, TrayThread.isClosing] at htray
  | closed message hother haction => simp [hother, TrayThread.isClosing] at htray
  | ignored message hother haction => simp [hother, TrayThread.isClosing] at htray
  | failed hother => simp [hother, TrayThread.isClosing] at htray
  | destroyed hother => simp [hother, TrayThread.isClosing] at htray

/-- A step after a `Close` leaves the process where it is or brings it closer to its exit, as
its own steps do, and others do not put the drain's deadline off. -/
theorem Closing.remaining {event : ModeEvent} (hclosing : mode.Closing)
    (hstep : mode.step base64 sspi env event = some next) :
    next.rank ≤ mode.rank ∧ (mode.own event = true → next.rank < mode.rank) ∧
      (mode.own event = false → next.server.deadline ≤ mode.server.deadline) ∧
      mode.now ≤ next.now := by
  cases (step_cases hstep).2 with
  | tick elapsed =>
      have hsame : (mode.tick elapsed).rank = mode.rank ∧
          (mode.tick elapsed).server.deadline = mode.server.deadline := by
        unfold rank stage tick
        cases mode.server <;> exact ⟨rfl, rfl⟩
      exact ⟨hsame.1.le, nofun, fun _ => hsame.2.le, Nat.le_add_right _ _⟩
  | runtime own _ hruntime =>
      obtain ⟨hle, hless, hdeadline⟩ := hruntime.remaining
      refine ⟨hle, hless, hdeadline, ?_⟩
      cases hruntime <;> exact le_rfl
  | main own _ hmain =>
      have hless := hmain.remaining hclosing
      have hsame : next.server = mode.server ∧ next.now = mode.now := by
        cases hmain <;> exact ⟨rfl, rfl⟩
      exact ⟨hless.le, fun _ => hless, fun _ => (congrArg ServerThread.deadline hsame.1).le,
        hsame.2.ge⟩
  | tray own _ htray =>
      have hless := htray.remaining hclosing
      have hsame : next.server = mode.server ∧ next.now = mode.now := by
        cases htray <;> exact ⟨rfl, rfl⟩
      exact ⟨hless.le, fun _ => hless, fun _ => (congrArg ServerThread.deadline hsame.1).le,
        hsame.2.ge⟩
  | closeWindow id => exact ⟨le_rfl, nofun, fun _ => le_rfl, le_rfl⟩

/-! ## No deadlock -/

theorem step_of_running (hruns : ¬ mode.hasExited) (event : ModeEvent) :
    mode.step base64 sspi env event =
      match event with
      | .tick elapsed => some (mode.tick elapsed)
      | .runtime event => mode.stepRuntime base64 sspi env event
      | .main event => mode.stepMain event
      | .tray event => mode.stepTray event
      | .closeWindow id => some { mode with
          window := { mode.window with windows := mode.window.windows.erase id } } := by
  unfold step
  split
  next success hexited => exact absurd ⟨success, hexited⟩ hruns
  next => rfl

variable (base64 sspi env) in
/-- The runtime thread, while it is not over, has a step to take once it is late enough. -/
theorem exists_runtime (hsound : mode.Sound) (hshutdown : mode.shutdown = true)
    (hover : mode.server.isOver = false) (hlate : mode.server.deadline ≤ mode.now) :
    ∃ event, mode.own (.runtime event) = true ∧
      (mode.stepRuntime base64 sspi env event).isSome := by
  have hserver := hsound.server
  cases hold : mode.server with
  | building config => exact ⟨.buildRuntime true, rfl, by simp [stepRuntime, hold]⟩
  | starting config =>
      refine ⟨.startApp, rfl, ?_⟩
      simp only [stepRuntime, hold]
      split <;> rfl
  | started app => exact ⟨.spawnMonitor true, rfl, by simp [stepRuntime, hold]⟩
  | ended app => simp [hold, ServerThread.isOver] at hover
  | serving app =>
      rw [hold] at hserver hlate
      obtain ⟨hnow, past, hwinds⟩ := hserver
      cases hreturned : app.returned with
      | true => exact ⟨.dropRuntime, rfl, by simp [stepRuntime, hold, hreturned]⟩
      | false =>
          obtain ⟨event, hown, hclock, hsome⟩ := RunningApp.exists_own
            (gateRebuild base64 sspi env.threadStarts) hwinds hreturned (hnow.symm ▸ hlate)
          refine ⟨.app event, by simpa [own, hold] using hown, ?_⟩
          unfold stepRuntime
          rw [hold]
          split
          all_goals simp_all

/-- After a `Close` some thread has a step to take, once the drain is late enough. -/
theorem Closing.enabled (hclosing : mode.Closing) (hruns : ¬ mode.hasExited)
    (hlate : mode.server.deadline ≤ mode.now) :
    ∃ event, mode.own event = true ∧ (mode.step base64 sspi env event).isSome := by
  obtain ⟨hsound, hshutdown, htray, hjoined⟩ := hclosing
  cases hthread : mode.tray with
  | joining =>
      cases hover : mode.server.isOver with
      | true =>
          refine ⟨.tray .joined, rfl, ?_⟩
          rw [step_of_running hruns]
          simp [stepTray, hthread, hover]
      | false =>
          obtain ⟨event, hown, hsome⟩ :=
            exists_runtime base64 sspi env hsound hshutdown hover hlate
          exact ⟨.runtime event, hown, by rwa [step_of_running hruns]⟩
  | quitting =>
      refine ⟨.tray .sendQuit, rfl, ?_⟩
      rw [step_of_running hruns]
      simp [stepTray, hthread]
  | ended =>
      have hborn := hsound.unborn (by rw [hthread]; nofun)
      cases hmain : mode.main with
      | receiving => exact absurd hmain hborn.1
      | spawningTray => exact absurd hmain hborn.2
      | unattended => exact absurd hmain hsound.attended
      | exited success => exact absurd ⟨success, hmain⟩ hruns
      | ending =>
          refine ⟨.main .exit, rfl, ?_⟩
          rw [step_of_running hruns]
          simp [stepMain, hmain]
      | startingUi =>
          refine ⟨.main (.startUi true), rfl, ?_⟩
          rw [step_of_running hruns]
          simp [stepMain, hmain]
      | _ =>
          refine ⟨.main (.command true), rfl, ?_⟩
          rw [step_of_running hruns]
          simp only [stepMain, hmain, hthread, if_true]
          split <;> rfl
  | _ =>
      rw [hthread] at htray
      cases htray

theorem progresses :
    Progresses (TrayMode.step base64 sspi env) (fun mode event => mode.own event = true)
      (Closing (σ := σ)) hasExited rank TrayMode.now (fun mode => mode.server.deadline) where
  keeps hclosing hstep := hclosing.step hstep
  ranks hclosing hstep := (hclosing.remaining hstep).1
  lowers hclosing hown hstep := (hclosing.remaining hstep).2.1 hown
  ticks hclosing hstep := (hclosing.remaining hstep).2.2.2
  puts hclosing hown hstep := (hclosing.remaining hstep).2.2.1 (by simpa using hown)
  enabled hclosing hruns hlate := hclosing.enabled hruns hlate

end TrayMode

/-- In an execution that is fair to the process's own steps, while time passes, a `Close` ends
the process, whatever its clients and its user do. -/
theorem close_exits {σ : Type*} {base64 : Base64} {sspi : Text → SspiPackage → σ}
    {env : Environment} {config : Config} {showWindow : Bool}
    (execution : Execution (TrayMode.step base64 sspi env))
    (hlaunched : execution.states 0 = .launched config showWindow)
    (hfair : execution.Fair fun mode event => mode.own event = true)
    (htimely : execution.Timely TrayMode.now TrayMode.hasExited) {n : ℕ} {event : ModeEvent}
    (hevent : execution.events n = some event) (hcloses : event.closes = true) :
    ∃ m, n < m ∧ (execution.states m).hasExited := by
  obtain ⟨past, hrun, -⟩ := execution.exists_run n
  rw [hlaunched] at hrun
  have hclosing : (execution.states (n + 1)).Closing :=
    TrayMode.closing_of_closes (TrayMode.sound_of_run hrun) hcloses
      (execution.steps n event hevent)
  obtain ⟨m, hle, hexited⟩ := TrayMode.progresses.reaches hfair htimely hclosing
  exact ⟨m, by omega, hexited⟩

/-- The run above as an execution that idles once the process has exited. -/
theorem close_exits_closingRun :
    ∃ (execution : Execution (TrayMode.step standardBase64 noSspi plainEnvironment)) (m : ℕ),
      execution.events 10 = some (.tray (.message (.menu [.leftClick] closeId))) ∧ 10 < m ∧
        (execution.states m).hasExited := by
  obtain ⟨final, hrun, hexited⟩ : ∃ final, run (TrayMode.step standardBase64 noSspi
      plainEnvironment) (.launched {} false) closingRun = some final ∧ final.hasExited :=
    ⟨_, rfl, true, rfl⟩
  have hstuck : ∀ event, final.own event = true →
      TrayMode.step standardBase64 noSspi plainEnvironment final event = none := by
    obtain ⟨success, hmain⟩ := hexited
    intro event _
    unfold TrayMode.step
    rw [hmain]
  have hclosed : (Execution.ofRun closingRun hrun).events 10 =
      some (.tray (.message (.menu [.leftClick] closeId))) := rfl
  obtain ⟨m, hlater, hgone⟩ := close_exits (Execution.ofRun closingRun hrun)
    Execution.ofRun_start (Execution.ofRun_fair hstuck) (Execution.ofRun_timely hexited) hclosed rfl
  exact ⟨_, m, hclosed, hlater, hgone⟩

end Zicade.App
