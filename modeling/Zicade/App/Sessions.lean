import Zicade.App.Start
import Zicade.Config.Torn
import Zicade.Control.Secrets

/-! # From one launch to the next

A process reads the config file, or writes a first one, and starts the app on it. While it
runs, applies write the file again, one at a time: what becomes of two that overlap is the
subject of `Zicade.Control.Concurrent`. It may stop at any moment, also between the bytes of
a write, and the next launch has nothing but the file, if it can read it.
-/

namespace Zicade.App

open Zicade.Foundation Zicade.Auth Zicade.Schema Zicade.Control

inductive LaunchError
  | directory (source : IoError)
  | load (source : LoadFileError)
  | writeDefault (source : ConfigError)
  | start (source : StartError)
  deriving DecidableEq, Repr

/-- What a launch meets besides the file: whether `Path::exists` sees it if it is there, how
reading it may fail, whether its directory can be made, how writing a first config goes, and
what the start itself meets. -/
structure LaunchSite where
  present : Bool := true
  readFails : Option IoError := none
  directory : Except IoError Unit := .ok ()
  write : Control.WriteOutcome := .done
  binds : Bool := true
  threadStarts : Bool := true
  detected : List Text := []

/-- What stays the same from launch to launch: the platform, the path, the JSON reader, the
authentication libraries, and how an address is shown. -/
structure Host (σ : Type*) where
  ctx : ValidationCtx
  path : String
  serde : SerdeJson
  base64 : Base64
  sspi : Text → SspiPackage → σ
  showAddr : Net.IpAddr × UInt16 → String

section

variable {σ : Type*} (host : Host σ)

def Host.setup : Setup := .json host.path host.ctx true

def Host.environment (site : LaunchSite) : Environment :=
  { ctx := host.ctx, binds := site.binds, threadStarts := site.threadStarts,
    detected := site.detected }

/-- `load_or_create_config`, and the file after it. -/
def loadOrCreateConfig (site : LaunchSite) (disk : Option Bytes) :
    Except LaunchError Config × Option Bytes :=
  if site.present && disk.isSome then
    match loadFile host.serde host.path (readFile site.readFails disk) with
    | .error err => (.error (.load err), disk)
    | .ok config => (.ok config, disk)
  else
    match site.directory with
    | .error err => (.error (.directory err), disk)
    | .ok () =>
        match saveFile host.setup {} site.write disk with
        | (.error err, disk) => (.error (.writeDefault err), disk)
        | (.ok (), disk) => (.ok {}, disk)

/-- The control handle that `App::start` builds. -/
def startedWorld (config : Config) (disk : Option Bytes) (app : Started σ) : World :=
  { disk, config, hookRuns := []
    status := {
      routingMode := Control.routingModeLabel config.routing.mode
      listenAddr := host.showAddr app.proxyAddr } }

/-- A launch, and the file after it if there is no app. -/
def launch (site : LaunchSite) (disk : Option Bytes) : Except (LaunchError × Option Bytes) World :=
  match loadOrCreateConfig host site disk with
  | (.error err, disk) => .error (err, disk)
  | (.ok config, disk) =>
      match start host.base64 host.sspi (host.environment site) config with
      | .error err => .error (.start err, disk)
      | .ok app => .ok (startedWorld host config disk app)

/-! ## The process -/

inductive Process
  | stopped (disk : Option Bytes)
  | running (world : World)
  deriving DecidableEq, Repr

inductive SessionEvent
  | launch (site : LaunchSite)
  | call (call : Call)
  | exit

def Process.launched : Except (LaunchError × Option Bytes) World → Process
  | .error (_, disk) => .stopped disk
  | .ok world => .running world

/-- A call runs from its start to its end: the applies of a process do not overlap. -/
def Process.step : Process → SessionEvent → Option Process
  | .stopped disk, .launch site => some (.launched (App.launch host site disk))
  | .running world, .call call => some (.running (world.answer host.setup call).2)
  | .running world, .exit => some (.stopped world.disk)
  | _, _ => none

/-! ## What the file is for -/

/-- What was last written to the file: a whole config, or some bytes of one. Before that
there is what the user put there, or nothing. -/
inductive Saved
  | nothing
  | original (bytes : Bytes)
  | whole (config : Config)
  | torn (config : Config) (written : Nat)
      (broken : written < (asBytes (toJsonString config)).length)

/-- What a write leaves. -/
def Saved.save (saved : Saved) (config : Config) : Control.WriteOutcome → Saved
  | .done => .whole config
  | .notOpened _ => saved
  | .brokenOff written _ =>
      if h : written < (asBytes (toJsonString config)).length then .torn config written h
      else .whole config

def Saved.contents : Saved → Option Bytes
  | .nothing => none
  | .original bytes => some bytes
  | .whole config => some (asBytes (toJsonString config))
  | .torn config written _ => some ((asBytes (toJsonString config)).take written)

/-- The config that a launch which can read the file goes on with. -/
def Saved.recalled : Saved → Option Config
  | .nothing => none
  | .original bytes => (loadFile host.serde host.path (.ok bytes)).toOption
  | .whole config => some config
  | .torn _ _ _ => none

/-- The config that a launch may go on with, and what is saved then: a file that it sees is
not written, and one that it does not see is. -/
def Saved.recall (saved : Saved) (site : LaunchSite) : Option Config × Saved :=
  if site.present && saved.contents.isSome then
    match site.readFails with
    | some _ => (none, saved)
    | none => (saved.recalled host, saved)
  else
    match site.directory with
    | .error _ => (none, saved)
    | .ok () => (if site.write = .done then some {} else none, saved.save {} site.write)

/-- The config the app holds while it runs, and what is saved. -/
structure Store where
  saved : Saved
  memory : Option Config

/-- The app starts on a config. -/
def Host.starts (site : LaunchSite) (config : Config) : Bool :=
  (start host.base64 host.sspi (host.environment site) config).isOk

/-- An edit that validates is saved, and held if all of it was written. -/
def Store.apply (store : Store) (edit : Config) (outcome : Control.WriteOutcome)
    (config : Config) : Store :=
  let merged := edit.keepSecretsFrom config
  match merged.validate host.ctx with
  | .error _ => store
  | .ok () =>
      { saved := store.saved.save merged outcome
        memory := some (if outcome = .done then merged else config) }

def Store.step (store : Store) : SessionEvent → Option Store
  | .launch site =>
      match store.memory with
      | some _ => none
      | none =>
          let (config, saved) := store.saved.recall host site
          some { saved, memory := config.filter (host.starts site) }
  | .call (.apply edit outcome) => store.memory.map (store.apply host edit outcome)
  | .call _ => store.memory.map fun _ => store
  | .exit => store.memory.map fun _ => { store with memory := none }

/-! ## The process follows its store -/

/-- What a store says of a process. -/
def Store.Describes (store : Store) : Process → Prop
  | .stopped disk => store.memory = none ∧ disk = store.saved.contents
  | .running world => store.memory = some world.config ∧ world.disk = store.saved.contents

def Saved.ofDisk : Option Bytes → Saved
  | none => .nothing
  | some bytes => .original bytes

theorem Saved.contents_ofDisk (disk : Option Bytes) : (Saved.ofDisk disk).contents = disk := by
  cases disk <;> rfl

/-- A save leaves in the file what it leaves in the store, and answers whether all of it was
written. -/
theorem saveFile_contents (saved : Saved) (config : Config) (outcome : Control.WriteOutcome) :
    (saveFile host.setup config outcome saved.contents).2 = (saved.save config outcome).contents ∧
      ((saveFile host.setup config outcome saved.contents).1 = .ok () ↔ outcome = .done) := by
  unfold saveFile
  cases outcome with
  | done => exact ⟨rfl, by simp [Host.setup, Setup.json, fsWrite]⟩
  | notOpened err => exact ⟨rfl, by simp [Host.setup, Setup.json, fsWrite]⟩
  | brokenOff written err =>
      refine ⟨?_, by simp [Host.setup, Setup.json, fsWrite]⟩
      simp only [Host.setup, Setup.json, fsWrite, Saved.save]
      split_ifs with hbroken
      · rfl
      · rw [List.take_of_length_le (by omega)]
        rfl

/-- A file that can be read loads as what is saved in it. -/
theorem loadFile_contents (hserde : host.serde.RefusesTorn) (saved : Saved) :
    (loadFile host.serde host.path (readFile none saved.contents)).toOption =
      saved.recalled host := by
  cases saved with
  | nothing => rfl
  | original bytes => rfl
  | whole config =>
      change (loadFile host.serde host.path (.ok (asBytes (toJsonString config)))).toOption = _
      rw [loadFile_saved]
      rfl
  | torn config written broken =>
      change (loadFile host.serde host.path
        (.ok ((asBytes (toJsonString config)).take written))).toOption = _
      rcases loadFile_torn hserde host.path broken with htorn | htorn <;>
        · rw [htorn]
          rfl

/-- A launch goes on with what the store recalls. -/
theorem loadOrCreateConfig_recall (hserde : host.serde.RefusesTorn) (site : LaunchSite)
    (saved : Saved) :
    (loadOrCreateConfig host site saved.contents).1.toOption = (saved.recall host site).1 ∧
      (loadOrCreateConfig host site saved.contents).2 = (saved.recall host site).2.contents := by
  unfold loadOrCreateConfig Saved.recall
  split
  next =>
    cases hreads : site.readFails with
    | some err => exact ⟨rfl, rfl⟩
    | none =>
        have hloads := loadFile_contents host hserde saved
        dsimp only
        split
        next err hload =>
          rw [hload] at hloads
          exact ⟨hloads, rfl⟩
        next config hload =>
          rw [hload] at hloads
          exact ⟨hloads, rfl⟩
  next =>
    cases site.directory with
    | error err => exact ⟨rfl, rfl⟩
    | ok =>
        dsimp only
        obtain ⟨hdisk, hdone⟩ := saveFile_contents host saved {} site.write
        split
        next err disk hsave =>
          rw [hsave] at hdisk hdone
          have hfailed : site.write ≠ .done := fun hwrite => by cases hdone.mpr hwrite
          exact ⟨by rw [if_neg hfailed]; rfl, hdisk⟩
        next disk hsave =>
          rw [hsave] at hdisk hdone
          exact ⟨by rw [if_pos (hdone.mp rfl)]; rfl, hdisk⟩

/-- A launch runs the app on the config the store recalls, if the app starts on it. -/
theorem launch_recall (hserde : host.serde.RefusesTorn) (site : LaunchSite) (saved : Saved) :
    Store.Describes
      ⟨(saved.recall host site).2, (saved.recall host site).1.filter (host.starts site)⟩
      (.launched (launch host site saved.contents)) := by
  obtain ⟨hconfig, hdisk⟩ := loadOrCreateConfig_recall host hserde site saved
  unfold launch
  cases hload : loadOrCreateConfig host site saved.contents with
  | mk loaded disk =>
    rw [hload] at hconfig hdisk
    rw [← hconfig]
    cases loaded with
    | error err => exact ⟨rfl, hdisk⟩
    | ok config =>
        dsimp only
        cases hstart : start host.base64 host.sspi (host.environment site) config with
        | error err => exact ⟨by simp [Except.toOption, Host.starts, hstart, Except.isOk,
            Except.toBool], hdisk⟩
        | ok app => exact ⟨by simp [Except.toOption, Host.starts, hstart, Except.isOk,
            Except.toBool, startedWorld], hdisk⟩

/-- An apply saves its merged edit, and the app goes on with it if all of it was written. -/
theorem apply_saves (world : World) {saved : Saved} (hdisk : world.disk = saved.contents)
    (edit : Config) (outcome : Control.WriteOutcome) :
    let merged := edit.keepSecretsFrom world.config
    let after := (Control.apply host.setup world edit outcome).2
    match merged.validate host.ctx with
    | .error _ => after = world
    | .ok () => after.disk = (saved.save merged outcome).contents ∧
        after.config = if outcome = .done then merged else world.config := by
  intro merged after
  have hctx : host.setup.ctx = host.ctx := rfl
  cases hvalid : merged.validate host.ctx with
  | error err =>
      simp only [after, Control.apply, hctx]
      rw [show (edit.keepSecretsFrom world.config).validate host.ctx = .error err from hvalid]
  | ok =>
      obtain ⟨hcontents, hdone⟩ := saveFile_contents host saved merged outcome
      rw [← hdisk] at hcontents hdone
      simp only [after, Control.apply, hctx]
      rw [show (edit.keepSecretsFrom world.config).validate host.ctx = .ok () from hvalid]
      dsimp only
      cases hsave : saveFile host.setup merged outcome world.disk with
      | mk result disk =>
        rw [hsave] at hcontents hdone
        cases result with
        | error err =>
            have hfailed : outcome ≠ .done := fun houtcome => by cases hdone.mpr houtcome
            exact ⟨hcontents, (if_neg hfailed).symm⟩
        | ok =>
            exact ⟨hcontents, (if_pos (hdone.mp rfl)).symm⟩

/-- Each step of the process is a step of its store. -/
theorem Store.Describes.step (hserde : host.serde.RefusesTorn) {store : Store}
    {process next : Process} {event : SessionEvent} (hdescribes : store.Describes process)
    (hstep : process.step host event = some next) :
    ∃ after, store.step host event = some after ∧ after.Describes next := by
  obtain ⟨saved, memory⟩ := store
  cases process with
  | stopped disk =>
      obtain ⟨rfl, rfl⟩ : memory = none ∧ disk = saved.contents := hdescribes
      cases event with
      | launch site =>
          obtain rfl := Option.some.inj hstep
          exact ⟨_, rfl, launch_recall host hserde site saved⟩
      | call call => cases hstep
      | exit => cases hstep
  | running world =>
      obtain ⟨rfl, hdisk⟩ : memory = some world.config ∧ world.disk = saved.contents := hdescribes
      cases event with
      | launch site => cases hstep
      | exit =>
          obtain rfl := Option.some.inj hstep
          exact ⟨_, rfl, rfl, hdisk⟩
      | call call =>
          obtain rfl := Option.some.inj hstep
          cases call with
          | configRedacted => exact ⟨_, rfl, rfl, hdisk⟩
          | status readings => exact ⟨_, rfl, rfl, hdisk⟩
          | apply edit outcome =>
              have happly := apply_saves host world hdisk edit outcome
              dsimp only at happly
              refine ⟨Store.apply host ⟨saved, some world.config⟩ edit outcome world.config,
                rfl, ?_⟩
              unfold Store.apply
              dsimp only
              rw [World.answer]
              cases hvalid : (edit.keepSecretsFrom world.config).validate host.ctx with
              | error err =>
                  rw [hvalid] at happly
                  dsimp only at happly ⊢
                  rw [happly]
                  exact ⟨rfl, hdisk⟩
              | ok =>
                  rw [hvalid] at happly
                  exact ⟨congrArg some happly.2.symm, happly.1⟩

/-- Whatever is launched, applied one at a time, broken off and stopped, the process is what
its store says: a launch that can read the file goes on with the last config that was saved
whole, and with none whose write broke off. -/
theorem process_follows_store (hserde : host.serde.RefusesTorn) (disk : Option Bytes)
    {events : List SessionEvent} {process : Process}
    (hrun : run (Process.step host) (.stopped disk) events = some process) :
    ∃ store, run (Store.step host) ⟨.ofDisk disk, none⟩ events = some store ∧
      store.Describes process := by
  have hstart : Store.Describes ⟨.ofDisk disk, none⟩ (.stopped disk) :=
    ⟨rfl, (Saved.contents_ofDisk disk).symm⟩
  refine run_refines Store.Describes hstart ?_ hrun
  intro store process event next hdescribes hstep
  exact hdescribes.step host hserde hstep

/-! ## Restarts -/

/-- The file loads as what the app holds. -/
def Process.Kept : Process → Prop
  | .stopped _ => True
  | .running world =>
      loadFile host.serde host.path (readFile none world.disk) = .ok world.config

/-- The call is no apply whose write breaks off part-way. -/
def WritesWhole : Process → SessionEvent → Prop
  | .running world, .call (.apply edit outcome) => ¬ PartlyWritten host.setup world edit outcome
  | _, _ => True

theorem writesWhole_done (world : World) (edit : Config) :
    WritesWhole host (.running world) (.call (.apply edit .done)) := by
  intro hpartly
  obtain ⟨-, text, -, written, err, hbroken, -⟩ := hpartly
  cases hbroken

theorem loadOrCreateConfig_kept {site : LaunchSite} {disk after : Option Bytes} {config : Config}
    (hload : loadOrCreateConfig host site disk = (.ok config, after)) :
    loadFile host.serde host.path (readFile none after) = .ok config := by
  unfold loadOrCreateConfig at hload
  split at hload
  next =>
    split at hload
    next => cases hload
    next hfile =>
      obtain ⟨hconfig, rfl⟩ := Prod.mk.inj hload
      cases hreads : site.readFails with
      | some err =>
          rw [hreads] at hfile
          cases hfile
      | none =>
          rw [hreads] at hfile
          rw [hfile, Except.ok.inj hconfig]
  next =>
    split at hload
    next => cases hload
    next =>
      rcases saveFile_cases host.setup {} site.write disk with
        ⟨err, hsave, -⟩ | ⟨text, htext, -, hsave⟩ | ⟨text, written, err, -, -, hsave⟩ <;>
        rw [hsave] at hload
      · cases hload
      · obtain ⟨hconfig, rfl⟩ := Prod.mk.inj hload
        obtain rfl : toJsonString {} = text := Except.ok.inj htext
        rw [← Except.ok.inj hconfig]
        exact loadFile_saved host.serde host.path {}
      · cases hload

theorem kept_launched (site : LaunchSite) (disk : Option Bytes) :
    (Process.launched (launch host site disk)).Kept host := by
  unfold launch
  cases hload : loadOrCreateConfig host site disk with
  | mk loaded after =>
    cases loaded with
    | error err => trivial
    | ok config =>
        dsimp only
        cases start host.base64 host.sspi (host.environment site) config with
        | error err => trivial
        | ok app => exact loadOrCreateConfig_kept host hload

theorem kept_apply {world : World} (hkept : (Process.running world).Kept host) {edit : Config}
    {outcome : Control.WriteOutcome} (hwhole : ¬ PartlyWritten host.setup world edit outcome) :
    (Process.running (Control.apply host.setup world edit outcome).2).Kept host := by
  unfold Control.apply
  dsimp only
  cases hvalid : (edit.keepSecretsFrom world.config).validate host.setup.ctx with
  | error err => exact hkept
  | ok =>
      dsimp only
      rcases saveFile_cases host.setup (edit.keepSecretsFrom world.config) outcome world.disk with
        ⟨err, hsave, -⟩ | ⟨text, htext, -, hsave⟩ | ⟨text, written, err, htext, hbroken, hsave⟩ <;>
        rw [hsave]
      · exact hkept
      · obtain rfl : toJsonString (edit.keepSecretsFrom world.config) = text := Except.ok.inj htext
        exact loadFile_saved _ _ _
      · -- a write that broke off and still changed nothing leaves a file that loads
        have hdisk : world.disk = some ((asBytes text).take written) := by
          by_contra hne
          exact hwhole ⟨hvalid, text, htext, written, err, hbroken, hne⟩
        exact (congrArg (fun disk => loadFile host.serde host.path (readFile none disk))
          hdisk).symm.trans hkept

theorem Process.Kept.step {process next : Process} {event : SessionEvent}
    (hkept : process.Kept host) (hwhole : WritesWhole host process event)
    (hstep : process.step host event = some next) : next.Kept host := by
  cases process with
  | stopped disk =>
      cases event with
      | launch site =>
          obtain rfl := Option.some.inj hstep
          exact kept_launched host site disk
      | call call => cases hstep
      | exit => cases hstep
  | running world =>
      cases event with
      | launch site => cases hstep
      | exit =>
          obtain rfl := Option.some.inj hstep
          trivial
      | call call =>
          obtain rfl := Option.some.inj hstep
          cases call with
          | configRedacted => exact hkept
          | status readings => exact hkept
          | apply edit outcome => exact kept_apply host hkept hwhole

/-- The launch sees the file and can read it. -/
def LaunchSite.Reads (site : LaunchSite) : Prop := site.present = true ∧ site.readFails = none

/-- A launch that can read a file that loads is a start on what it loads as. -/
theorem launch_of_loads {disk : Option Bytes} {config : Config}
    (hloads : loadFile host.serde host.path (readFile none disk) = .ok config) {site : LaunchSite}
    (hreads : site.Reads) :
    launch host site disk =
      match start host.base64 host.sspi (host.environment site) config with
      | .error err => .error (.start err, disk)
      | .ok app => .ok (startedWorld host config disk app) := by
  cases disk with
  | none => cases hloads
  | some bytes =>
      have hseen : (site.present && (some bytes).isSome) = true := by rw [hreads.1]; rfl
      unfold launch loadOrCreateConfig
      rw [if_pos hseen, hreads.2, hloads]

/-- An app that is stopped and launched again where it can read the file goes on with the
config it held, unless a write of its last session broke off part-way. -/
theorem restart_resumes {disk : Option Bytes} {past calls : List SessionEvent}
    {site : LaunchSite} {launched world : World}
    (hlaunch : run (Process.step host) (.stopped disk) (past ++ [.launch site]) =
      some (.running launched))
    (hwhole : StepsMeet (Process.step host) (WritesWhole host) (.running launched) calls)
    (hrun : run (Process.step host) (.running launched) calls = some (.running world))
    {next : LaunchSite} (hreads : next.Reads) :
    ∃ process, run (Process.step host) (.running world) [.exit, .launch next] = some process ∧
      (host.starts next world.config = true → ∃ resumed, process = .running resumed ∧
        resumed.config = world.config ∧ resumed.disk = world.disk) ∧
      (host.starts next world.config = false → process = .stopped world.disk) := by
  obtain ⟨middle, -, hlast⟩ := run_concat hlaunch
  have hlaunched : (Process.running launched).Kept host := by
    cases middle with
    | running other => cases hlast
    | stopped disk =>
        obtain hstarted := Option.some.inj hlast
        exact hstarted ▸ kept_launched host site disk
  have hkept : loadFile host.serde host.path (readFile none world.disk) = .ok world.config :=
    run_invariant_of_stepsMeet (Process.Kept host)
      (fun _ _ _ hkept hmeets hstep => hkept.step host hmeets hstep) hlaunched hwhole hrun
  refine ⟨_, rfl, ?_⟩
  rw [launch_of_loads host hkept hreads, Host.starts]
  cases start host.base64 host.sspi (host.environment next) world.config with
  | error err => exact ⟨nofun, fun _ => rfl⟩
  | ok app => exact ⟨fun _ => ⟨_, rfl, rfl, rfl⟩, nofun⟩

end

/-! ## A session whose last save breaks off -/

def sampleHost : Host Unit :=
  { ctx := ⟨true⟩, path := "config.json", serde := serdeJson, base64 := standardBase64
    sspi := noSspi, showAddr := fun _ => "127.0.0.1:3129" }

/-- A first launch, a save that goes through, and one that runs out of disk. -/
def tornSave : List SessionEvent :=
  [.launch {}, .call (.apply { listen := { port := 5544 } } .done),
    .call (.apply { listen := { port := 5545 } } (.brokenOff 3 fullDisk)), .exit, .launch {}]

theorem process_follows_store_tornSave :
    ∃ process store, run (Process.step sampleHost) (.stopped none) tornSave = some process ∧
      run (Store.step sampleHost) ⟨.nothing, none⟩ tornSave = some store ∧
      store.Describes process := by
  obtain ⟨store, hstore⟩ := process_follows_store sampleHost serdeJson_refusesTorn none
    (rfl : run (Process.step sampleHost) (.stopped none) tornSave = some _)
  exact ⟨_, store, rfl, hstore⟩

theorem restart_resumes_saved :
    ∃ launched world resumed,
      run (Process.step sampleHost) (.stopped none) ([] ++ [.launch {}]) =
          some (.running launched) ∧
        run (Process.step sampleHost) (.running launched)
          [.call (.apply { listen := { port := 5544 } } .done)] = some (.running world) ∧
        run (Process.step sampleHost) (.running world) [.exit, .launch {}] =
          some (.running resumed) ∧
        resumed.config = { listen := { port := 5544 } } := by
  obtain ⟨process, hprocess, hstarts, -⟩ := restart_resumes sampleHost
    (rfl : run (Process.step sampleHost) (.stopped none) ([] ++ [.launch {}]) = some (.running _))
    (by unfold StepsMeet; exact ⟨writesWhole_done sampleHost _ _, trivial⟩)
    (rfl : run (Process.step sampleHost) (.running _)
      [.call (.apply { listen := { port := 5544 } } .done)] = some (.running _))
    (⟨rfl, rfl⟩ : LaunchSite.Reads {})
  obtain ⟨resumed, rfl, hconfig, -⟩ := hstarts rfl
  exact ⟨_, _, resumed, rfl, rfl, hprocess, hconfig⟩

end Zicade.App
