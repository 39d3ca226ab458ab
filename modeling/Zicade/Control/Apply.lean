import Zicade.Config.Json
import Zicade.Config.Validate

/-! # Applying an edited config

An apply merges the passwords the settings form never saw, validates, writes
the file, runs the hook, and only then changes what is reported and held in
memory. Writing a file empties it first and may break off part-way.
-/

namespace Zicade.Control

open Zicade.Foundation Zicade.Schema

/-- How one `std::fs::write` goes: it may fail before the file is opened, or
after the file was emptied and some of the bytes were written. -/
inductive WriteOutcome
  | done
  | notOpened (err : IoError)
  | brokenOff (written : Nat) (err : IoError)
  deriving DecidableEq, Repr

/-- `std::fs::write`: creates or truncates the file, then writes. -/
def fsWrite (outcome : WriteOutcome) (contents : Bytes) (disk : Option Bytes) :
    Except IoError Unit × Option Bytes :=
  match outcome with
  | .done => (.ok (), some contents)
  | .notOpened err => (.error err, disk)
  | .brokenOff written err => (.error err, some (contents.take written))

inductive ControlError
  | invalid (source : ConfigError)
  | save (source : ConfigError)
  deriving DecidableEq, Repr

def ControlError.display : ControlError → String
  | .invalid source => source.display
  | .save source => s!"could not save the configuration: {source.display}"

/-- The stored half of what the status view shows. -/
structure StatusSnapshot where
  routingMode : String := ""
  listenAddr : String := ""
  requestsTotal : Nat := 0
  requestsFailed : Nat := 0
  activeConnections : Nat := 0
  bytesIn : Nat := 0
  bytesOut : Nat := 0
  onCorp : Option Bool := none
  deriving DecidableEq, Repr

def routingModeLabel : RoutingMode → String
  | .direct => "direct"
  | .upstream => "upstream"
  | .pac => "pac"

/-- What a control handle was built with. -/
structure Setup where
  configPath : String
  ctx : ValidationCtx
  serialize : Config → Except ConfigError Text
  hasHook : Bool

/-- What an apply may change: the file, the config in memory, the stored status,
and the configs given to the hook so far. -/
structure World where
  disk : Option Bytes
  config : Config
  status : StatusSnapshot
  hookRuns : List Config
  deriving DecidableEq, Repr

def saveFile (setup : Setup) (config : Config) (outcome : WriteOutcome) (disk : Option Bytes) :
    Except ConfigError Unit × Option Bytes :=
  match setup.serialize config with
  | .error err => (.error err, disk)
  | .ok text =>
      match fsWrite outcome (asBytes text) disk with
      | (.error err, disk) => (.error (.io setup.configPath err), disk)
      | (.ok (), disk) => (.ok (), disk)

namespace World

def runHook (world : World) (setup : Setup) (config : Config) : World :=
  if setup.hasHook then { world with hookRuns := world.hookRuns ++ [config] } else world

/-- A listen change needs a restart, so only the routing label follows. -/
def setRoutingMode (world : World) (mode : RoutingMode) : World :=
  { world with status := { world.status with routingMode := routingModeLabel mode } }

end World

/-- `Control::apply`. -/
def apply (setup : Setup) (world : World) (edit : Config) (outcome : WriteOutcome) :
    Except ControlError Unit × World :=
  let config := edit.keepSecretsFrom world.config
  match config.validate setup.ctx with
  | .error err => (.error (.invalid err), world)
  | .ok () =>
      match saveFile setup config outcome world.disk with
      | (.error err, disk) => (.error (.save err), { world with disk })
      | (.ok (), disk) =>
          let applied := { world with disk }.runHook setup config
          (.ok (), { applied.setRoutingMode config.routing.mode with config })

/-! ## A failed apply -/

/-- A write of this edit breaks off, and what it leaves is not what was there. -/
def PartlyWritten (setup : Setup) (world : World) (edit : Config) (outcome : WriteOutcome) :
    Prop :=
  (edit.keepSecretsFrom world.config).validate setup.ctx = .ok () ∧
    ∃ text, setup.serialize (edit.keepSecretsFrom world.config) = .ok text ∧
      ∃ written err, outcome = .brokenOff written err ∧
        world.disk ≠ some ((asBytes text).take written)

/-- Only the file can change in a failed apply. -/
theorem apply_error {setup : Setup} {world : World} {edit : Config} {outcome : WriteOutcome}
    {err : ControlError} (herr : (apply setup world edit outcome).1 = .error err) :
    (apply setup world edit outcome).2 =
      { world with disk := (apply setup world edit outcome).2.disk } := by
  unfold apply at herr ⊢
  dsimp only at herr ⊢
  split
  next => rfl
  next hvalid =>
    rw [hvalid] at herr
    dsimp only at herr
    split
    next => rfl
    next hsave =>
      rw [hsave] at herr
      cases herr

/-- An apply that succeeds makes the merged edit the current config. -/
theorem apply_ok {setup : Setup} {world : World} {edit : Config} {outcome : WriteOutcome}
    (hok : (apply setup world edit outcome).1 = .ok ()) :
    ∃ disk, (apply setup world edit outcome).2 =
      { disk
        config := edit.keepSecretsFrom world.config
        status := { world.status with routingMode := routingModeLabel edit.routing.mode }
        hookRuns := world.hookRuns ++
          if setup.hasHook then [edit.keepSecretsFrom world.config] else [] } := by
  unfold apply at hok ⊢
  dsimp only at hok ⊢
  split
  next err hinvalid =>
    rw [hinvalid] at hok
    cases hok
  next hvalid =>
    rw [hvalid] at hok
    dsimp only at hok
    split
    next hsave =>
      rw [hsave] at hok
      cases hok
    next disk hsave =>
      refine ⟨disk, ?_⟩
      unfold World.runHook
      split_ifs
      · rfl
      · rw [List.append_nil]
        rfl

/-- A save that fails leaves the file alone unless its write broke off. -/
theorem saveFile_cases (setup : Setup) (config : Config) (outcome : WriteOutcome)
    (disk : Option Bytes) :
    (∃ err, saveFile setup config outcome disk = (.error err, disk) ∧
        ∀ text, setup.serialize config = .ok text →
          ∀ written err, outcome ≠ .brokenOff written err) ∨
      (∃ text, setup.serialize config = .ok text ∧ outcome = .done ∧
        saveFile setup config outcome disk = (.ok (), some (asBytes text))) ∨
      ∃ text written err, setup.serialize config = .ok text ∧ outcome = .brokenOff written err ∧
        saveFile setup config outcome disk =
          (.error (.io setup.configPath err), some ((asBytes text).take written)) := by
  unfold saveFile
  cases hserialize : setup.serialize config with
  | error err =>
      left
      refine ⟨err, rfl, ?_⟩
      intro text htext
      cases htext
  | ok text =>
      cases outcome with
      | done => exact .inr (.inl ⟨text, rfl, rfl, rfl⟩)
      | notOpened err =>
          left
          refine ⟨.io setup.configPath err, rfl, ?_⟩
          intro _ _ written err hbroken
          cases hbroken
      | brokenOff written err => exact .inr (.inr ⟨text, written, err, rfl, rfl, rfl⟩)

/-- A failed apply changes nothing unless its write broke off part-way. -/
theorem apply_failure_unchanged_iff (setup : Setup) (world : World) (edit : Config)
    (outcome : WriteOutcome) :
    (∀ err, (apply setup world edit outcome).1 = .error err →
        (apply setup world edit outcome).2 = world) ↔
      ¬ PartlyWritten setup world edit outcome := by
  unfold apply PartlyWritten
  dsimp only
  cases hvalid : (edit.keepSecretsFrom world.config).validate setup.ctx with
  | error err => simp
  | ok valid =>
      rcases saveFile_cases setup (edit.keepSecretsFrom world.config) outcome world.disk with
        ⟨err, hsave, hnever⟩ | ⟨text, htext, rfl, hsave⟩ |
          ⟨text, written, err, htext, rfl, hsave⟩
      · rw [hsave]
        constructor
        · rintro - ⟨-, text, htext, written, err, hbroken, -⟩
          exact hnever text htext written err hbroken
        · intro _ _ _
          rfl
      · rw [hsave]
        simp
      · rw [hsave, htext]
        constructor
        · rintro hsame ⟨-, other, hother, length, cause, hbroken, hne⟩
          obtain rfl : text = other := Except.ok.inj hother
          obtain ⟨rfl, -⟩ : written = length ∧ err = cause := by simpa using hbroken
          have := congrArg World.disk (hsame _ rfl)
          exact hne this.symm
        · intro hnot _ _
          have hdisk : world.disk = some ((asBytes text).take written) := by
            by_contra hne
            exact hnot ⟨rfl, text, rfl, written, err, rfl, hne⟩
          rw [← hdisk]

/-! ## A write that breaks off -/

/-- The handle of a running app: the real file format, and a hook. -/
def appSetup : Setup :=
  { configPath := "config.json", ctx := ⟨false⟩
    serialize := fun config => .ok (toJsonString config), hasHook := true }

/-- A world whose file holds the config in memory. -/
def worldOf (config : Config) : World :=
  { disk := some (asBytes (toJsonString config)), config, hookRuns := []
    status := { routingMode := routingModeLabel config.routing.mode } }

def fullDisk : IoError := ⟨.storageFull, "No space left on device"⟩

/-- The disk is full: the apply is refused, and the config file is empty. -/
theorem fullDisk_emptiesFile :
    (apply appSetup (worldOf {}) { listen := { port := 5544 } } (.brokenOff 0 fullDisk)).1 =
        .error (.save (.io "config.json" fullDisk)) ∧
      (apply appSetup (worldOf {}) { listen := { port := 5544 } }
        (.brokenOff 0 fullDisk)).2.disk = some [] ∧
      (worldOf {}).disk ≠ some [] := by
  decide +kernel

end Zicade.Control
