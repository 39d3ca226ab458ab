import Mathlib.Data.List.Forall2
import Zicade.Control.Apply
import Zicade.Foundation.Runs

/-! # Passwords behind a control handle

What the settings form and the status view can read does not depend on the stored
passwords, and a password stays in the slot and with the username it was given for.
-/

namespace Zicade.Control

open Zicade.Foundation Zicade.Schema

/-! ## What the views can ask -/

/-- The counters of a metrics source at one moment. -/
structure Metrics where
  totalRequests : Nat
  activeConnections : Nat
  failedRequests : Nat
  bytesIn : Nat
  bytesOut : Nat
  deriving DecidableEq, Repr

/-- What the attached sources read as when the status is asked for. -/
structure Readings where
  metrics : Option Metrics
  onCorp : Option (Option Bool)
  deriving DecidableEq, Repr

/-- `Control::config_redacted`. -/
def World.configRedacted (world : World) : Config := world.config.withoutSecrets

/-- `Control::status`. -/
def World.statusNow (world : World) (readings : Readings) : StatusSnapshot :=
  let snapshot := world.status
  let snapshot :=
    match readings.metrics with
    | some metrics =>
        { snapshot with
          requestsTotal := metrics.totalRequests
          activeConnections := metrics.activeConnections
          requestsFailed := metrics.failedRequests
          bytesIn := metrics.bytesIn
          bytesOut := metrics.bytesOut }
    | none => snapshot
  match readings.onCorp with
  | some cell => { snapshot with onCorp := cell }
  | none => snapshot

inductive Call
  | apply (edit : Config) (outcome : WriteOutcome)
  | configRedacted
  | status (readings : Readings)
  deriving DecidableEq, Repr

inductive Reply
  | applied (result : Except ControlError Unit)
  | config (config : Config)
  | status (snapshot : StatusSnapshot)
  deriving DecidableEq, Repr

def World.answer (setup : Setup) (world : World) : Call → Reply × World
  | .apply edit outcome =>
      (.applied (Control.apply setup world edit outcome).1,
        (Control.apply setup world edit outcome).2)
  | .configRedacted => (.config world.configRedacted, world)
  | .status readings => (.status (world.statusNow readings), world)

/-- A handle that saves its config as JSON. -/
def Setup.json (configPath : String) (ctx : ValidationCtx) (hasHook : Bool) : Setup :=
  { configPath, ctx, serialize := fun config => .ok (toJsonString config), hasHook }

/-! ## Stored passwords are not seen -/

/-- Validation looks at no password. -/
theorem validate_withoutSecrets (config : Config) (ctx : ValidationCtx) :
    config.withoutSecrets.validate ctx = config.validate ctx := by
  obtain ⟨listen, ⟨mode, upstream, pac, corpNetwork, pool⟩, logging⟩ := config
  cases upstream <;> cases pac <;> rfl

/-- What a save answers depends on how its write goes. -/
theorem saveFile_json (configPath : String) (ctx : ValidationCtx) (hasHook : Bool)
    (config other : Config) (outcome : WriteOutcome) (disk disk' : Option Bytes) :
    (saveFile (.json configPath ctx hasHook) config outcome disk).1 =
      (saveFile (.json configPath ctx hasHook) other outcome disk').1 := by
  cases outcome <;> rfl

/-- Worlds that differ in passwords and in what their files hold. -/
structure World.SameButPasswords (world other : World) : Prop where
  config : world.config.SameButPasswords other.config
  status : world.status = other.status
  hookRuns : List.Forall₂ Config.SameButPasswords world.hookRuns other.hookRuns

section

variable (configPath : String) (ctx : ValidationCtx) (hasHook : Bool)

/-- What an apply answers depends on the edit and on how the write goes, and on nothing
that is stored. -/
theorem apply_answer_eq (world other : World) (edit : Config) (outcome : WriteOutcome) :
    (apply (.json configPath ctx hasHook) world edit outcome).1 =
      (apply (.json configPath ctx hasHook) other edit outcome).1 := by
  have hvalidate : (edit.keepSecretsFrom world.config).validate ctx =
      (edit.keepSecretsFrom other.config).validate ctx := by
    rw [← validate_withoutSecrets, Config.withoutSecrets_keepSecretsFrom,
      ← Config.withoutSecrets_keepSecretsFrom edit other.config, validate_withoutSecrets]
  have hsave := saveFile_json configPath ctx hasHook (edit.keepSecretsFrom world.config)
    (edit.keepSecretsFrom other.config) outcome world.disk other.disk
  unfold apply
  change (edit.keepSecretsFrom world.config).validate (Setup.json configPath ctx hasHook).ctx =
    (edit.keepSecretsFrom other.config).validate (Setup.json configPath ctx hasHook).ctx
    at hvalidate
  dsimp only
  rw [hvalidate]
  cases (edit.keepSecretsFrom other.config).validate (Setup.json configPath ctx hasHook).ctx with
  | error err => rfl
  | ok =>
      cases outcome <;> rfl

variable {world other : World}

theorem World.SameButPasswords.apply (hsame : world.SameButPasswords other) (edit : Config)
    (outcome : WriteOutcome) :
    (Control.apply (.json configPath ctx hasHook) world edit outcome).2.SameButPasswords
      (Control.apply (.json configPath ctx hasHook) other edit outcome).2 := by
  have hanswer := apply_answer_eq configPath ctx hasHook world other edit outcome
  have hmerged : (edit.keepSecretsFrom world.config).SameButPasswords
      (edit.keepSecretsFrom other.config) := by
    rw [Config.sameButPasswords_iff, Config.withoutSecrets_keepSecretsFrom,
      Config.withoutSecrets_keepSecretsFrom]
  cases hok : (Control.apply (.json configPath ctx hasHook) world edit outcome).1 with
  | error err =>
      have hother := hok
      rw [hanswer] at hother
      rw [apply_error hok, apply_error hother]
      exact ⟨hsame.config, hsame.status, hsame.hookRuns⟩
  | ok =>
      have hother := hok
      rw [hanswer] at hother
      obtain ⟨disk, hnext⟩ := apply_ok hok
      obtain ⟨disk', hnext'⟩ := apply_ok hother
      rw [hnext, hnext']
      refine ⟨hmerged, by rw [hsame.status], ?_⟩
      refine List.rel_append hsame.hookRuns ?_
      split_ifs
      · exact .cons hmerged .nil
      · exact .nil

/-- Two handles whose configs differ in passwords only answer every call alike. -/
theorem secrets_unobserved {config other : Config} (hsame : config.SameButPasswords other)
    (status : StatusSnapshot) (disk disk' : Option Bytes) (calls : List Call) :
    replies (World.answer (.json configPath ctx hasHook))
        { disk, config, status, hookRuns := [] } calls =
      replies (World.answer (.json configPath ctx hasHook))
        { disk := disk', config := other, status, hookRuns := [] } calls := by
  have hworlds : World.SameButPasswords { disk, config, status, hookRuns := [] }
      { disk := disk', config := other, status, hookRuns := [] } := ⟨hsame, rfl, .nil⟩
  refine replies_eq_of_related World.SameButPasswords ?_ hworlds calls
  intro first second call hsame
  cases call with
  | apply edit outcome =>
      exact ⟨congrArg Reply.applied
        (apply_answer_eq configPath ctx hasHook first second edit outcome),
        hsame.apply configPath ctx hasHook edit outcome⟩
  | configRedacted =>
      refine ⟨congrArg Reply.config ?_, hsame⟩
      exact (Config.sameButPasswords_iff _ _).mp hsame.config
  | status readings =>
      refine ⟨congrArg Reply.status ?_, hsame⟩
      rw [World.statusNow, World.statusNow, hsame.status]

end

/-- A Basic upstream for one user. -/
def basicConfig (user password : Text) : Config where
  routing := {
    mode := .upstream
    upstream := some {
      host := "proxy.example".toList, port := 8080
      auth := { mode := .basic, username := some user, password := some password } } }

theorem basicConfig_sameButPasswords (user password other : Text) :
    (basicConfig user password).SameButPasswords (basicConfig user other) :=
  ⟨rfl, rfl, .some ⟨rfl, rfl, rfl, rfl, rfl⟩, .none, rfl, rfl, rfl⟩

theorem secrets_unobserved_basic :
    replies (World.answer (.json "config.json" ⟨true⟩ true))
        (worldOf (basicConfig "alice".toList "s3cret".toList))
        [.configRedacted, .apply {} (.brokenOff 3 fullDisk), .status ⟨none, some none⟩] =
      replies (World.answer (.json "config.json" ⟨true⟩ true))
        (worldOf (basicConfig "alice".toList "hunter2".toList))
        [.configRedacted, .apply {} (.brokenOff 3 fullDisk), .status ⟨none, some none⟩] :=
  secrets_unobserved _ _ _ (basicConfig_sameButPasswords _ _ _) _ _ _ _

/-! ## A password stays where it was given -/

inductive Slot
  | upstream
  | pac
  deriving DecidableEq, Repr

/-- The auth of a slot, while its section is there. -/
def Slot.of (config : Config) : Slot → Option AuthConfig
  | .upstream => config.upstreamAuth
  | .pac => config.pacAuth

/-- The slot has this password under this username. -/
def Slot.Holds (slot : Slot) (user : Option Text) (password : Text) (config : Config) : Prop :=
  ∃ auth, slot.of config = some auth ∧ auth.username = user ∧ auth.password = some password

variable {slot : Slot} {user : Option Text} {password : Text}

theorem Slot.of_keepSecretsFrom (slot : Slot) (edit saved : Config) :
    slot.of (edit.keepSecretsFrom saved) =
      (slot.of edit).map (AuthConfig.keptFrom (slot.of saved)) := by
  cases slot with
  | upstream => exact edit.upstreamAuth_keepSecretsFrom saved
  | pac => exact edit.pacAuth_keepSecretsFrom saved

/-- A password in a merged edit was given by the edit, or the saved config had it in the
same slot under the same username. -/
theorem Slot.Holds.of_merged {edit saved : Config}
    (hholds : slot.Holds user password (edit.keepSecretsFrom saved)) :
    slot.Holds user password edit ∨ slot.Holds user password saved := by
  obtain ⟨merged, hmerged, huser, hpassword⟩ := hholds
  rw [of_keepSecretsFrom] at hmerged
  obtain ⟨auth, hauth, rfl⟩ := Option.map_eq_some_iff.mp hmerged
  cases hold : slot.of saved with
  | none =>
      rw [hold] at huser hpassword
      exact .inl ⟨auth, hauth, huser, hpassword⟩
  | some old =>
      rw [hold, AuthConfig.keptFrom] at huser hpassword
      rcases auth.keepPasswordFrom_cases old with hkept | ⟨-, -, hsame, hkept⟩
      · rw [hkept] at huser hpassword
        exact .inl ⟨auth, hauth, huser, hpassword⟩
      · rw [hkept] at huser hpassword
        exact .inr ⟨old, hold, hsame ▸ huser, hpassword⟩

/-- After so many calls the config in memory. -/
def configAfter (setup : Setup) (start : World) (calls : List Call) : Config :=
  (stateAfter (World.answer setup) start calls).config

/-- The last of these calls was an apply of an edit that gives the password, and it
succeeded. -/
def GivenBy (setup : Setup) (start : World) (slot : Slot) (user : Option Text)
    (password : Text) (calls : List Call) : Prop :=
  ∃ before edit outcome, calls = before ++ [.apply edit outcome] ∧
    slot.Holds user password edit ∧
    (apply setup (stateAfter (World.answer setup) start before) edit outcome).1 = .ok ()

/-- A call either leaves the config in memory, or is an apply that succeeds and replaces
it by the merged edit. -/
theorem configAfter_concat (setup : Setup) (start : World) (past : List Call) (call : Call) :
    configAfter setup start (past ++ [call]) = configAfter setup start past ∨
      ∃ edit outcome, call = .apply edit outcome ∧
        (apply setup (stateAfter (World.answer setup) start past) edit outcome).1 = .ok () ∧
        configAfter setup start (past ++ [call]) =
          edit.keepSecretsFrom (configAfter setup start past) := by
  rw [configAfter, stateAfter_concat]
  cases call with
  | configRedacted => exact .inl rfl
  | status readings => exact .inl rfl
  | apply edit outcome =>
      cases hanswer : (apply setup (stateAfter (World.answer setup) start past) edit outcome).1 with
      | error err =>
          refine .inl ?_
          rw [World.answer, apply_error hanswer]
          rfl
      | ok =>
          obtain ⟨disk, hnext⟩ := apply_ok hanswer
          refine .inr ⟨edit, outcome, rfl, hanswer, ?_⟩
          rw [World.answer, hnext]
          rfl

/-- A password in a slot was there from the beginning or was given by an edit, for that
slot and that username, and has been there ever since. -/
theorem password_provenance (setup : Setup) (start : World) (calls : List Call)
    (hholds : slot.Holds user password (configAfter setup start calls)) :
    ∃ before after, calls = before ++ after ∧
      ((before = [] ∧ slot.Holds user password start.config) ∨
        GivenBy setup start slot user password before) ∧
      ∀ soFar, soFar <+: after →
        slot.Holds user password (configAfter setup start (before ++ soFar)) := by
  induction calls using List.reverseRecOn with
  | nil =>
      refine ⟨[], [], rfl, .inl ⟨rfl, hholds⟩, fun soFar hsoFar => ?_⟩
      rw [List.prefix_nil.mp hsoFar]
      exact hholds
  | append_singleton past call ih =>
      -- held before the call, it was held all the way
      have extend (hheld : slot.Holds user password (configAfter setup start past)) :
          ∃ before after, past ++ [call] = before ++ after ∧
            ((before = [] ∧ slot.Holds user password start.config) ∨
              GivenBy setup start slot user password before) ∧
            ∀ soFar, soFar <+: after →
              slot.Holds user password (configAfter setup start (before ++ soFar)) := by
        obtain ⟨before, after, rfl, horigin, hsince⟩ := ih hheld
        refine ⟨before, after ++ [call], List.append_assoc .., horigin, fun soFar hsoFar => ?_⟩
        rcases List.prefix_concat_iff.mp hsoFar with rfl | hsoFar
        · rw [← List.append_assoc]
          exact hholds
        · exact hsince soFar hsoFar
      rcases configAfter_concat setup start past call with hsame | ⟨edit, outcome, rfl, hok, hnext⟩
      · exact extend (hsame ▸ hholds)
      · rcases (hnext ▸ hholds : slot.Holds user password _).of_merged with hgiven | hheld
        · refine ⟨past ++ [.apply edit outcome], [], (List.append_nil _).symm,
            .inr ⟨past, edit, outcome, rfl, hgiven, hok⟩, fun soFar hsoFar => ?_⟩
          rw [List.prefix_nil.mp hsoFar, List.append_nil]
          exact hholds
        · exact extend hheld

/-- A password is given, and kept by an edit that leaves it blank. -/
def givenThenKept : List Call :=
  [.apply (basicConfig "alice".toList "s3cret".toList) .done,
    .apply (basicConfig "alice".toList "s3cret".toList).withoutSecrets .done]

theorem password_provenance_givenThenKept :
    ∃ before after, givenThenKept = before ++ after ∧
      ((before = [] ∧ Slot.upstream.Holds (some "alice".toList) "s3cret".toList {}) ∨
        GivenBy (.json "config.json" ⟨true⟩ true) (worldOf {}) .upstream (some "alice".toList)
          "s3cret".toList before) ∧
      ∀ soFar, soFar <+: after → Slot.upstream.Holds (some "alice".toList) "s3cret".toList
        (configAfter (.json "config.json" ⟨true⟩ true) (worldOf {}) (before ++ soFar)) := by
  have hslot : Slot.upstream.of
      (configAfter (.json "config.json" ⟨true⟩ true) (worldOf {}) givenThenKept) =
        some { mode := .basic, username := some "alice".toList,
               password := some "s3cret".toList } := by decide +kernel
  exact password_provenance (.json "config.json" ⟨true⟩ true) (worldOf {}) givenThenKept
    ⟨_, hslot, rfl, rfl⟩

/-- Basic left and taken up again, the password is gone. -/
example :
    (configAfter (.json "config.json" ⟨true⟩ true)
      (worldOf (basicConfig "alice".toList "s3cret".toList))
      [.apply {} .done, .apply (basicConfig "alice".toList []).withoutSecrets .done]).upstreamAuth =
        some { mode := .basic, username := some "alice".toList } := by
  decide +kernel

end Zicade.Control
