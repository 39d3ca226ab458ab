import Mathlib.Data.Fintype.Basic
import Mathlib.Logic.Function.Basic
import Zicade.Control.Apply

/-! # Concurrent applies

Applies run on clones of one control handle, and no lock spans one: its six
steps may interleave with those of other calls. Calls that do not overlap act
like single atomic applies, so what they leave agrees everywhere.
-/

namespace Zicade.Control

open Zicade.Foundation Zicade.Schema

/-! ## Steps of one call -/

/-- How far a call has come, and the config it carries. -/
inductive Phase
  | idle
  | copied (current : Config)
  | merged (config : Config)
  | written (config : Config)
  | hooked (config : Config)
  | labelled (config : Config)
  | returned (result : Except ControlError Unit)
  deriving DecidableEq

/-- The call has begun and not returned. -/
def Phase.active : Phase → Bool
  | .idle => false
  | .returned _ => false
  | .copied _ => true
  | .merged _ => true
  | .written _ => true
  | .hooked _ => true
  | .labelled _ => true

/-- One step of `Control::apply`: copy the current config, merge and validate,
write the file, run the hook, set the reported mode, set the config. -/
def Phase.step (setup : Setup) (edit : Config) (outcome : WriteOutcome) (world : World) :
    Phase → Phase × World
  | .idle => (.copied world.config, world)
  | .copied current =>
      let config := edit.keepSecretsFrom current
      match config.validate setup.ctx with
      | .error err => (.returned (.error (.invalid err)), world)
      | .ok () => (.merged config, world)
  | .merged config =>
      match saveFile setup config outcome world.disk with
      | (.error err, disk) => (.returned (.error (.save err)), { world with disk })
      | (.ok (), disk) => (.written config, { world with disk })
  | .written config => (.hooked config, world.runHook setup config)
  | .hooked config => (.labelled config, world.setRoutingMode config.routing.mode)
  | .labelled config => (.returned (.ok ()), { world with config })
  | .returned result => (.returned result, world)

/-- Steps of one call with nothing in between. -/
def Phase.steps (setup : Setup) (edit : Config) (outcome : WriteOutcome) :
    Nat → Phase × World → Phase × World
  | 0, state => state
  | n + 1, (phase, world) => Phase.steps setup edit outcome n (phase.step setup edit outcome world)

/-- A call that has returned does nothing more. -/
theorem steps_returned (setup : Setup) (edit : Config) (outcome : WriteOutcome) (n : Nat)
    (result : Except ControlError Unit) (world : World) :
    Phase.steps setup edit outcome n (.returned result, world) = (.returned result, world) := by
  induction n with
  | zero => rfl
  | succ n ih => exact ih

/-- Six steps with nothing in between are one apply. -/
theorem steps_eq_apply (setup : Setup) (edit : Config) (outcome : WriteOutcome) (world : World) :
    Phase.steps setup edit outcome 6 (.idle, world) =
      (.returned (apply setup world edit outcome).1, (apply setup world edit outcome).2) := by
  have hcopied : Phase.steps setup edit outcome 6 (.idle, world) =
      Phase.steps setup edit outcome 4
        ((Phase.copied world.config).step setup edit outcome world) := rfl
  rw [hcopied, apply]
  cases hvalid : (edit.keepSecretsFrom world.config).validate setup.ctx with
  | error err =>
      simp only [Phase.step, hvalid]
      exact steps_returned ..
  | ok =>
      have hmerged : Phase.steps setup edit outcome 4
            ((Phase.copied world.config).step setup edit outcome world) =
          Phase.steps setup edit outcome 3
            ((Phase.merged (edit.keepSecretsFrom world.config)).step setup edit outcome world) := by
        simp only [Phase.step, hvalid]
        rfl
      rw [hmerged]
      cases hsave : saveFile setup (edit.keepSecretsFrom world.config) outcome world.disk with
      | mk result disk =>
          cases result with
          | error err =>
              simp only [Phase.step, hsave]
              exact steps_returned ..
          | ok =>
              simp only [Phase.step, hsave]
              rfl

/-! ## Interleaved calls -/

section

variable {ι : Type*} [DecidableEq ι]

/-- The shared world, the calls, and those that returned `Ok` in the order they
did. -/
structure System (ι : Type*) where
  world : World
  phases : ι → Phase
  completed : List ι

/-- No call has begun. -/
def System.initial (world : World) : System ι := ⟨world, fun _ => .idle, []⟩

variable (setup : Setup) (edits : ι → Config)

/-- One call takes its next step. -/
def System.step (system : System ι) (turn : ι × WriteOutcome) : System ι :=
  let next := (system.phases turn.1).step setup (edits turn.1) turn.2 system.world
  { world := next.2
    phases := Function.update system.phases turn.1 next.1
    completed :=
      match system.phases turn.1 with
      | .labelled _ => system.completed ++ [turn.1]
      | _ => system.completed }

theorem System.step_phases (system : System ι) (turn : ι × WriteOutcome) :
    (system.step setup edits turn).phases = Function.update system.phases turn.1
      ((system.phases turn.1).step setup (edits turn.1) turn.2 system.world).1 := rfl

def interleave (system : System ι) (schedule : List (ι × WriteOutcome)) : System ι :=
  schedule.foldl (System.step setup edits) system

/-- Every call that has begun has returned. -/
def System.Settled (system : System ι) : Prop := ∀ call, (system.phases call).active = false

/-- All four places hold the same config. -/
structure World.Agrees (world : World) (config : Config) : Prop where
  disk : ∃ text, setup.serialize config = .ok text ∧ world.disk = some (asBytes text)
  hook : setup.hasHook = true → world.hookRuns.getLast? = some config
  status : world.status.routingMode = routingModeLabel config.routing.mode
  config : world.config = config

/-- What atomic applies of the calls, one after the other, make of a config. -/
def savedConfig (start : Config) (calls : List ι) : Config :=
  calls.foldl (fun current call => (edits call).keepSecretsFrom current) start

/-- After calls that returned `Ok` the world agrees on the last saved config,
each saved one having taken its missing passwords from the one before it; with
no such call nothing has changed. -/
structure System.Consistent (start : World) (system : System ι) : Prop where
  config : system.world.config = savedConfig edits start.config system.completed
  agrees : system.completed ≠ [] → system.world.Agrees setup system.world.config
  unchanged : system.completed = [] → system.world = start

/-- The write does not break off after it has emptied the file. -/
def WriteOutcome.intact : WriteOutcome → Bool
  | .done => true
  | .notOpened _ => true
  | .brokenOff _ _ => false

/-- Only one call at a time is under way, and no write breaks off. -/
def OneAtATime (system : System ι) : List (ι × WriteOutcome) → Prop
  | [] => True
  | turn :: rest =>
      (∀ other, other ≠ turn.1 → (system.phases other).active = false) ∧
        turn.2.intact = true ∧ OneAtATime (system.step setup edits turn) rest

theorem oneAtATime_concat {system : System ι} {schedule : List (ι × WriteOutcome)}
    {turn : ι × WriteOutcome} : OneAtATime setup edits system (schedule ++ [turn]) ↔
      OneAtATime setup edits system schedule ∧
        (∀ other, other ≠ turn.1 →
          ((interleave setup edits system schedule).phases other).active = false) ∧
        turn.2.intact = true := by
  induction schedule generalizing system with
  | nil => simp [OneAtATime, interleave]
  | cons first rest ih =>
      have hrest : interleave setup edits system (first :: rest) =
          interleave setup edits (system.step setup edits first) rest := rfl
      rw [List.cons_append, OneAtATime, ih, OneAtATime, hrest]
      tauto

/-! ## Calls that do not overlap -/

/-- What a call under way has made of the world it began in. -/
def Progress (edit : Config) (before : World) : Phase → World → Prop
  | .idle, world => world = before
  | .copied current, world => current = before.config ∧ world = before
  | .merged config, world => config = edit.keepSecretsFrom before.config ∧ world = before
  | .written config, world => config = edit.keepSecretsFrom before.config ∧
      ∃ text, setup.serialize config = .ok text ∧
        world = { before with disk := some (asBytes text) }
  | .hooked config, world => config = edit.keepSecretsFrom before.config ∧
      ∃ text, setup.serialize config = .ok text ∧
        world = { before with disk := some (asBytes text) }.runHook setup config
  | .labelled config, world => config = edit.keepSecretsFrom before.config ∧
      ∃ text, setup.serialize config = .ok text ∧
        world = ({ before with disk := some (asBytes text) }.runHook setup config).setRoutingMode
          config.routing.mode
  | .returned _, world => world = before

/-- A step short of the last makes progress. -/
theorem progress_step {edit : Config} {before world : World} {phase : Phase}
    {outcome : WriteOutcome} (hprogress : Progress setup edit before phase world)
    (hintact : outcome.intact = true) (hlast : ∀ config, phase ≠ .labelled config) :
    Progress setup edit before (phase.step setup edit outcome world).1
      (phase.step setup edit outcome world).2 := by
  cases phase with
  | idle =>
      obtain rfl : world = before := hprogress
      exact ⟨rfl, rfl⟩
  | copied current =>
      obtain ⟨rfl, rfl⟩ := hprogress
      simp only [Phase.step]
      cases (edit.keepSecretsFrom world.config).validate setup.ctx with
      | error err => rfl
      | ok valid => exact ⟨rfl, rfl⟩
  | merged config =>
      obtain ⟨hconfig, rfl⟩ := hprogress
      simp only [Phase.step]
      rcases saveFile_cases setup config outcome world.disk with
        ⟨err, hsave, -⟩ | ⟨text, htext, -, hsave⟩ | ⟨text, written, err, -, rfl, -⟩
      · rw [hsave]
        rfl
      · rw [hsave]
        exact ⟨hconfig, text, htext, rfl⟩
      · cases hintact
  | written config =>
      obtain ⟨hconfig, text, htext, rfl⟩ := hprogress
      exact ⟨hconfig, text, htext, rfl⟩
  | hooked config =>
      obtain ⟨hconfig, text, htext, rfl⟩ := hprogress
      exact ⟨hconfig, text, htext, rfl⟩
  | labelled config => exact absurd rfl (hlast config)
  | returned result => exact hprogress

/-- The last step leaves all four places with the saved config. -/
theorem agrees_of_labelled {edit : Config} {before world : World} {config : Config}
    (hprogress : Progress setup edit before (.labelled config) world) :
    config = edit.keepSecretsFrom before.config ∧
      World.Agrees setup { world with config } config := by
  obtain ⟨hconfig, text, htext, rfl⟩ := hprogress
  refine ⟨hconfig, ⟨text, htext, ?_⟩, ?_, rfl, rfl⟩
  · unfold World.runHook
    split <;> rfl
  · intro hhook
    simp [World.runHook, hhook, World.setRoutingMode]

/-- Between calls the world is that of the completed ones; a call under way has
made its progress from there. -/
structure Serialized (start : World) (base : World) (system : System ι) : Prop where
  consistent : System.Consistent setup edits start { system with world := base }
  progress : ∀ call, (system.phases call).active = true →
    Progress setup (edits call) base (system.phases call) system.world
  settled : system.Settled → system.world = base

/-- A call that is not under way has left the world as it was. -/
theorem progress_of_inactive {edit : Config} {before world : World} {phase : Phase}
    (hinactive : phase.active = false) :
    Progress setup edit before phase world ↔ world = before := by
  cases phase with
  | idle => exact Iff.rfl
  | returned result => exact Iff.rfl
  | copied current => cases hinactive
  | merged config => cases hinactive
  | written config => cases hinactive
  | hooked config => cases hinactive
  | labelled config => cases hinactive

/-- With no other call under way, every call stands at its progress. -/
theorem Serialized.progress_of_alone {start base : World} {system : System ι} {call : ι}
    (hserialized : Serialized setup edits start base system)
    (halone : ∀ other, other ≠ call → (system.phases other).active = false) :
    Progress setup (edits call) base (system.phases call) system.world := by
  by_cases hactive : (system.phases call).active = true
  · exact hserialized.progress call hactive
  · have hinactive : (system.phases call).active = false := by simpa using hactive
    have hsettled : system.Settled := by
      intro other
      by_cases hother : other = call
      · rw [hother, hinactive]
      · exact halone other hother
    exact (progress_of_inactive setup hinactive).mpr (hserialized.settled hsettled)

theorem serialized_step {start base : World} {system : System ι} {turn : ι × WriteOutcome}
    (hserialized : Serialized setup edits start base system)
    (halone : ∀ other, other ≠ turn.1 → (system.phases other).active = false)
    (hintact : turn.2.intact = true) :
    ∃ base, Serialized setup edits start base (system.step setup edits turn) := by
  have hprogress := hserialized.progress_of_alone setup edits halone
  have hothers : ∀ call, call ≠ turn.1 →
      ((system.step setup edits turn).phases call).active = false := by
    intro call hcall
    rw [System.step_phases, Function.update_of_ne hcall]
    exact halone call hcall
  -- the last step of a call is where the base moves on to the world it leaves
  by_cases hlast : ∃ config, system.phases turn.1 = .labelled config
  · obtain ⟨config, hphase⟩ := hlast
    rw [hphase] at hprogress
    obtain ⟨hconfig, hagrees⟩ := agrees_of_labelled setup hprogress
    have hstep : system.step setup edits turn =
        { world := { system.world with config }
          phases := Function.update system.phases turn.1 (.returned (.ok ()))
          completed := system.completed ++ [turn.1] } := by
      simp only [System.step, hphase, Phase.step]
    have hbase := hserialized.consistent.config
    refine ⟨{ system.world with config }, ⟨?_, ?_, ?_⟩, ?_, ?_⟩
    · rw [hstep, savedConfig, List.foldl_append, ← savedConfig, hconfig]
      change base.config = _ at hbase
      rw [hbase]
      rfl
    · intro _
      exact hagrees
    · rw [hstep]
      simp
    · intro call hactive
      by_cases hcall : call = turn.1
      · rw [hcall, System.step_phases, Function.update_self, hphase] at hactive
        cases hactive
      · rw [hothers call hcall] at hactive
        cases hactive
    · intro _
      rw [hstep]
  · have hnever : ∀ config, system.phases turn.1 ≠ .labelled config := fun config hphase =>
      hlast ⟨config, hphase⟩
    have hnext := progress_step setup hprogress hintact hnever
    have hcompleted : (system.step setup edits turn).completed = system.completed := by
      rw [System.step]
      dsimp only
      split
      next config hphase => exact absurd hphase (hnever config)
      next => rfl
    have hphase : (system.step setup edits turn).phases turn.1 =
        ((system.phases turn.1).step setup (edits turn.1) turn.2 system.world).1 := by
      rw [System.step_phases, Function.update_self]
    refine ⟨base, ⟨?_, ?_, ?_⟩, ?_, ?_⟩
    · rw [hcompleted]
      exact hserialized.consistent.config
    · rw [hcompleted]
      exact hserialized.consistent.agrees
    · rw [hcompleted]
      exact hserialized.consistent.unchanged
    · intro call hactive
      by_cases hcall : call = turn.1
      · rw [hcall, hphase]
        exact hnext
      · rw [hothers call hcall] at hactive
        cases hactive
    · intro hsettled
      have hinactive := hsettled turn.1
      rw [hphase] at hinactive
      exact (progress_of_inactive setup hinactive).mp hnext

theorem serialized_interleave {start base : World} {system : System ι}
    (schedule : List (ι × WriteOutcome)) (hserialized : Serialized setup edits start base system)
    (hserial : OneAtATime setup edits system schedule) :
    ∃ base, Serialized setup edits start base (interleave setup edits system schedule) := by
  induction schedule generalizing system base with
  | nil => exact ⟨base, hserialized⟩
  | cons turn rest ih =>
      obtain ⟨halone, hintact, hrest⟩ := hserial
      obtain ⟨next, hnext⟩ := serialized_step setup edits hserialized halone hintact
      exact ih hnext hrest

omit [DecidableEq ι] in
theorem serialized_initial (start : World) :
    Serialized setup edits start start (System.initial start : System ι) := by
  refine ⟨⟨rfl, ?_, fun _ => rfl⟩, ?_, fun _ => rfl⟩
  · intro hne
    exact absurd rfl hne
  · intro call hactive
    cases hactive

omit [DecidableEq ι] in
/-- With no call under way, the world is that of the completed ones. -/
theorem Serialized.consistent_of_settled {start base : World} {system : System ι}
    (hserialized : Serialized setup edits start base system) (hsettled : system.Settled) :
    System.Consistent setup edits start system := by
  have hconsistent := hserialized.consistent
  rw [← hserialized.settled hsettled] at hconsistent
  exact hconsistent

/-- Applies that do not overlap end in one consistent config. -/
theorem applies_consistent (start : World) (schedule : List (ι × WriteOutcome))
    (hserial : OneAtATime setup edits (.initial start) schedule)
    (hsettled : (interleave setup edits (.initial start) schedule).Settled) :
    System.Consistent setup edits start (interleave setup edits (.initial start) schedule) := by
  obtain ⟨base, hserialized⟩ :=
    serialized_interleave setup edits schedule (serialized_initial setup edits start) hserial
  exact hserialized.consistent_of_settled setup edits hsettled

/-- The schedule can be checked while there are finitely many calls. -/
instance decidableOneAtATime [Fintype ι] :
    ∀ (schedule : List (ι × WriteOutcome)) (system : System ι),
      Decidable (OneAtATime setup edits system schedule)
  | [], _ => .isTrue trivial
  | turn :: rest, system =>
      have := decidableOneAtATime rest (system.step setup edits turn)
      inferInstanceAs (Decidable (_ ∧ _ ∧ _))

end

/-! ## Two overlapping saves -/

/-- A config that goes through an upstream with a stored password. -/
def upstreamConfig (port : UInt16) (password : Option Text) : Config :=
  { routing :=
      { mode := .upstream
        upstream := some ⟨"proxy.example.com".toList, port,
          { mode := .basic, username := some "alice".toList, password }⟩ } }

def storedConfig : Config := upstreamConfig 8080 (some "old".toList)

/-- One call rotates the password; the other changes the port and leaves the
password blank. -/
def twoEdits : Bool → Config
  | false => upstreamConfig 8080 (some "rotated".toList)
  | true => upstreamConfig 3128 none

def turns (calls : List Bool) : List (Bool × WriteOutcome) :=
  calls.map fun call => (call, .done)

/-- One call after the other. -/
def inTurn : List (Bool × WriteOutcome) :=
  turns [false, false, false, false, false, false, true, true, true, true, true, true]

/-- The second call copies the config before the first has set it. -/
def staleCopy : List (Bool × WriteOutcome) :=
  turns [true, false, false, false, false, false, false, true, true, true, true, true]

/-- The second call writes the file first and runs the hook last. -/
def crossed : List (Bool × WriteOutcome) :=
  turns [true, true, true, false, false, false, false, true, true, true, false, false]

theorem applies_consistent_sample :
    System.Consistent appSetup twoEdits (worldOf storedConfig)
      (interleave appSetup twoEdits (.initial (worldOf storedConfig)) inTurn) :=
  applies_consistent appSetup twoEdits (worldOf storedConfig) inTurn (by decide +kernel)
    (by intro call; cases call <;> decide +kernel)

/-- Overlapping calls that all return `Ok` leave the hook with another config
than the file and memory have, or put back a password rotated meanwhile. -/
theorem overlapping_applies_disagree :
    ((interleave appSetup twoEdits (.initial (worldOf storedConfig)) crossed).completed =
        [true, false] ∧
      ¬ ∃ config, World.Agrees appSetup
        (interleave appSetup twoEdits (.initial (worldOf storedConfig)) crossed).world config) ∧
    (interleave appSetup twoEdits (.initial (worldOf storedConfig)) staleCopy).completed =
        [false, true] ∧
      (interleave appSetup twoEdits (.initial (worldOf storedConfig)) staleCopy).world.config =
        upstreamConfig 3128 (some "old".toList) := by
  refine ⟨⟨by decide +kernel, ?_⟩, by decide +kernel, by decide +kernel⟩
  rintro ⟨config, hagrees⟩
  have hhook := hagrees.hook rfl
  rw [← hagrees.config] at hhook
  revert hhook
  decide +kernel

end Zicade.Control
