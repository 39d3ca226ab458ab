import Zicade.Control.Secrets
import Zicade.Netmon.Gate
import Zicade.Ui.ConfigView

/-! # The apply hook of the app

The hook hands each applied config to the gate, which owns the live routing.
Between two hands the monitor thread may evaluate the gate any number of times.
-/

namespace Zicade.App

open Zicade.Foundation Zicade.Schema Zicade.Control Zicade.Netmon Zicade.Ui

variable {Target Router : Type*} (buildRouting : Config → Routing Target Router)

/-- A gate that was handed the configs of a world holds the one the world agrees
on, and routes by it while it is off. -/
theorem gate_of_agrees {setup : Setup} {world : World} {config : Config}
    (hagrees : world.Agrees setup config) (hhook : setup.hasHook = true)
    (routing : Routing Target Router) (start : Config) {events : List GateEvent}
    (hhanded : reconfigured events = world.hookRuns) :
    (gateAfter buildRouting routing start events).config = config ∧
      (gateEnabled config = false → ∃ builds,
        (gateAfter buildRouting routing start events).routing =
          rebuild buildRouting builds config) := by
  have hadopted := gateAfter_adopted buildRouting routing start events
  have hlast : (reconfigured events).getLast? = some config := by
    rw [hhanded]
    exact hagrees.hook hhook
  have hconfig : (gateAfter buildRouting routing start events).config = config := by
    rw [hadopted.config, List.getLastD_eq_getLast?, hlast]
    rfl
  refine ⟨hconfig, fun hdisabled => ?_⟩
  have hoff : (gateAfter buildRouting routing start events).enabled = false := by
    rw [(gateAfter_follows buildRouting routing start events).enabled, hconfig, hdisabled]
  have hne : reconfigured events ≠ [] := by
    intro hnil
    rw [hnil] at hlast
    cases hlast
  obtain ⟨builds, hrouting⟩ := hadopted.dormant hoff hne
  exact ⟨builds, by rw [hrouting, hconfig]⟩

/-- Once a view that has saved something is idle, the gate holds the config that
is in memory and in the file, and a gate that is off routes by it. -/
theorem savedConfig_live {setup : Setup} (hhook : setup.hasHook = true) (edits : Nat → Config)
    {world : World} {viewed : List ViewEvent} {view : ConfigView}
    (hrun : run (ConfigView.step setup edits) (.new world) viewed = some view)
    (hintact : ∀ turn ∈ turnsOf viewed, turn.2.intact = true) (hidle : view.saving = false)
    (hsaved : view.system.completed ≠ []) (routing : Routing Target Router) (start : Config)
    {events : List GateEvent} (hhanded : reconfigured events = view.system.world.hookRuns) :
    view.system.world.Agrees setup (gateAfter buildRouting routing start events).config ∧
      (gateEnabled view.system.world.config = false → ∃ builds,
        (gateAfter buildRouting routing start events).routing =
          rebuild buildRouting builds view.system.world.config) := by
  have hagrees := (configView_consistent setup edits hrun hintact hidle).agrees hsaved
  obtain ⟨hconfig, hrouting⟩ := gate_of_agrees buildRouting hagrees hhook routing start hhanded
  rw [hconfig]
  exact ⟨hagrees, hrouting⟩

/-! ## What the views of a running app read -/

/-- A running app as its views and its monitor thread drive it. -/
structure Live (Target Router : Type*) where
  world : World
  gate : GateInner Target Router

/-- A call of a view or an evaluation of the monitor thread, with what surrounds it. -/
inductive LiveEvent
  | apply (edit : Config) (outcome : WriteOutcome) (surroundings : Surroundings)
  | configRedacted
  | status (metrics : Metrics)
  | evaluate (surroundings : Surroundings)
  deriving DecidableEq, Repr

/-- An apply that succeeds has handed its config to the gate, whose cell the status
shows. -/
def Live.answer (setup : Setup) (live : Live Target Router) :
    LiveEvent → Option Reply × Live Target Router
  | .apply edit outcome surroundings =>
      let (result, world) := apply setup live.world edit outcome
      let gate :=
        match result with
        | .ok () => live.gate.reconfigure buildRouting world.config surroundings
        | .error _ => live.gate
      (some (.applied result), { world, gate })
  | .configRedacted => (some (.config live.world.configRedacted), live)
  | .status metrics =>
      (some (.status (live.world.statusNow ⟨some metrics, some live.gate.reported⟩)), live)
  | .evaluate surroundings =>
      (none, { live with gate := live.gate.evaluate buildRouting surroundings })

/-- Gates that may differ in the routing they installed and in passwords. -/
structure SameDecisions (gate other : GateInner Target Router) : Prop where
  enabled : gate.enabled = other.enabled
  suffixes : gate.suffixes = other.suffixes
  last : gate.last = other.last
  reported : gate.reported = other.reported

section

variable {buildRouting} {gate other : GateInner Target Router}

theorem SameDecisions.evaluate (hsame : SameDecisions gate other) (surroundings : Surroundings) :
    SameDecisions (gate.evaluate buildRouting surroundings)
      (other.evaluate buildRouting surroundings) := by
  unfold GateInner.evaluate
  rw [hsame.enabled, hsame.suffixes, hsame.last]
  dsimp only
  split_ifs
  · exact hsame
  · exact hsame
  · exact ⟨hsame.enabled, hsame.suffixes, rfl, rfl⟩

/-- A gate takes from a config what is in its corporate-network section. -/
theorem sameDecisions_reconfigure {config config' : Config}
    (hsame : SameDecisions gate other) (hconfig : config.SameButPasswords config')
    (surroundings : Surroundings) :
    SameDecisions (gate.reconfigure buildRouting config surroundings)
      (other.reconfigure buildRouting config' surroundings) := by
  have hparams : gateParams config = gateParams config' := by
    rw [gateParams, gateParams, hconfig.corpNetwork]
  unfold GateInner.reconfigure
  rw [hparams]
  dsimp only
  split_ifs
  · refine SameDecisions.evaluate ?_ surroundings
    exact ⟨rfl, rfl, rfl, hsame.reported⟩
  · exact ⟨rfl, rfl, rfl, rfl⟩

end

/-- The on-corp state that a running app shows does not depend on the stored passwords
either: nothing that its views read does. -/
theorem live_secrets_unobserved (configPath : String) (ctx : ValidationCtx)
    {config config' : Config} (hconfig : config.SameButPasswords config')
    (status : StatusSnapshot) (disk disk' : Option Bytes)
    (routing routing' : Routing Target Router) (events : List LiveEvent) :
    replies (Live.answer buildRouting (.json configPath ctx true))
        ⟨{ disk, config, status, hookRuns := [] }, .new routing config⟩ events =
      replies (Live.answer buildRouting (.json configPath ctx true))
        ⟨{ disk := disk', config := config', status, hookRuns := [] }, .new routing' config'⟩
        events := by
  let related (first second : Live Target Router) : Prop :=
    first.world.SameButPasswords second.world ∧ SameDecisions first.gate second.gate
  refine replies_eq_of_related related ?_ ?_ events
  · rintro first second event ⟨hworld, hgate⟩
    cases event with
    | apply edit outcome surroundings =>
        have hanswer := apply_answer_eq configPath ctx true first.world second.world edit outcome
        have hnext := hworld.apply configPath ctx true edit outcome
        refine ⟨congrArg (fun result => some (Reply.applied result)) hanswer, hnext, ?_⟩
        dsimp only [Live.answer]
        rw [hanswer]
        split
        · exact sameDecisions_reconfigure hgate hnext.config surroundings
        · exact hgate
    | configRedacted =>
        refine ⟨congrArg (fun config => some (Reply.config config)) ?_, hworld, hgate⟩
        exact (Config.sameButPasswords_iff _ _).mp hworld.config
    | status metrics =>
        refine ⟨congrArg (fun snapshot => some (Reply.status snapshot)) ?_, hworld, hgate⟩
        rw [World.statusNow, World.statusNow, hworld.status, hgate.reported]
    | evaluate surroundings => exact ⟨rfl, hworld, hgate.evaluate surroundings⟩
  · have hparams : gateParams config = gateParams config' := by
      rw [gateParams, gateParams, hconfig.corpNetwork]
    refine ⟨⟨hconfig, rfl, .nil⟩, ?_, ?_, rfl, rfl⟩
    · rw [GateInner.new, hparams, GateInner.new]
    · rw [GateInner.new, hparams, GateInner.new]

end Zicade.App
