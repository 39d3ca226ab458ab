import Zicade.Netmon.Gate

/-! # What a gate does to the world around it

The gate rebuilds a routing, sets the live one and reports its state. Here the
rebuild is a function of the config. The routing and the reported state then
follow the decision of the last call, from the routing that the start installed.
-/

namespace Zicade.Netmon

open Zicade.Foundation Zicade.Schema

variable {Target Router : Type*}

inductive GateEffect (Target Router : Type*)
  | rebuild (config : Config)
  | set (routing : Routing Target Router)
  | report (state : Option Bool)
  deriving DecidableEq, Repr

/-- A call into the gate, with the suffixes it detects. -/
inductive GateCall
  | evaluate (detected : List Text)
  | reconfigure (config : Config) (detected : List Text)
  deriving DecidableEq, Repr

namespace GateCall

def detected : GateCall → List Text
  | .evaluate detected => detected
  | .reconfigure _ detected => detected

/-- The call as the gate takes it, with a rebuild that succeeds. -/
def event : GateCall → GateEvent
  | .evaluate detected => .evaluate ⟨detected, true⟩
  | .reconfigure config detected => .reconfigure config ⟨detected, true⟩

end GateCall

variable (buildRouting : Config → Routing Target Router)

namespace GateInner

/-- The calls that `apply` makes. -/
def applyEffects (gate : GateInner Target Router) (corp : Bool) :
    List (GateEffect Target Router) :=
  if corp then
    [.rebuild gate.config, .set (buildRouting gate.config), .report (some true)]
  else [.set .direct, .report (some false)]

def evaluateEffects (gate : GateInner Target Router) (detected : List Text) :
    List (GateEffect Target Router) :=
  if !gate.enabled then []
  else
    let corp := onCorp detected gate.suffixes
    if gate.last = some corp then [] else gate.applyEffects buildRouting corp

/-- A gate that has taken a config over and not evaluated it yet. -/
def adopt (gate : GateInner Target Router) (config : Config) : GateInner Target Router :=
  let params := gateParams config
  { gate with
    enabled := params.enabled, suffixes := params.suffixes, poll := params.poll, config
    last := none }

def reconfigureEffects (gate : GateInner Target Router) (config : Config)
    (detected : List Text) : List (GateEffect Target Router) :=
  let adopted := gate.adopt config
  if adopted.enabled then adopted.evaluateEffects buildRouting detected
  else [.rebuild config, .set (buildRouting config), .report none]

def effects (gate : GateInner Target Router) : GateCall → List (GateEffect Target Router)
  | .evaluate detected => gate.evaluateEffects buildRouting detected
  | .reconfigure config detected => gate.reconfigureEffects buildRouting config detected

end GateInner

/-- The live routing and the reported state after an effect. -/
def GateEffect.perform (cells : Routing Target Router × Option Bool) :
    GateEffect Target Router → Routing Target Router × Option Bool
  | .rebuild _ => cells
  | .set routing => (routing, cells.2)
  | .report state => (cells.1, state)

/-- A call does to the live routing and the reported state what its effects do. -/
theorem GateInner.step_performs (gate : GateInner Target Router) (call : GateCall) :
    ((gate.step buildRouting call.event).routing, (gate.step buildRouting call.event).reported) =
      (gate.effects buildRouting call).foldl GateEffect.perform (gate.routing, gate.reported) := by
  have hevaluate : ∀ (gate : GateInner Target Router) (detected : List Text),
      ((gate.evaluate buildRouting ⟨detected, true⟩).routing,
          (gate.evaluate buildRouting ⟨detected, true⟩).reported) =
        (gate.evaluateEffects buildRouting detected).foldl GateEffect.perform
          (gate.routing, gate.reported) := by
    intro gate detected
    unfold evaluate evaluateEffects
    cases gate.enabled with
    | false => rfl
    | true =>
        by_cases hlast : gate.last = some (onCorp detected gate.suffixes)
        · simp [hlast]
        · cases hcorp : onCorp detected gate.suffixes <;>
            simp [hcorp ▸ hlast, apply, applyEffects, GateEffect.perform, rebuild]
  cases call with
  | evaluate detected => exact hevaluate gate detected
  | reconfigure config detected =>
      cases henabled : (gateParams config).enabled with
      | true =>
          have hadopted := hevaluate (gate.adopt config) detected
          simpa [step, GateCall.event, reconfigure, effects, reconfigureEffects, adopt, henabled]
            using hadopted
      | false =>
          simp [step, GateCall.event, reconfigure, effects, reconfigureEffects, adopt, henabled,
            GateEffect.perform, rebuild]

/-! ## The gate is in step with its decision -/

/-- The routing the start installs: an enabled gate sets its own. -/
def startRouting (config : Config) : Routing Target Router :=
  if gateEnabled config then .direct else buildRouting config

/-- Enabled flag, suffixes, live routing and reported state agree with the config
and the last decision. -/
structure GateInner.InStep (gate : GateInner Target Router) : Prop where
  enabled : gate.enabled = gateEnabled gate.config
  suffixes : gate.suffixes = (gateParams gate.config).suffixes
  decided : gate.enabled = true → ∀ corp, gate.last = some corp →
    gate.routing = (if corp then buildRouting gate.config else .direct) ∧
      gate.reported = some corp
  dormant : gate.enabled = false →
    gate.routing = buildRouting gate.config ∧ gate.reported = none

theorem GateInner.inStep_start (config : Config) :
    (GateInner.new (startRouting buildRouting config) config).InStep buildRouting := by
  refine ⟨gateParams_enabled config, rfl, fun _ _ => nofun, fun hdisabled => ?_⟩
  have hoff : gateEnabled config = false := (gateParams_enabled config).symm.trans hdisabled
  exact ⟨by simp [new, startRouting, hoff], rfl⟩

/-- What an evaluation leaves: the gate as it was, if it is off or its decision
stands, else the new decision applied. -/
theorem GateInner.evaluate_eq (gate : GateInner Target Router) (detected : List Text) :
    (gate.enabled = false ∨ gate.last = some (onCorp detected gate.suffixes)) ∧
        gate.evaluate buildRouting ⟨detected, true⟩ = gate ∧
        gate.evaluateEffects buildRouting detected = [] ∨
      (gate.enabled = true ∧ gate.last ≠ some (onCorp detected gate.suffixes)) ∧
        gate.evaluate buildRouting ⟨detected, true⟩ =
          { gate with
            routing := if onCorp detected gate.suffixes then buildRouting gate.config else .direct
            reported := some (onCorp detected gate.suffixes)
            last := some (onCorp detected gate.suffixes) } ∧
        gate.evaluateEffects buildRouting detected ≠ [] := by
  cases henabled : gate.enabled with
  | false =>
      exact .inl ⟨.inl rfl, by simp [evaluate, henabled], by simp [evaluateEffects, henabled]⟩
  | true =>
      by_cases hlast : gate.last = some (onCorp detected gate.suffixes)
      · exact .inl ⟨.inr hlast, by simp [evaluate, hlast], by simp [evaluateEffects, hlast]⟩
      · refine .inr ⟨⟨rfl, hlast⟩, by simp [evaluate, henabled, hlast, apply, rebuild], ?_⟩
        simp only [evaluateEffects, henabled, Bool.not_true, Bool.false_eq_true, if_false,
          if_neg hlast, applyEffects]
        split <;> simp

/-- An evaluation keeps a gate in step, and an enabled one decides by what it detects. -/
theorem GateInner.inStep_evaluate {gate : GateInner Target Router}
    (hinStep : gate.InStep buildRouting) (detected : List Text) :
    (gate.evaluate buildRouting ⟨detected, true⟩).InStep buildRouting ∧
      (gate.enabled = true → (gate.evaluate buildRouting ⟨detected, true⟩).last =
        some (onCorp detected gate.suffixes)) := by
  rcases gate.evaluate_eq buildRouting detected with
    ⟨hstands, hsame, -⟩ | ⟨⟨henabled, -⟩, hnext, -⟩
  · rw [hsame]
    refine ⟨hinStep, fun henabled => hstands.resolve_left ?_⟩
    simp [henabled]
  · rw [hnext]
    refine ⟨⟨hinStep.enabled, hinStep.suffixes, fun _ corp hcorp => ?_, fun hdisabled => ?_⟩,
      fun _ => rfl⟩
    · obtain rfl := Option.some.inj hcorp
      exact ⟨rfl, rfl⟩
    · exact absurd (henabled.symm.trans hdisabled) nofun

/-- A gate that has just taken a config over is in step once it evaluates, or has
applied the configured routing. -/
theorem GateInner.inStep_reconfigure (gate : GateInner Target Router) (config : Config)
    (detected : List Text) :
    (gate.reconfigure buildRouting config ⟨detected, true⟩).InStep buildRouting ∧
      (gate.reconfigure buildRouting config ⟨detected, true⟩).config = config ∧
      (gateEnabled config = true → (gate.reconfigure buildRouting config ⟨detected, true⟩).last =
        some (onCorp detected (gateParams config).suffixes)) := by
  obtain ⟨adopted, rfl, henabled, hsuffixes, hlast, ⟨hon, hnext⟩ | ⟨hoff, hnext⟩⟩ :=
    gate.reconfigure_cases buildRouting config ⟨detected, true⟩
  · have hadopted : adopted.InStep buildRouting := by
      refine ⟨henabled, hsuffixes, fun _ corp hcorp => ?_, fun hdisabled => ?_⟩
      · rw [hlast] at hcorp
        cases hcorp
      · exact absurd (hon.symm.trans hdisabled) nofun
    obtain ⟨hinStep, hdecided⟩ := GateInner.inStep_evaluate buildRouting hadopted detected
    obtain ⟨hconfig, -, -⟩ := adopted.evaluate_config buildRouting ⟨detected, true⟩
    rw [hnext, ← hsuffixes]
    exact ⟨hinStep, hconfig, fun _ => hdecided hon⟩
  · rw [hnext]
    refine ⟨⟨henabled, hsuffixes, fun hon => ?_, fun _ => ⟨rfl, rfl⟩⟩, rfl, fun hon => ?_⟩
    · exact absurd (hon.symm.trans hoff) nofun
    · exact absurd (hon.symm.trans (henabled.symm.trans hoff)) nofun

/-- A call leaves a gate in step, decided by what it detected. -/
theorem GateInner.inStep_step {gate : GateInner Target Router}
    (hinStep : gate.InStep buildRouting) (call : GateCall) :
    (gate.step buildRouting call.event).InStep buildRouting ∧
      ((gate.step buildRouting call.event).enabled = true →
        (gate.step buildRouting call.event).last =
          some (onCorp call.detected (gate.step buildRouting call.event).suffixes)) := by
  cases call with
  | evaluate detected =>
      obtain ⟨hnext, hdecided⟩ := GateInner.inStep_evaluate buildRouting hinStep detected
      obtain ⟨-, henabled, hsuffixes⟩ := gate.evaluate_config buildRouting ⟨detected, true⟩
      refine ⟨hnext, fun hon => ?_⟩
      rw [GateCall.event, step, henabled] at hon
      rw [GateCall.event, step, hsuffixes]
      exact hdecided hon
  | reconfigure config detected =>
      obtain ⟨hnext, hconfig, hdecided⟩ := gate.inStep_reconfigure buildRouting config detected
      refine ⟨hnext, fun hon => ?_⟩
      rw [GateCall.event, step] at hon ⊢
      rw [hnext.enabled, hconfig] at hon
      rw [hnext.suffixes, hconfig]
      exact hdecided hon

/-- A gate after calls from the monitor thread and the apply hook, as the app starts it. -/
def gateAfterCalls (config : Config) (calls : List GateCall) : GateInner Target Router :=
  gateAfter buildRouting (startRouting buildRouting config) config (calls.map GateCall.event)

theorem gateAfterCalls_concat (config : Config) (calls : List GateCall) (call : GateCall) :
    gateAfterCalls buildRouting config (calls ++ [call]) =
      (gateAfterCalls buildRouting config calls).step buildRouting call.event := by
  rw [gateAfterCalls, gateAfter, List.map_append, List.foldl_append]
  rfl

theorem gateAfterCalls_inStep (config : Config) (calls : List GateCall) :
    (gateAfterCalls buildRouting config calls).InStep buildRouting := by
  induction calls using List.reverseRecOn with
  | nil => exact GateInner.inStep_start buildRouting config
  | append_singleton past call ih =>
      rw [gateAfterCalls_concat]
      exact (GateInner.inStep_step buildRouting ih call).1

/-- The config of the last reconfigure, or else the initial one. -/
def currentConfig (config : Config) (calls : List GateCall) : Config :=
  (reconfigured (calls.map GateCall.event)).getLastD config

/-- What a gate shows for a config on a network: the configured routing and that it
is on the corporate network, `Direct` and that it is not, or, while the gate is
off, the configured routing and nothing. -/
def GateInner.Shows (config : Config) (detected : List Text)
    (gate : GateInner Target Router) : Prop :=
  if gateEnabled config then
    if onCorp detected (gateParams config).suffixes then
      gate.routing = buildRouting config ∧ gate.reported = some true
    else gate.routing = .direct ∧ gate.reported = some false
  else gate.routing = buildRouting config ∧ gate.reported = none

/-- A gate in step that decided by a detection shows what it calls for. -/
theorem GateInner.InStep.shows {gate : GateInner Target Router}
    (hinStep : gate.InStep buildRouting) {detected : List Text}
    (hdecided : gate.enabled = true → gate.last = some (onCorp detected gate.suffixes)) :
    gate.Shows buildRouting gate.config detected := by
  unfold Shows
  rw [← hinStep.enabled, ← hinStep.suffixes]
  cases henabled : gate.enabled with
  | false => simpa using hinStep.dormant henabled
  | true =>
      obtain ⟨hrouting, hreported⟩ := hinStep.decided henabled _ (hdecided henabled)
      cases hcorp : onCorp detected gate.suffixes <;> simp_all

theorem GateInner.effects_evaluate_eq_nil_iff (gate : GateInner Target Router)
    (detected : List Text) :
    gate.effects buildRouting (.evaluate detected) = [] ↔
      (gate.enabled = true → gate.last = some (onCorp detected gate.suffixes)) := by
  rw [effects]
  rcases gate.evaluate_eq buildRouting detected with
    ⟨hstands, -, hnone⟩ | ⟨⟨henabled, hchanged⟩, -, hsome⟩
  · refine iff_of_true hnone fun henabled => hstands.resolve_left ?_
    simp [henabled]
  · exact iff_of_false hsome fun hstands => hchanged (hstands henabled)

/-- A call leaves the gate showing what it calls for. -/
theorem gateAfterCalls_shows (config : Config) (calls : List GateCall) (call : GateCall) :
    (gateAfterCalls buildRouting config (calls ++ [call])).Shows buildRouting
      (currentConfig config (calls ++ [call])) call.detected := by
  have hinStep := gateAfterCalls_inStep buildRouting config calls
  have hconfig : (gateAfterCalls buildRouting config (calls ++ [call])).config =
      currentConfig config (calls ++ [call]) := (gateAfter_adopted buildRouting _ config _).config
  rw [← hconfig, gateAfterCalls_concat]
  obtain ⟨hnext, hdecided⟩ := GateInner.inStep_step buildRouting hinStep call
  exact hnext.shows buildRouting hdecided

/-- After every call the gate shows what its config and the last detection call for,
and an evaluation has no effect exactly if it decides the same again, or the gate
is off. -/
theorem gate_matches_decision (config : Config) (calls : List GateCall) (call : GateCall) :
    let gate := gateAfterCalls buildRouting config (calls ++ [call])
    let current := currentConfig config (calls ++ [call])
    gate.Shows buildRouting current call.detected ∧
      ∀ detected, gate.effects buildRouting (.evaluate detected) = [] ↔
        (gateEnabled current = true → onCorp detected (gateParams current).suffixes =
          onCorp call.detected (gateParams current).suffixes) := by
  intro gate current
  have hconfig : gate.config = current := (gateAfter_adopted buildRouting _ config _).config
  have hinStep : gate.InStep buildRouting := gateAfterCalls_inStep buildRouting config _
  have hdecided : gate.enabled = true → gate.last = some (onCorp call.detected gate.suffixes) := by
    have hpast := gateAfterCalls_inStep buildRouting config calls
    have hstep := (GateInner.inStep_step buildRouting hpast call).2
    rwa [← gateAfterCalls_concat] at hstep
  rw [← hconfig]
  refine ⟨hinStep.shows buildRouting hdecided, fun detected => ?_⟩
  rw [gate.effects_evaluate_eq_nil_iff, ← hinStep.enabled, ← hinStep.suffixes]
  refine forall_congr' fun henabled => ?_
  rw [hdecided henabled, Option.some.injEq, eq_comm]

end Zicade.Netmon
