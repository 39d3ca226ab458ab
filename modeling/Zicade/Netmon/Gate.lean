import Zicade.Config.Model
import Zicade.Foundation.Runs
import Zicade.Netmon.OnCorp

/-! # The corporate-network gate

The gate owns the live routing while it is enabled: the configured routing on
the corporate network, `Direct` off it. It acts only when the decision changes,
so a routing stays until the next change or the next config.
-/

namespace Zicade.Netmon

open Zicade.Foundation Zicade.Schema

/-- The proxy's live routing; what a target or a PAC router is made of does not
matter to the gate. -/
inductive Routing (Target Router : Type*)
  | direct
  | upstream (target : Target)
  | pac (router : Router)
  deriving DecidableEq, Repr

def gateEnabled (config : Config) : Bool :=
  match config.routing.corpNetwork with
  | some corp => corp.enabled
  | none => false

structure GateParams where
  enabled : Bool
  suffixes : List Text
  poll : UInt64

/-- The effective gate parameters; a disabled gate gets a harmless poll. -/
def gateParams (config : Config) : GateParams :=
  match config.routing.corpNetwork with
  | some corp =>
      if corp.enabled then ⟨true, corp.dnsSuffixes, max corp.pollSeconds 1⟩ else ⟨false, [], 30⟩
  | none => ⟨false, [], 30⟩

/-- What surrounds one call: the suffixes detected, and whether the routing can
be built. -/
structure Surroundings where
  detected : List Text
  builds : Bool
  deriving DecidableEq, Repr

section

variable {Target Router : Type*}

/-- `last` is the last decision applied; `reported` is the on-corp cell of the
status view. -/
structure GateInner (Target Router : Type*) where
  routing : Routing Target Router
  enabled : Bool
  suffixes : List Text
  poll : UInt64
  config : Config
  reported : Option Bool
  last : Option Bool

variable (buildRouting : Config → Routing Target Router)

/-- Build errors are mapped to `Direct`. -/
def rebuild (builds : Bool) (config : Config) : Routing Target Router :=
  if builds then buildRouting config else .direct

namespace GateInner

def new (routing : Routing Target Router) (config : Config) : GateInner Target Router :=
  let params := gateParams config
  { routing, enabled := params.enabled, suffixes := params.suffixes, poll := params.poll, config
    reported := none, last := none }

/-- Swap the live routing for the given on-corp state and report it. -/
def apply (gate : GateInner Target Router) (surroundings : Surroundings) (corp : Bool) :
    GateInner Target Router :=
  { gate with
    routing := if corp then rebuild buildRouting surroundings.builds gate.config else .direct
    reported := some corp }

def evaluate (gate : GateInner Target Router) (surroundings : Surroundings) :
    GateInner Target Router :=
  if !gate.enabled then gate
  else
    let corp := onCorp surroundings.detected gate.suffixes
    if gate.last = some corp then gate
    else { gate.apply buildRouting surroundings corp with last := some corp }

/-- Adopt a new config. A gate that is turned off applies the configured routing
once. -/
def reconfigure (gate : GateInner Target Router) (config : Config)
    (surroundings : Surroundings) : GateInner Target Router :=
  let params := gateParams config
  let adopted : GateInner Target Router :=
    { gate with
      enabled := params.enabled, suffixes := params.suffixes, poll := params.poll, config
      last := none }
  if adopted.enabled then adopted.evaluate buildRouting surroundings
  else
    { adopted with
      routing := rebuild buildRouting surroundings.builds config
      reported := none }

end GateInner

inductive GateEvent
  | evaluate (surroundings : Surroundings)
  | reconfigure (config : Config) (surroundings : Surroundings)
  deriving DecidableEq, Repr

def GateInner.step (gate : GateInner Target Router) : GateEvent → GateInner Target Router
  | .evaluate surroundings => gate.evaluate buildRouting surroundings
  | .reconfigure config surroundings => gate.reconfigure buildRouting config surroundings

/-- A gate after a history of calls from the monitor thread and the apply hook. -/
def gateAfter (routing : Routing Target Router) (config : Config) (events : List GateEvent) :
    GateInner Target Router :=
  events.foldl (GateInner.step buildRouting) (.new routing config)

/-! ## What a gate remembers -/

/-- Whether the routing could be built when the present on-corp stretch began,
read off a history with its newest event first; `none` outside such a stretch.
A stretch reaches back to the last off-corp detection or reconfigure. -/
def stretchBuilt (suffixes : List Text) : List GateEvent → Option Bool
  | [] => none
  | .reconfigure _ surroundings :: _ =>
      if onCorp surroundings.detected suffixes then some surroundings.builds else none
  | .evaluate surroundings :: older =>
      if onCorp surroundings.detected suffixes then
        some ((stretchBuilt suffixes older).getD surroundings.builds)
      else none

/-- The parameters follow the config; an enabled gate holds what its last
decision installed. -/
structure GateInner.Follows (past : List GateEvent) (gate : GateInner Target Router) : Prop where
  enabled : gate.enabled = gateEnabled gate.config
  suffixes : gate.suffixes = (gateParams gate.config).suffixes
  offCorp : gate.enabled = true → gate.last = some false → gate.routing = .direct
  onCorp : gate.enabled = true → ∀ built, stretchBuilt gate.suffixes past.reverse = some built →
    gate.last = some true ∧ gate.routing = rebuild buildRouting built gate.config
  outside : gate.enabled = true → stretchBuilt gate.suffixes past.reverse = none →
    gate.last ≠ some true

theorem gateParams_enabled (config : Config) :
    (gateParams config).enabled = gateEnabled config := by
  unfold gateParams gateEnabled
  cases config.routing.corpNetwork with
  | none => rfl
  | some corp => cases hcorp : corp.enabled <;> simp [hcorp]

theorem GateInner.follows_new (routing : Routing Target Router) (config : Config) :
    (GateInner.new routing config).Follows buildRouting [] := by
  constructor
  · exact gateParams_enabled config
  · rfl
  · intro _ hlast
    cases hlast
  · intro _ built hbuilt
    cases hbuilt
  · intro _ _ hlast
    cases hlast

/-- Evaluating changes neither the config nor what is derived from it. -/
theorem GateInner.evaluate_config (gate : GateInner Target Router) (surroundings : Surroundings) :
    (gate.evaluate buildRouting surroundings).config = gate.config ∧
      (gate.evaluate buildRouting surroundings).enabled = gate.enabled ∧
      (gate.evaluate buildRouting surroundings).suffixes = gate.suffixes := by
  unfold evaluate
  split
  · exact ⟨rfl, rfl, rfl⟩
  · dsimp only
    split <;> exact ⟨rfl, rfl, rfl⟩

/-- What an enabled gate does: nothing if the decision stands, or install it. -/
theorem GateInner.evaluate_cases {gate : GateInner Target Router} (surroundings : Surroundings)
    (henabled : gate.enabled = true) :
    (gate.last = some (Netmon.onCorp surroundings.detected gate.suffixes) ∧
        gate.evaluate buildRouting surroundings = gate) ∨
      (gate.last ≠ some (Netmon.onCorp surroundings.detected gate.suffixes) ∧
        (gate.evaluate buildRouting surroundings).last =
          some (Netmon.onCorp surroundings.detected gate.suffixes) ∧
        (gate.evaluate buildRouting surroundings).routing =
          if Netmon.onCorp surroundings.detected gate.suffixes then
            rebuild buildRouting surroundings.builds gate.config
          else .direct) := by
  unfold evaluate
  rw [henabled]
  by_cases hlast : gate.last = some (Netmon.onCorp surroundings.detected gate.suffixes)
  · left
    exact ⟨hlast, by simp [hlast]⟩
  · right
    refine ⟨hlast, ?_⟩
    simp [hlast, apply]

/-- A decision that stands extends the stretch; one that changes opens it. -/
theorem GateInner.follows_evaluate {past : List GateEvent} {gate : GateInner Target Router}
    (hfollows : gate.Follows buildRouting past) (surroundings : Surroundings) :
    (gate.evaluate buildRouting surroundings).Follows buildRouting
      (past ++ [.evaluate surroundings]) := by
  obtain ⟨hconfig, henabledEq, hsuffixes⟩ := gate.evaluate_config buildRouting surroundings
  have hreverse : (past ++ [GateEvent.evaluate surroundings]).reverse =
      .evaluate surroundings :: past.reverse := by simp
  refine ⟨by rw [hconfig, henabledEq, hfollows.enabled],
    by rw [hconfig, hsuffixes, hfollows.suffixes], ?_, ?_, ?_⟩
  · intro henabled hlast
    rw [henabledEq] at henabled
    rcases gate.evaluate_cases buildRouting surroundings henabled with
      ⟨-, hsame⟩ | ⟨-, hnext, hrouting⟩
    · rw [hsame] at hlast ⊢
      exact hfollows.offCorp henabled hlast
    · rw [hnext] at hlast
      simp [hrouting, Option.some.inj hlast]
  · intro henabled built hbuilt
    rw [henabledEq] at henabled
    rw [hsuffixes, hreverse, stretchBuilt] at hbuilt
    rw [hconfig]
    by_cases hcorp : Netmon.onCorp surroundings.detected gate.suffixes = true
    · -- on-corp: the decision stands inside a stretch and changes only at its start
      rw [if_pos hcorp, Option.some.injEq] at hbuilt
      rcases gate.evaluate_cases buildRouting surroundings henabled with
        ⟨hlast, hsame⟩ | ⟨hlast, hnext, hrouting⟩
      · rw [hcorp] at hlast
        rw [hsame]
        cases hstretch : stretchBuilt gate.suffixes past.reverse with
        | none => exact absurd hlast (hfollows.outside henabled hstretch)
        | some opened =>
            rw [hstretch] at hbuilt
            obtain rfl : opened = built := hbuilt
            exact hfollows.onCorp henabled opened hstretch
      · rw [hcorp] at hlast hnext
        rw [if_pos hcorp] at hrouting
        cases hstretch : stretchBuilt gate.suffixes past.reverse with
        | none =>
            rw [hstretch] at hbuilt
            obtain rfl : surroundings.builds = built := hbuilt
            exact ⟨hnext, hrouting⟩
        | some opened => exact absurd (hfollows.onCorp henabled opened hstretch).1 hlast
    · rw [if_neg hcorp] at hbuilt
      cases hbuilt
  · intro henabled hnone
    rw [henabledEq] at henabled
    rw [hsuffixes, hreverse, stretchBuilt] at hnone
    have hcorp : Netmon.onCorp surroundings.detected gate.suffixes = false := by
      by_contra hne
      rw [if_pos (by simpa using hne)] at hnone
      cases hnone
    rcases gate.evaluate_cases buildRouting surroundings henabled with
      ⟨hlast, hsame⟩ | ⟨-, hnext, -⟩
    · rw [hsame, hlast, hcorp]
      simp
    · rw [hnext, hcorp]
      simp

/-- A reconfigure evaluates the gate with its new parameters and no decision, or
turns it off and applies the configured routing. -/
theorem GateInner.reconfigure_cases (gate : GateInner Target Router) (config : Config)
    (surroundings : Surroundings) :
    ∃ adopted : GateInner Target Router, adopted.config = config ∧
      adopted.enabled = gateEnabled config ∧ adopted.suffixes = (gateParams config).suffixes ∧
      adopted.last = none ∧
      ((adopted.enabled = true ∧ gate.reconfigure buildRouting config surroundings =
          adopted.evaluate buildRouting surroundings) ∨
        (adopted.enabled = false ∧ gate.reconfigure buildRouting config surroundings =
          { adopted with
            routing := rebuild buildRouting surroundings.builds config
            reported := none })) := by
  let params := gateParams config
  refine ⟨{ gate with
    enabled := params.enabled, suffixes := params.suffixes, poll := params.poll, config
    last := none }, rfl, gateParams_enabled config, rfl, rfl, ?_⟩
  unfold reconfigure
  dsimp only
  split
  next henabled => exact .inl ⟨henabled, rfl⟩
  next hdisabled => exact .inr ⟨by simpa using hdisabled, rfl⟩

/-- A reconfigure forgets the stretch before it. -/
theorem GateInner.follows_reconfigure {past : List GateEvent} (gate : GateInner Target Router)
    (config : Config) (surroundings : Surroundings) :
    (gate.reconfigure buildRouting config surroundings).Follows buildRouting
      (past ++ [.reconfigure config surroundings]) := by
  have hreverse : (past ++ [GateEvent.reconfigure config surroundings]).reverse =
      .reconfigure config surroundings :: past.reverse := by simp
  obtain ⟨adopted, rfl, hadopted, hparams, hlast, ⟨henabled, hnext⟩ | ⟨hdisabled, hnext⟩⟩ :=
    gate.reconfigure_cases buildRouting config surroundings
  · obtain ⟨hconfig, henabledEq, hsuffixes⟩ := adopted.evaluate_config buildRouting surroundings
    rw [hnext]
    rcases adopted.evaluate_cases buildRouting surroundings henabled with
      ⟨hstands, -⟩ | ⟨-, hdecided, hrouting⟩
    · rw [hlast] at hstands
      cases hstands
    refine ⟨by rw [henabledEq, hconfig, hadopted], by rw [hsuffixes, hconfig, hparams], ?_, ?_, ?_⟩
    · intro _ hoff
      rw [hdecided] at hoff
      simp [hrouting, Option.some.inj hoff]
    · intro _ built hbuilt
      rw [hsuffixes, hreverse, stretchBuilt] at hbuilt
      by_cases hcorp : Netmon.onCorp surroundings.detected adopted.suffixes = true
      · rw [if_pos hcorp] at hbuilt hrouting
        rw [hdecided, hcorp, hconfig, hrouting, Option.some.inj hbuilt]
        exact ⟨rfl, rfl⟩
      · rw [if_neg hcorp] at hbuilt
        cases hbuilt
    · intro _ hnone
      rw [hsuffixes, hreverse, stretchBuilt] at hnone
      by_cases hcorp : Netmon.onCorp surroundings.detected adopted.suffixes = true
      · rw [if_pos hcorp] at hnone
        cases hnone
      · rw [hdecided]
        simpa using hcorp
  · have hoff : ¬ adopted.enabled = true := by simp [hdisabled]
    rw [hnext]
    exact ⟨hadopted, hparams, fun henabled => absurd henabled hoff,
      fun henabled => absurd henabled hoff, fun henabled => absurd henabled hoff⟩

/-- Every reachable gate follows its history. -/
theorem gateAfter_follows (routing : Routing Target Router) (config : Config)
    (events : List GateEvent) :
    (gateAfter buildRouting routing config events).Follows buildRouting events := by
  apply foldl_history_invariant (fun past gate => GateInner.Follows buildRouting past gate)
  · exact GateInner.follows_new buildRouting routing config
  · intro past gate event hfollows
    cases event with
    | evaluate surroundings => exact GateInner.follows_evaluate buildRouting hfollows surroundings
    | reconfigure next surroundings =>
        exact GateInner.follows_reconfigure buildRouting gate next surroundings

/-! ## The config a gate holds -/

/-- The configs a history hands to the gate. -/
def reconfigured (events : List GateEvent) : List Config :=
  events.filterMap fun event =>
    match event with
    | .evaluate _ => none
    | .reconfigure config _ => some config

/-- A gate holds the last config it was handed, and routes by it while the
config turns the gate off. -/
structure GateInner.Adopted (start : Config) (past : List GateEvent)
    (gate : GateInner Target Router) : Prop where
  config : gate.config = (reconfigured past).getLastD start
  dormant : gate.enabled = false → reconfigured past ≠ [] →
    ∃ builds, gate.routing = rebuild buildRouting builds gate.config

theorem GateInner.adopted_evaluate {start : Config} {past : List GateEvent}
    {gate : GateInner Target Router} (hadopted : gate.Adopted buildRouting start past)
    (surroundings : Surroundings) :
    (gate.evaluate buildRouting surroundings).Adopted buildRouting start
      (past ++ [.evaluate surroundings]) := by
  have hpast : reconfigured (past ++ [.evaluate surroundings]) = reconfigured past := by
    simp [reconfigured]
  obtain ⟨hconfig, henabled, -⟩ := gate.evaluate_config buildRouting surroundings
  refine ⟨by rw [hpast, hconfig, hadopted.config], fun hdisabled hne => ?_⟩
  rw [henabled] at hdisabled
  rw [hpast] at hne
  have hsame : gate.evaluate buildRouting surroundings = gate := by
    rw [evaluate, hdisabled]
    rfl
  rw [hsame]
  exact hadopted.dormant hdisabled hne

theorem GateInner.adopted_reconfigure {start : Config} {past : List GateEvent}
    (gate : GateInner Target Router) (config : Config) (surroundings : Surroundings) :
    (gate.reconfigure buildRouting config surroundings).Adopted buildRouting start
      (past ++ [.reconfigure config surroundings]) := by
  have hhanded : (reconfigured (past ++ [.reconfigure config surroundings])).getLastD start =
      config := by simp [reconfigured]
  obtain ⟨adopted, rfl, -, -, -, ⟨henabled, hnext⟩ | ⟨-, hnext⟩⟩ :=
    gate.reconfigure_cases buildRouting config surroundings
  · obtain ⟨hconfig, hsame, -⟩ := adopted.evaluate_config buildRouting surroundings
    refine ⟨by rw [hnext, hconfig, hhanded], fun hdisabled => ?_⟩
    rw [hnext, hsame, henabled] at hdisabled
    cases hdisabled
  · rw [hnext]
    exact ⟨hhanded.symm, fun _ _ => ⟨surroundings.builds, rfl⟩⟩

theorem gateAfter_adopted (routing : Routing Target Router) (config : Config)
    (events : List GateEvent) :
    (gateAfter buildRouting routing config events).Adopted buildRouting config events := by
  apply foldl_history_invariant (fun past gate => GateInner.Adopted buildRouting config past gate)
  · exact ⟨rfl, fun _ hne => absurd rfl hne⟩
  · intro past gate event hadopted
    cases event with
    | evaluate surroundings => exact GateInner.adopted_evaluate buildRouting hadopted surroundings
    | reconfigure next surroundings =>
        exact GateInner.adopted_reconfigure buildRouting gate next surroundings

/-! ## When the configured routing is live -/

/-- With nothing detected an enabled gate routes directly. -/
theorem evaluate_undetected (routing : Routing Target Router) (config : Config)
    (events : List GateEvent) (surroundings : Surroundings)
    (henabled : gateEnabled (gateAfter buildRouting routing config events).config = true)
    (hdetected : surroundings.detected = []) :
    ((gateAfter buildRouting routing config events).evaluate buildRouting surroundings).routing =
      .direct := by
  have hfollows := gateAfter_follows buildRouting routing config events
  rw [← hfollows.enabled] at henabled
  have hoff : onCorp surroundings.detected
      (gateAfter buildRouting routing config events).suffixes = false := by
    rw [hdetected, onCorp_nil]
  rcases GateInner.evaluate_cases buildRouting surroundings henabled with
    ⟨hlast, hsame⟩ | ⟨-, -, hrouting⟩
  · rw [hoff] at hlast
    rw [hsame]
    exact hfollows.offCorp henabled hlast
  · rw [hrouting, hoff]
    rfl

/-- When detection is unavailable the live routing of an enabled gate is the
configured one exactly when that is `Direct` itself. -/
theorem evaluate_undetected_configured_iff (routing : Routing Target Router) (config : Config)
    (events : List GateEvent) (surroundings : Surroundings)
    (henabled : gateEnabled (gateAfter buildRouting routing config events).config = true)
    (hdetected : surroundings.detected = []) :
    ((gateAfter buildRouting routing config events).evaluate buildRouting surroundings).routing =
        rebuild buildRouting surroundings.builds
          (gateAfter buildRouting routing config events).config ↔
      rebuild buildRouting surroundings.builds
        (gateAfter buildRouting routing config events).config = .direct := by
  rw [evaluate_undetected buildRouting routing config events surroundings henabled hdetected]
  exact eq_comm

/-- On the corporate network, when the routing can be built, the live routing is
the configured one exactly when it could be built as the present stretch began,
or is `Direct` itself. -/
theorem evaluate_onCorp_configured_iff (routing : Routing Target Router) (config : Config)
    (events : List GateEvent) (surroundings : Surroundings)
    (henabled : gateEnabled (gateAfter buildRouting routing config events).config = true)
    (hcorp : onCorp surroundings.detected
      (gateParams (gateAfter buildRouting routing config events).config).suffixes = true)
    (hbuilds : surroundings.builds = true) :
    ((gateAfter buildRouting routing config events).evaluate buildRouting surroundings).routing =
        buildRouting (gateAfter buildRouting routing config events).config ↔
      stretchBuilt (gateParams (gateAfter buildRouting routing config events).config).suffixes
          events.reverse ≠ some false ∨
        buildRouting (gateAfter buildRouting routing config events).config = .direct := by
  have hfollows := gateAfter_follows buildRouting routing config events
  rw [← hfollows.enabled] at henabled
  rw [← hfollows.suffixes] at hcorp ⊢
  cases hstretch : stretchBuilt (gateAfter buildRouting routing config events).suffixes
      events.reverse with
  | none =>
      have hlast := hfollows.outside henabled hstretch
      rcases GateInner.evaluate_cases buildRouting surroundings henabled with
        ⟨hsame, -⟩ | ⟨-, -, hrouting⟩
      · rw [hcorp] at hsame
        exact absurd hsame hlast
      · simp [hrouting, hcorp, hbuilds, rebuild]
  | some built =>
      obtain ⟨hlast, hrouting⟩ := hfollows.onCorp henabled built hstretch
      rcases GateInner.evaluate_cases buildRouting surroundings henabled with
        ⟨-, hsame⟩ | ⟨hne, -⟩
      · rw [hsame, hrouting]
        cases built with
        | true => simp [rebuild]
        | false => simp [rebuild, eq_comm]
      · rw [hcorp] at hne
        exact absurd hlast hne

end

/-! ## A gate that stays off its configured routing -/

/-- A config with an enabled gate for one suffix, routed through an upstream. -/
def corpConfig : Config :=
  { routing :=
      { mode := .upstream
        upstream := some ⟨"proxy.example.com".toList, 8080, {}⟩
        corpNetwork := some ⟨true, ["ad.example.org".toList], 30⟩ } }

/-- The routing built for a config with an upstream names its host and port. -/
def upstreamRouting (config : Config) : Routing (Text × UInt16) Unit :=
  match config.routing.upstream with
  | some upstream => .upstream (upstream.host, upstream.port)
  | none => .direct

def onSite : List Text := activeDnsSuffixes (.up ["site.ad.example.org".toList])

theorem evaluate_undetected_configured_iff_sample :
    ((gateAfter upstreamRouting .direct corpConfig []).evaluate upstreamRouting
        ⟨activeDnsSuffixes .offWindows, false⟩).routing =
      rebuild upstreamRouting false corpConfig :=
  (evaluate_undetected_configured_iff upstreamRouting .direct corpConfig []
    ⟨activeDnsSuffixes .offWindows, false⟩ (by decide) rfl).mpr rfl

/-- Adapter enumeration fails on a machine that was on the corporate network. -/
theorem enumerationFailure_goesDirect :
    gateEnabled corpConfig = true ∧
      (gateAfter upstreamRouting .direct corpConfig [.evaluate ⟨onSite, true⟩]).routing =
        rebuild upstreamRouting true corpConfig ∧
      ((gateAfter upstreamRouting .direct corpConfig [.evaluate ⟨onSite, true⟩]).evaluate
        upstreamRouting ⟨activeDnsSuffixes .enumerationFailed, true⟩).routing = .direct ∧
      rebuild upstreamRouting true corpConfig ≠ .direct := by
  decide +kernel

theorem evaluate_onCorp_configured_iff_sample :
    ((gateAfter upstreamRouting .direct corpConfig [.evaluate ⟨onSite, true⟩]).evaluate
        upstreamRouting ⟨onSite, true⟩).routing = upstreamRouting corpConfig :=
  (evaluate_onCorp_configured_iff upstreamRouting .direct corpConfig [.evaluate ⟨onSite, true⟩]
    ⟨onSite, true⟩ (by decide +kernel) (by decide +kernel) rfl).mpr (.inl (by decide +kernel))

/-- A rebuild fails as a new config arrives on the corporate network; later
evaluations that could build the routing leave `Direct` in place. -/
theorem failedRebuild_stays :
    ((gateAfter upstreamRouting .direct corpConfig
          [.evaluate ⟨onSite, true⟩, .reconfigure corpConfig ⟨onSite, false⟩]).evaluate
        upstreamRouting ⟨onSite, true⟩).routing = .direct ∧
      upstreamRouting corpConfig ≠ .direct := by
  decide +kernel

end Zicade.Netmon
