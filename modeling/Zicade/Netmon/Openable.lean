import Zicade.Config.Validate
import Zicade.Netmon.Gate
import Zicade.Netmon.Labels

/-! # Gates that can open

A gate opens when some adapter suffix is a corporate one. The validator and the matcher each
have a notion of an empty entry: blank for the one, nothing but dots for the other.
-/

namespace Zicade.Netmon

open Zicade.Foundation Zicade.Schema

/-! ## Names made of dots -/

theorem trimDots_eq_nil_iff (t : Text) : trimDots t = [] ↔ ∀ c ∈ t, c = '.' := by
  rw [trimDots, List.rdropWhile_eq_nil_iff]
  constructor
  · intro hrest c hc
    rw [← List.takeWhile_append_dropWhile (p := (· == '.')) (l := t), List.mem_append] at hc
    rcases hc with hc | hc
    · simpa using List.mem_takeWhile_imp hc
    · simpa using hrest c hc
  · intro hall c hc
    simpa using hall c ((List.dropWhile_sublist _).subset hc)

/-- An entry stands for no name when its trim is nothing but dots. -/
theorem nameOf_eq_nil_iff (entry : Text) : nameOf entry = [] ↔ ∀ c ∈ trim entry, c = '.' := by
  rw [nameOf, toAsciiLowercase, List.map_eq_nil_iff, trimDots_eq_nil_iff]

/-! ## What opens a gate -/

/-- Some adapters put a machine with this config on the corporate network. -/
def Openable (config : Config) : Prop :=
  ∃ active, onCorp active (gateParams config).suffixes = true

/-- Some configured entry, once trimmed of whitespace, has a character other than a dot. -/
def NamesNetwork (corp : CorpNetworkConfig) : Prop :=
  ∃ suffix ∈ corp.dnsSuffixes, ∃ c ∈ trim suffix, c ≠ '.'

/-- An adapter with a configured suffix is on the corporate network, so the gate opens for
some adapters when one entry stands for a name. -/
theorem exists_onCorp_iff (configured : List Text) :
    (∃ active, onCorp active configured = true) ↔ ∃ c ∈ configured, nameOf c ≠ [] := by
  constructor
  · rintro ⟨active, hon⟩
    obtain ⟨_, _, c, hc, hindicates⟩ := (onCorp_iff active configured).mp hon
    exact ⟨c, hc, hindicates.configured_nonempty⟩
  · rintro ⟨c, hc, hname⟩
    exact ⟨[c], (onCorp_iff [c] configured).mpr
      ⟨c, List.mem_singleton_self c, c, hc, hname, hname, List.suffix_rfl⟩⟩

section

variable {config : Config} {corp : CorpNetworkConfig}
  (hcorp : config.routing.corpNetwork = some corp) (henabled : corp.enabled = true)
include hcorp henabled

theorem gateParams_suffixes : (gateParams config).suffixes = corp.dnsSuffixes := by
  rw [gateParams, hcorp]
  dsimp only
  rw [if_pos henabled]

theorem openable_iff : Openable config ↔ NamesNetwork corp := by
  rw [Openable, gateParams_suffixes hcorp henabled, exists_onCorp_iff]
  simp only [NamesNetwork, Ne, nameOf_eq_nil_iff, not_forall, exists_prop]

/-- A gate that names no network routes directly after every evaluation, whatever its history
and the adapters detected. -/
theorem evaluate_of_not_namesNetwork (hnames : ¬ NamesNetwork corp) {Target Router : Type*}
    (buildRouting : Config → Routing Target Router) (routing : Routing Target Router)
    (start : Config) (events : List GateEvent) (surroundings : Surroundings)
    (hconfig : (gateAfter buildRouting routing start events).config = config) :
    ((gateAfter buildRouting routing start events).evaluate buildRouting surroundings).routing =
      .direct := by
  have hfollows := gateAfter_follows buildRouting routing start events
  have hon : (gateAfter buildRouting routing start events).enabled = true := by
    rw [hfollows.enabled, hconfig, gateEnabled, hcorp]
    exact henabled
  have hoff : onCorp surroundings.detected
      (gateAfter buildRouting routing start events).suffixes = false := by
    rw [hfollows.suffixes, hconfig, ← Bool.not_eq_true]
    exact fun hopen => hnames ((openable_iff hcorp henabled).mp ⟨_, hopen⟩)
  rcases GateInner.evaluate_cases buildRouting surroundings hon with
    ⟨hlast, hsame⟩ | ⟨-, -, hrouting⟩
  · rw [hoff] at hlast
    rw [hsame]
    exact hfollows.offCorp hon hlast
  · rw [hrouting, hoff]
    rfl

end

/-! ## What the validator lets through -/

/-- An accepted gate can open, and one that cannot is rejected. -/
structure GateSound (config : Config) (ctx : ValidationCtx) : Prop where
  opens : config.validate ctx = .ok () → Openable config
  rejects : ¬ Openable config → config.validate ctx ≠ .ok ()

theorem gateSound_iff (config : Config) (ctx : ValidationCtx) :
    GateSound config ctx ↔ (config.validate ctx = .ok () → Openable config) :=
  ⟨GateSound.opens, fun hopens => ⟨hopens, mt hopens⟩⟩

/-- An accepted gate can open exactly when one of its entries is more than dots. -/
theorem validated_gate_opens_iff {config : Config} {ctx : ValidationCtx}
    {corp : CorpNetworkConfig} (hcorp : config.routing.corpNetwork = some corp)
    (henabled : corp.enabled = true) (hvalid : config.validate ctx = .ok ()) :
    GateSound config ctx ↔ NamesNetwork corp := by
  rw [gateSound_iff, ← openable_iff hcorp henabled]
  exact ⟨fun hopens => hopens hvalid, fun hopen _ => hopen⟩

theorem validated_gate_opens_iff_sample : GateSound corpConfig ⟨true⟩ :=
  have hvalid : corpConfig.validate ⟨true⟩ = .ok () := by decide +kernel
  (validated_gate_opens_iff rfl rfl hvalid).mpr
    ⟨_, List.mem_singleton_self _, 'a', by decide +kernel, by decide⟩

/-- A gate whose only entry is a dot. -/
def dotGate : CorpNetworkConfig := ⟨true, [".".toList], 30⟩

def dotConfig : Config :=
  { corpConfig with routing := { corpConfig.routing with corpNetwork := some dotGate } }

/-- The validator accepts the dot, and no adapters open the gate. -/
theorem dotGate_never_opens :
    dotConfig.validate ⟨true⟩ = .ok () ∧ gateEnabled dotConfig = true ∧ ¬ Openable dotConfig := by
  have hdots : ∀ c ∈ trim ".".toList, c = '.' := by decide +kernel
  refine ⟨by decide +kernel, rfl, ?_⟩
  rw [openable_iff (show dotConfig.routing.corpNetwork = some dotGate from rfl) rfl]
  rintro ⟨suffix, hsuffix, c, hc, hne⟩
  obtain rfl : suffix = ".".toList := List.mem_singleton.mp hsuffix
  exact hne (hdots c hc)

end Zicade.Netmon
