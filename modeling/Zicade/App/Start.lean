import Zicade.App.Routing
import Zicade.Auth.Base64
import Zicade.Net.IpAddr
import Zicade.Netmon.GateEffects

/-! # Starting the app

`App::start` validates the config, reads its listen address, binds the listener
and builds the routing, unless the gate owns it. What the validator accepts and
what a start goes on to need are two different lists.
-/

namespace Zicade.App

open Zicade.Foundation Zicade.Auth Zicade.Net Zicade.Schema Zicade.Netmon

/-- What a start meets: the platform, whether the port is free, whether the
resolver thread starts, and the DNS suffixes detected. -/
structure Environment where
  ctx : ValidationCtx
  binds : Bool
  threadStarts : Bool
  detected : List Text
  deriving DecidableEq, Repr

/-- A started app: where its proxy listens, and the gate that owns its routing. -/
structure Started (σ : Type*) where
  proxyAddr : IpAddr × UInt16
  gate : GateInner (UpstreamTarget σ) PacRouter
  routingMode : Text

def routingModeLabel : RoutingMode → Text
  | .direct => "direct".toList
  | .upstream => "upstream".toList
  | .pac => "pac".toList

section

variable {σ : Type*} (base64 : Base64) (sspi : Text → SspiPackage → σ)

/-- The routing the proxy is bound with: an enabled gate will set it. -/
def initialRouting (threadStarts : Bool) (config : Config) :
    Except StartError (Routing (UpstreamTarget σ) PacRouter) :=
  if gateEnabled config then .ok .direct else buildRouting base64 sspi threadStarts config

def start (env : Environment) (config : Config) : Except StartError (Started σ) :=
  match config.validate env.ctx with
  | .error err => .error (.invalid err)
  | .ok () =>
      match IpAddr.fromStr config.listen.host with
      | none => .error (.notAnIpAddress config.listen.host)
      | some host =>
          if !env.binds then .error .bind
          else
            match initialRouting base64 sspi env.threadStarts config with
            | .error err => .error err
            | .ok routing =>
                let gate := (GateInner.new routing config).evaluate
                  (gateRebuild base64 sspi env.threadStarts) ⟨env.detected, true⟩
                .ok ⟨(host, config.listen.port), gate, routingModeLabel config.routing.mode⟩

/-! ## What a start needs -/

/-- The listen address is written as a loopback address: four dotted octets that
begin with 127, or an IPv6 text that reads as `::1`. -/
def WrittenLoopback (t : Text) : Prop :=
  (∃ b c d, IsDotted t 127 b c d) ∨ IpAddr.fromStr t = some (.v6 [0, 0, 0, 0, 0, 0, 0, 1])

theorem writtenLoopback_iff (t : Text) :
    WrittenLoopback t ↔ ∃ addr, IpAddr.fromStr t = some addr ∧ addr.isLoopback = true := by
  constructor
  · rintro (⟨b, c, d, hdotted⟩ | hv6)
    · exact ⟨_, fromStr_eq_v4.mpr hdotted, rfl⟩
    · exact ⟨_, hv6, rfl⟩
  · rintro ⟨addr, hparsed, hloopback⟩
    cases addr with
    | v4 a b c d =>
        obtain rfl : a = 127 := by simpa [IpAddr.isLoopback] using hloopback
        exact .inl ⟨b, c, d, fromStr_eq_v4.mp hparsed⟩
    | v6 segments =>
        obtain rfl : segments = [0, 0, 0, 0, 0, 0, 0, 1] := by
          simpa [IpAddr.isLoopback] using hloopback
        exact .inr hparsed

/-- The fields a start relies on and the validator does not look at. -/
structure Unchecked (config : Config) : Prop where
  host : WrittenLoopback config.listen.host
  upstream : config.routing.mode = .upstream →
    ∀ upstream, config.routing.upstream = some upstream → upstream.host ≠ []
  backend : ∀ pac, config.routing.pac = some pac →
    (pac.source = .url → pac.url ≠ none) ∧ (pac.source = .file → pac.path ≠ none)

/-- A config one can start on safely: it listens on a loopback address, names the
upstream and the script its sections promise, and a start fails only where the
port is taken or the resolver thread does not start. -/
structure StartsSafely (ctx : ValidationCtx) (config : Config) : Prop where
  host : ∃ addr, IpAddr.fromStr config.listen.host = some addr ∧ addr.isLoopback = true
  upstream : config.routing.mode = .upstream →
    ∃ upstream, config.routing.upstream = some upstream ∧ upstream.host ≠ []
  backend : ∀ pac, config.routing.pac = some pac →
    ∃ source, buildBackend pac.source pac.url pac.path = .ok source
  failures : ∀ env err, env.ctx = ctx → start base64 sspi env config = .error err →
    err = .bind ∨ err = .resolverThread
  listens : ∀ env app, env.ctx = ctx → start base64 sspi env config = .ok app →
    app.proxyAddr.1.isLoopback = true

/-- What validation says about the sections. -/
theorem sections_of_validate {config : Config} {ctx : ValidationCtx}
    (hvalid : config.validate ctx = .ok ()) : checkSections config.routing = .ok () := by
  obtain ⟨_, -, hrest⟩ := bind_eq_ok.mp hvalid
  obtain ⟨_, hsections, -⟩ := bind_eq_ok.mp hrest
  exact hsections

theorem buildBackend_ok_iff (pac : PacConfig) :
    (∃ source, buildBackend pac.source pac.url pac.path = .ok source) ↔
      (pac.source = .url → pac.url ≠ none) ∧ (pac.source = .file → pac.path ≠ none) := by
  unfold buildBackend
  cases pac.source with
  | auto => simp
  | url => cases pac.url <;> simp
  | file => cases pac.path <;> simp

theorem initialRouting_error {threadStarts : Bool} {config : Config} {err : StartError}
    (hsections : checkSections config.routing = .ok ())
    (hinitial : initialRouting base64 sspi threadStarts config = .error err) :
    err = .resolverThread := by
  unfold initialRouting at hinitial
  split at hinitial
  next => cases hinitial
  next => exact buildRouting_error base64 sspi hsections hinitial

/-- A start on a valid config with an address fails only where it binds or builds. -/
theorem start_cases {env : Environment} {config : Config}
    (hvalid : config.validate env.ctx = .ok ()) {addr : IpAddr}
    (hhost : IpAddr.fromStr config.listen.host = some addr) :
    (∃ err, start base64 sspi env config = .error err ∧
        (err = .bind ∨ err = .resolverThread)) ∨
      ∃ app, start base64 sspi env config = .ok app ∧ app.proxyAddr.1 = addr := by
  simp only [start, hvalid, hhost]
  split
  next => exact .inl ⟨_, rfl, .inl rfl⟩
  next =>
    cases hinitial : initialRouting base64 sspi env.threadStarts config with
    | error err =>
        exact .inl ⟨err, rfl,
          .inr (initialRouting_error base64 sspi (sections_of_validate hvalid) hinitial)⟩
    | ok routing => exact .inr ⟨_, rfl, rfl⟩

/-- The routing a gate starts from is the one its start installed. -/
theorem startRouting_eq {threadStarts : Bool} {config : Config}
    {routing : Routing (UpstreamTarget σ) PacRouter}
    (hinitial : initialRouting base64 sspi threadStarts config = .ok routing) :
    startRouting (gateRebuild base64 sspi threadStarts) config = routing := by
  unfold initialRouting at hinitial
  unfold startRouting
  split
  next henabled =>
    rw [if_pos henabled] at hinitial
    exact Except.ok.inj hinitial
  next hdisabled =>
    rw [if_neg hdisabled] at hinitial
    rw [gateRebuild, hinitial]

/-- The gate of a started app has evaluated once, from the routing installed. -/
theorem start_gate {env : Environment} {config : Config} {app : Started σ}
    (hstart : start base64 sspi env config = .ok app) :
    app.gate = gateAfterCalls (gateRebuild base64 sspi env.threadStarts) config
      [.evaluate env.detected] := by
  unfold start at hstart
  split at hstart
  next => cases hstart
  next =>
    split at hstart
    next => cases hstart
    next =>
      split at hstart
      next => cases hstart
      next =>
        split at hstart
        next => cases hstart
        next routing hinitial =>
          obtain rfl := Except.ok.inj hstart
          rw [← startRouting_eq base64 sspi hinitial]
          rfl

/-- A started app routes by its config from the first connection on. -/
theorem start_shows {env : Environment} {config : Config} {app : Started σ}
    (hstart : start base64 sspi env config = .ok app) :
    app.gate.Shows (gateRebuild base64 sspi env.threadStarts) config env.detected := by
  rw [start_gate base64 sspi hstart]
  exact gateAfterCalls_shows (gateRebuild base64 sspi env.threadStarts) config []
    (.evaluate env.detected)

/-- A config that validates is safe to start on exactly if the fields the validator
does not look at are. -/
theorem validated_startsSafely_iff (config : Config) (ctx : ValidationCtx)
    (hvalid : config.validate ctx = .ok ()) :
    StartsSafely base64 sspi ctx config ↔ Unchecked config := by
  constructor
  · intro hsafe
    refine ⟨(writtenLoopback_iff _).mpr hsafe.host, fun hmode upstream hupstream => ?_,
      fun pac hpac => (buildBackend_ok_iff pac).mp (hsafe.backend pac hpac)⟩
    obtain ⟨named, hnamed, hne⟩ := hsafe.upstream hmode
    rw [hupstream, Option.some.injEq] at hnamed
    rwa [hnamed]
  · intro hunchecked
    obtain ⟨addr, hhost, hloopback⟩ := (writtenLoopback_iff _).mp hunchecked.host
    refine ⟨⟨addr, hhost, hloopback⟩, fun hmode => ?_,
      fun pac hpac => (buildBackend_ok_iff pac).mpr (hunchecked.backend pac hpac), ?_, ?_⟩
    · have hsections := sections_of_validate hvalid
      cases hupstream : config.routing.upstream with
      | none => simp [checkSections, hmode, hupstream] at hsections
      | some upstream => exact ⟨upstream, rfl, hunchecked.upstream hmode upstream hupstream⟩
    · rintro env err rfl hfailed
      rcases start_cases base64 sspi hvalid hhost with ⟨failed, hstart, hkind⟩ | ⟨app, hstart, -⟩
      · rw [hstart, Except.error.injEq] at hfailed
        rwa [← hfailed]
      · rw [hstart] at hfailed
        cases hfailed
    · rintro env app rfl hstarted
      rcases start_cases base64 sspi hvalid hhost with ⟨failed, hstart, -⟩ | ⟨other, hstart, haddr⟩
      · rw [hstart] at hstarted
        cases hstarted
      · rw [hstart, Except.ok.injEq] at hstarted
        rw [← hstarted, haddr, hloopback]

end

/-! ## Configs that validate -/

/-- The SSPI package is not used here. -/
def noSspi (_ : Text) (_ : SspiPackage) : Unit := ()

/-- Routes by an upstream, and has the address of a PAC script. -/
def scriptedConfig : Config :=
  { routing :=
      { mode := .upstream
        upstream := some ⟨"proxy.example".toList, 8080,
          { mode := .basic, username := some "u".toList, password := some "p".toList }⟩
        pac := some { source := .url, url := some "http://wpad/p.pac".toList } } }

theorem validated_startsSafely_iff_scripted :
    StartsSafely standardBase64 noSspi ⟨true⟩ scriptedConfig := by
  refine (validated_startsSafely_iff standardBase64 noSspi scriptedConfig ⟨true⟩ rfl).mpr
    ⟨.inl ⟨0, 0, 1, fromStr_eq_v4.mp (by decide)⟩, ?_, ?_⟩
  · rintro - upstream hupstream
    obtain rfl := Option.some.inj hupstream
    decide
  · intro pac hpac
    obtain rfl := Option.some.inj hpac
    decide

/-- Listens on every interface. -/
def exposedConfig : Config := { listen := { host := "0.0.0.0".toList } }

/-- Names its listen address by a host name. -/
def namedConfig : Config := { listen := { host := "localhost".toList } }

/-- An upstream without a host. -/
def hostlessConfig : Config :=
  { routing := { mode := .upstream, upstream := some ⟨[], 8080, {}⟩ } }

/-- A PAC source `url` without a url. -/
def scriptlessConfig : Config := { routing := { mode := .pac, pac := some { source := .url } } }

/-- The validator accepts four configs; one of them is served on every interface,
one cannot start, and two start without what they route by. -/
theorem validated_unsafe :
    exposedConfig.validate ⟨true⟩ = .ok () ∧ namedConfig.validate ⟨true⟩ = .ok () ∧
      hostlessConfig.validate ⟨true⟩ = .ok () ∧ scriptlessConfig.validate ⟨true⟩ = .ok () ∧
      (∃ app, start standardBase64 noSspi ⟨⟨true⟩, true, true, []⟩ exposedConfig = .ok app ∧
        app.proxyAddr = (.v4 0 0 0 0, 3129)) ∧
      (start standardBase64 noSspi ⟨⟨true⟩, true, true, []⟩ namedConfig).isOk = false ∧
      ¬ StartsSafely standardBase64 noSspi ⟨true⟩ exposedConfig ∧
      ¬ StartsSafely standardBase64 noSspi ⟨true⟩ namedConfig ∧
      ¬ StartsSafely standardBase64 noSspi ⟨true⟩ hostlessConfig ∧
      ¬ StartsSafely standardBase64 noSspi ⟨true⟩ scriptlessConfig := by
  refine ⟨rfl, rfl, rfl, rfl, ⟨_, rfl, rfl⟩, rfl, fun hsafe => ?_, fun hsafe => ?_,
    fun hsafe => ?_, fun hsafe => ?_⟩
  · obtain ⟨addr, hparsed, hloopback⟩ := hsafe.host
    obtain rfl : IpAddr.v4 0 0 0 0 = addr := Option.some.inj hparsed
    cases hloopback
  · obtain ⟨addr, hparsed, -⟩ := hsafe.host
    cases hparsed
  · obtain ⟨upstream, hupstream, hne⟩ := hsafe.upstream rfl
    obtain rfl := Option.some.inj hupstream
    exact hne rfl
  · obtain ⟨source, hsource⟩ := hsafe.backend { source := .url } rfl
    cases hsource

end Zicade.App
