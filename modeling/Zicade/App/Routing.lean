import Zicade.Config.Validate
import Zicade.Netmon.Gate
import Zicade.Upstream.AuthState

/-! # From a config to a routing

The routing of the proxy is built from a validated config: straight through, an
upstream with its authentication, or a router that asks a resolver thread. What
the base64 codec and the SSPI package do is left open.
-/

namespace Zicade.App

open Zicade.Foundation Zicade.Auth Zicade.Upstream Zicade.Schema Zicade.Netmon

/-- The proxy's own pool settings. -/
structure PoolSettings where
  minIdle : UInt64
  idleTimeout : UInt64
  deriving DecidableEq, Repr

/-- Prewarmed sockets to one upstream. -/
structure UpstreamPool where
  addr : Text
  config : PoolSettings
  deriving DecidableEq, Repr

structure UpstreamTarget (σ : Type*) where
  addr : Text
  auth : UpstreamAuth σ
  pool : Option UpstreamPool

/-- Where the resolver thread reads its script from. -/
inductive BackendSource
  | system
  | configUrl (url : Text)
  | configFile (path : Text)
  deriving DecidableEq, Repr

/-- The sources `build_backend` cannot open are reported on every request. -/
def buildBackend (source : PacSource) (url path : Option Text) : Except String BackendSource :=
  match source with
  | .auto => .ok .system
  | .url =>
      match url with
      | some url => .ok (.configUrl url)
      | none => .error "routing.pac.url is required for source = \"url\""
  | .file =>
      match path with
      | some path => .ok (.configFile path)
      | none => .error "routing.pac.path is required for source = \"file\""

/-- What the router closure owns: the config it was built from, its backend and
its pools' settings. -/
structure PacRouter where
  routing : RoutingConfig
  backend : Except String BackendSource
  pools : Option PoolSettings

inductive StartError
  | invalid (err : ConfigError)
  | notAnIpAddress (host : Text)
  | bind
  | missingSection (mode : String)
  | resolverThread
  deriving DecidableEq, Repr

/-- `None` while the pool is off. -/
def poolConfig (pool : PoolConfig) : Option PoolSettings :=
  if pool.enabled then some ⟨pool.minIdle, pool.idleTimeoutSeconds⟩ else none

/-- `host:port`. -/
def hostPort (host : Text) (port : UInt16) : Text :=
  host ++ ':' :: Nat.toDigits 10 port.toNat

section

variable {σ : Type*} (base64 : Base64) (sspi : Text → SspiPackage → σ)

/-- `host` is the proxy host the SPN is derived from. -/
def buildAuth (auth : AuthConfig) (host : Text) : UpstreamAuth σ :=
  match auth.mode with
  | .none => .none
  | .basic =>
      .basic (buildBasicAuthorization base64 (auth.username.getD []) (auth.password.getD []))
  | .negotiate => .negotiate (sspi ("HTTP/".toList ++ host) auth.package)

def buildUpstream (config : Config) : Except StartError (Routing (UpstreamTarget σ) PacRouter) :=
  match config.routing.upstream with
  | none => .error (.missingSection "upstream")
  | some upstream =>
      let addr := hostPort upstream.host upstream.port
      .ok (.upstream
        { addr
          auth := buildAuth base64 sspi upstream.auth upstream.host
          pool := (poolConfig config.routing.pool).map fun settings => ⟨addr, settings⟩ })

/-- Start the resolver thread, and hand the proxy the router. -/
def buildPac (threadStarts : Bool) (config : Config) :
    Except StartError (Routing (UpstreamTarget σ) PacRouter) :=
  match config.routing.pac with
  | none => .error (.missingSection "pac")
  | some pac =>
      if threadStarts then
        .ok (.pac ⟨config.routing, buildBackend pac.source pac.url pac.path,
          poolConfig config.routing.pool⟩)
      else .error .resolverThread

def buildRouting (threadStarts : Bool) (config : Config) :
    Except StartError (Routing (UpstreamTarget σ) PacRouter) :=
  match config.routing.mode with
  | .direct => .ok .direct
  | .upstream => buildUpstream base64 sspi config
  | .pac => buildPac threadStarts config

/-- The closure the gate rebuilds with: a build error is mapped to `Direct`. -/
def gateRebuild (threadStarts : Bool) (config : Config) : Routing (UpstreamTarget σ) PacRouter :=
  match buildRouting base64 sspi threadStarts config with
  | .ok routing => routing
  | .error _ => .direct

/-- With the section its mode needs, a config's routing can fail to be built
only for want of the resolver thread. -/
theorem buildRouting_error {threadStarts : Bool} {config : Config} {err : StartError}
    (hsections : checkSections config.routing = .ok ())
    (hbuild : buildRouting base64 sspi threadStarts config = .error err) :
    err = .resolverThread := by
  unfold buildRouting at hbuild
  unfold checkSections at hsections
  cases hmode : config.routing.mode with
  | direct =>
      rw [hmode] at hbuild
      cases hbuild
  | upstream =>
      rw [hmode] at hbuild hsections
      cases hupstream : config.routing.upstream with
      | none => simp [hupstream] at hsections
      | some upstream => simp [buildUpstream, hupstream] at hbuild
  | pac =>
      rw [hmode] at hbuild hsections
      cases hpac : config.routing.pac with
      | none => simp [hpac] at hsections
      | some pac =>
          simp only [buildPac, hpac] at hbuild
          split at hbuild
          · cases hbuild
          · exact (Except.error.inj hbuild).symm

end

end Zicade.App
