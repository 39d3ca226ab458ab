import Zicade.Config.Model
import Zicade.Foundation.IoError

/-! # Validation of a config

The first violation found is returned. The gate and the pool are checked only
while they are enabled.
-/

namespace Zicade.Schema

open Zicade.Foundation

inductive ConfigError
  | parse (message : String)
  | io (path : String) (source : IoError)
  | invalidPort (field : String) (port : UInt16)
  | missingSection (mode missing : String)
  | negotiateUnsupported (field : String)
  | missingCredentials (field : String)
  | corpNetwork (reason : String)
  | pool (reason : String)
  deriving DecidableEq, Repr

def ConfigError.display : ConfigError → String
  | .parse message => s!"failed to parse config JSON: {message}"
  | .io path source => s!"config I/O error at {path}: {source.message}"
  | .invalidPort field port => s!"invalid port in {field}: {port} (must be 1-65535)"
  | .missingSection mode missing => s!"routing mode '{mode}' requires a '{missing}' section"
  | .negotiateUnsupported field => s!"auth mode 'negotiate' in {field} is only supported on Windows"
  | .missingCredentials field => s!"auth mode 'basic' in {field} requires a non-empty username"
  | .corpNetwork reason => s!"routing.corpNetwork is invalid: {reason}"
  | .pool reason => s!"routing.pool is invalid: {reason}"

/-- Platform capabilities the validator needs. -/
structure ValidationCtx where
  negotiateSupported : Bool
  deriving DecidableEq, Repr

def checkPort (field : String) (port : UInt16) : Except ConfigError Unit :=
  if port = 0 then .error (.invalidPort field port) else .ok ()

def checkAuth (auth : AuthConfig) (field : String) (ctx : ValidationCtx) :
    Except ConfigError Unit :=
  if auth.mode = .negotiate ∧ !ctx.negotiateSupported then .error (.negotiateUnsupported field)
  else if auth.mode = .basic ∧ trim (auth.username.getD []) = [] then
    .error (.missingCredentials field)
  else .ok ()

def checkCorpNetwork (corp : CorpNetworkConfig) : Except ConfigError Unit :=
  if !corp.enabled then .ok ()
  else if !(corp.dnsSuffixes.any fun suffix => !(trim suffix).isEmpty) then
    .error (.corpNetwork "enabled requires at least one non-empty dnsSuffixes entry")
  else if corp.pollSeconds = 0 then
    .error (.corpNetwork "pollSeconds must be greater than zero")
  else .ok ()

def checkPool (pool : PoolConfig) : Except ConfigError Unit :=
  if !pool.enabled then .ok ()
  else if pool.minIdle = 0 ∨ pool.minIdle > PoolConfig.maxMinIdle then
    .error (.pool "minIdle must be between 1 and 16")
  else if pool.idleTimeoutSeconds = 0 then
    .error (.pool "idleTimeoutSeconds must be greater than zero")
  else .ok ()

/-- The section the routing mode needs is there. -/
def checkSections (routing : RoutingConfig) : Except ConfigError Unit :=
  match routing.mode with
  | .upstream =>
      if routing.upstream = none then .error (.missingSection "upstream" "upstream") else .ok ()
  | .pac => if routing.pac = none then .error (.missingSection "pac" "pac") else .ok ()
  | .direct => .ok ()

def checkUpstream (upstream : UpstreamConfig) (ctx : ValidationCtx) : Except ConfigError Unit := do
  checkPort "routing.upstream.port" upstream.port
  checkAuth upstream.auth "routing.upstream.auth" ctx

/-- An absent section carries no requirements. -/
def checkPresent {α : Type} (check : α → Except ConfigError Unit) :
    Option α → Except ConfigError Unit
  | some configured => check configured
  | none => .ok ()

def Config.validate (config : Config) (ctx : ValidationCtx) : Except ConfigError Unit := do
  checkPort "listen.port" config.listen.port
  checkSections config.routing
  checkPresent (fun upstream => checkUpstream upstream ctx) config.routing.upstream
  checkPresent (fun pac => checkAuth pac.auth "routing.pac.auth" ctx) config.routing.pac
  checkPresent checkCorpNetwork config.routing.corpNetwork
  checkPool config.routing.pool

theorem bind_eq_ok {ε α β : Type} {first : Except ε α} {next : α → Except ε β} {b : β} :
    (first >>= next) = .ok b ↔ ∃ a, first = .ok a ∧ next a = .ok b := by
  cases first with
  | error err => exact ⟨nofun, nofun⟩
  | ok a => exact ⟨fun h => ⟨a, rfl, h⟩, fun ⟨_, ha, h⟩ => Except.ok.inj ha ▸ h⟩

/-- A config that validates names a port for its upstream. -/
theorem Config.upstream_port_ne_zero {config : Config} {ctx : ValidationCtx}
    (hvalid : config.validate ctx = .ok ()) {upstream : UpstreamConfig}
    (hupstream : config.routing.upstream = some upstream) : upstream.port ≠ 0 := by
  obtain ⟨_, -, hvalid⟩ := bind_eq_ok.mp hvalid
  obtain ⟨_, -, hvalid⟩ := bind_eq_ok.mp hvalid
  obtain ⟨_, hchecked, -⟩ := bind_eq_ok.mp hvalid
  rw [hupstream] at hchecked
  obtain ⟨_, hport, -⟩ := bind_eq_ok.mp hchecked
  intro hzero
  rw [checkPort, if_pos hzero] at hport
  cases hport

end Zicade.Schema
