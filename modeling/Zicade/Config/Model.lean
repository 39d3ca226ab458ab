import Zicade.Foundation.Text

/-! # The configuration

The schema of the config file and its defaults, and the two operations on the
passwords of its auth slots: hiding them from the settings form, and putting
them back into an edit that never saw them.
-/

namespace Zicade.Schema

open Zicade.Foundation

/-- Loopback listen address for the proxy. -/
structure ListenConfig where
  host : Text := "127.0.0.1".toList
  port : UInt16 := 3129
  deriving DecidableEq, Repr

/-- How each request is routed. -/
inductive RoutingMode
  | direct
  | upstream
  | pac
  deriving DecidableEq, Repr

/-- Upstream authentication scheme. -/
inductive AuthMode
  | none
  | basic
  | negotiate
  deriving DecidableEq, Repr

/-- The SSPI security package of a Negotiate handshake. -/
inductive SspiPackage
  | ntlm
  | negotiate
  deriving DecidableEq, Repr

structure AuthConfig where
  mode : AuthMode := .none
  package : SspiPackage := .ntlm
  username : Option Text := none
  password : Option Text := none
  deriving DecidableEq, Repr

/-- A single upstream proxy endpoint with its auth policy. -/
structure UpstreamConfig where
  host : Text
  port : UInt16
  auth : AuthConfig := {}
  deriving DecidableEq, Repr

/-- Prewarmed upstream sockets, off by default. -/
structure PoolConfig where
  enabled : Bool := false
  minIdle : UInt64 := 2
  idleTimeoutSeconds : UInt64 := 30
  deriving DecidableEq, Repr

/-- `PoolConfig::MAX_MIN_IDLE`. -/
def PoolConfig.maxMinIdle : UInt64 := 16

/-- Where the PAC script comes from. -/
inductive PacSource
  | auto
  | file
  | url
  deriving DecidableEq, Repr

/-- What to do when PAC resolution fails. -/
inductive FailPolicy
  | error
  | direct
  deriving DecidableEq, Repr

structure PacConfig where
  source : PacSource := .auto
  path : Option Text := none
  url : Option Text := none
  failPolicy : FailPolicy := .error
  auth : AuthConfig := {}
  deriving DecidableEq, Repr

/-- Corporate-network detection gate, off by default. -/
structure CorpNetworkConfig where
  enabled : Bool := false
  dnsSuffixes : List Text := []
  pollSeconds : UInt64 := 30
  deriving DecidableEq, Repr

structure RoutingConfig where
  mode : RoutingMode := .direct
  upstream : Option UpstreamConfig := none
  pac : Option PacConfig := none
  corpNetwork : Option CorpNetworkConfig := none
  pool : PoolConfig := {}
  deriving DecidableEq, Repr

structure LoggingConfig where
  level : Text := "info".toList
  format : Text := "json".toList
  deriving DecidableEq, Repr

structure Config where
  listen : ListenConfig := {}
  routing : RoutingConfig := {}
  logging : LoggingConfig := {}
  deriving DecidableEq, Repr

/-! ## Stored passwords -/

namespace AuthConfig

def withoutPassword (auth : AuthConfig) : AuthConfig := { auth with password := none }

/-- A slot that is still Basic for the same username keeps the saved password. -/
def keepPasswordFrom (auth saved : AuthConfig) : AuthConfig :=
  if auth.password = none ∧ auth.mode = .basic ∧ saved.mode = .basic ∧
      auth.username = saved.username then
    { auth with password := saved.password }
  else auth

end AuthConfig

namespace Config

def upstreamAuth (config : Config) : Option AuthConfig :=
  config.routing.upstream.map (·.auth)

def pacAuth (config : Config) : Option AuthConfig := config.routing.pac.map (·.auth)

/-- A copy safe to show in the UI: stored passwords are removed. -/
def withoutSecrets (config : Config) : Config :=
  { config with
    routing := { config.routing with
      upstream := config.routing.upstream.map fun upstream =>
        { upstream with auth := upstream.auth.withoutPassword }
      pac := config.routing.pac.map fun pac => { pac with auth := pac.auth.withoutPassword } } }

/-- Fill in the passwords an edit left out because the UI never saw them. -/
def keepSecretsFrom (config saved : Config) : Config :=
  { config with
    routing := { config.routing with
      upstream := config.routing.upstream.map fun upstream =>
        match saved.upstreamAuth with
        | some old => { upstream with auth := upstream.auth.keepPasswordFrom old }
        | none => upstream
      pac := config.routing.pac.map fun pac =>
        match saved.pacAuth with
        | some old => { pac with auth := pac.auth.keepPasswordFrom old }
        | none => pac } }

/-- Passwords stand in Basic slots only. -/
def PasswordsBasic (config : Config) : Prop :=
  ∀ auth, config.upstreamAuth = some auth ∨ config.pacAuth = some auth →
    auth.password ≠ none → auth.mode = .basic

end Config

/-! ## Equal except for passwords -/

structure AuthConfig.SameButPassword (auth other : AuthConfig) : Prop where
  mode : auth.mode = other.mode
  package : auth.package = other.package
  username : auth.username = other.username

structure UpstreamConfig.SameButPassword (upstream other : UpstreamConfig) : Prop where
  host : upstream.host = other.host
  port : upstream.port = other.port
  auth : upstream.auth.SameButPassword other.auth

structure PacConfig.SameButPassword (pac other : PacConfig) : Prop where
  source : pac.source = other.source
  path : pac.path = other.path
  url : pac.url = other.url
  failPolicy : pac.failPolicy = other.failPolicy
  auth : pac.auth.SameButPassword other.auth

structure Config.SameButPasswords (config other : Config) : Prop where
  listen : config.listen = other.listen
  mode : config.routing.mode = other.routing.mode
  upstream : Option.Rel UpstreamConfig.SameButPassword config.routing.upstream
    other.routing.upstream
  pac : Option.Rel PacConfig.SameButPassword config.routing.pac other.routing.pac
  corpNetwork : config.routing.corpNetwork = other.routing.corpNetwork
  pool : config.routing.pool = other.routing.pool
  logging : config.logging = other.logging

theorem AuthConfig.sameButPassword_iff (auth other : AuthConfig) :
    auth.SameButPassword other ↔ auth.withoutPassword = other.withoutPassword := by
  constructor
  · rintro ⟨hmode, hpackage, husername⟩
    rw [withoutPassword, withoutPassword, hmode, hpackage, husername]
  · intro heq
    injection heq with hmode hpackage husername
    exact ⟨hmode, hpackage, husername⟩

theorem UpstreamConfig.sameButPassword_iff (upstream other : UpstreamConfig) :
    upstream.SameButPassword other ↔
      { upstream with auth := upstream.auth.withoutPassword } =
        ({ other with auth := other.auth.withoutPassword } : UpstreamConfig) := by
  constructor
  · rintro ⟨hhost, hport, hauth⟩
    rw [hhost, hport, (AuthConfig.sameButPassword_iff _ _).mp hauth]
  · intro heq
    injection heq with hhost hport hauth
    exact ⟨hhost, hport, (AuthConfig.sameButPassword_iff _ _).mpr hauth⟩

theorem PacConfig.sameButPassword_iff (pac other : PacConfig) :
    pac.SameButPassword other ↔
      { pac with auth := pac.auth.withoutPassword } =
        ({ other with auth := other.auth.withoutPassword } : PacConfig) := by
  constructor
  · rintro ⟨hsource, hpath, hurl, hpolicy, hauth⟩
    rw [hsource, hpath, hurl, hpolicy, (AuthConfig.sameButPassword_iff _ _).mp hauth]
  · intro heq
    injection heq with hsource hpath hurl hpolicy hauth
    exact ⟨hsource, hpath, hurl, hpolicy, (AuthConfig.sameButPassword_iff _ _).mpr hauth⟩

theorem rel_iff_map_eq {α β : Type} {r : α → α → Prop} {f : α → β}
    (hr : ∀ a b, r a b ↔ f a = f b) (a b : Option α) : Option.Rel r a b ↔ a.map f = b.map f := by
  cases a <;> cases b <;> simp [hr]

/-- Hiding covers every place a password is in, and nothing else. -/
theorem Config.sameButPasswords_iff (config other : Config) :
    config.SameButPasswords other ↔ config.withoutSecrets = other.withoutSecrets := by
  obtain ⟨listen, ⟨mode, upstream, pac, corpNetwork, pool⟩, logging⟩ := config
  obtain ⟨listen', ⟨mode', upstream', pac', corpNetwork', pool'⟩, logging'⟩ := other
  have hupstream := rel_iff_map_eq UpstreamConfig.sameButPassword_iff upstream upstream'
  have hpac := rel_iff_map_eq PacConfig.sameButPassword_iff pac pac'
  constructor
  · rintro ⟨rfl, rfl, hsame, hsame', rfl, rfl, rfl⟩
    rw [withoutSecrets, withoutSecrets]
    dsimp only
    rw [hupstream.mp hsame, hpac.mp hsame']
  · intro heq
    injection heq with hlisten hrouting hlogging
    injection hrouting with hmode hsame hsame' hcorp hpool
    exact ⟨hlisten, hmode, hupstream.mpr hsame, hpac.mpr hsame', hcorp, hpool, hlogging⟩

/-! ## What hiding and keeping leave as it is -/

theorem AuthConfig.keepPasswordFrom_cases (auth saved : AuthConfig) :
    auth.keepPasswordFrom saved = auth ∨
      (auth.mode = .basic ∧ saved.mode = .basic ∧ auth.username = saved.username ∧
        auth.keepPasswordFrom saved = { auth with password := saved.password }) := by
  unfold keepPasswordFrom
  split
  next hkeeps => exact .inr ⟨hkeeps.2.1, hkeeps.2.2.1, hkeeps.2.2.2, rfl⟩
  next => exact .inl rfl

theorem AuthConfig.withoutPassword_keepPasswordFrom (auth saved : AuthConfig) :
    (auth.keepPasswordFrom saved).withoutPassword = auth.withoutPassword := by
  rcases auth.keepPasswordFrom_cases saved with hkept | ⟨-, -, -, hkept⟩ <;> rw [hkept]
  rfl

/-- The auth of an edit's slot, with what the same slot of the saved config keeps. -/
def AuthConfig.keptFrom (saved : Option AuthConfig) (auth : AuthConfig) : AuthConfig :=
  match saved with
  | some old => auth.keepPasswordFrom old
  | none => auth

theorem Config.upstreamAuth_keepSecretsFrom (config saved : Config) :
    (config.keepSecretsFrom saved).upstreamAuth =
      config.upstreamAuth.map (AuthConfig.keptFrom saved.upstreamAuth) := by
  obtain ⟨listen, ⟨mode, upstream, pac, corpNetwork, pool⟩, logging⟩ := config
  cases upstream with
  | none => rfl
  | some upstream =>
      unfold keepSecretsFrom
      cases saved.upstreamAuth <;> rfl

theorem Config.pacAuth_keepSecretsFrom (config saved : Config) :
    (config.keepSecretsFrom saved).pacAuth =
      config.pacAuth.map (AuthConfig.keptFrom saved.pacAuth) := by
  obtain ⟨listen, ⟨mode, upstream, pac, corpNetwork, pool⟩, logging⟩ := config
  cases pac with
  | none => rfl
  | some pac =>
      unfold keepSecretsFrom
      cases saved.pacAuth <;> rfl

/-- Filling in passwords changes nothing but passwords. -/
theorem Config.withoutSecrets_keepSecretsFrom (config saved : Config) :
    (config.keepSecretsFrom saved).withoutSecrets = config.withoutSecrets := by
  obtain ⟨listen, ⟨mode, upstream, pac, corpNetwork, pool⟩, logging⟩ := config
  cases upstream <;> cases pac <;> cases hold : saved.upstreamAuth <;>
    cases hold' : saved.pacAuth <;>
    simp [keepSecretsFrom, withoutSecrets, hold, hold',
      AuthConfig.withoutPassword_keepPasswordFrom]

theorem Config.password_withoutSecrets {config : Config} {auth : AuthConfig}
    (hauth : config.withoutSecrets.upstreamAuth = some auth ∨
      config.withoutSecrets.pacAuth = some auth) : auth.password = none := by
  rcases hauth with hauth | hauth
  · cases hupstream : config.routing.upstream with
    | none => simp [upstreamAuth, withoutSecrets, hupstream] at hauth
    | some upstream =>
        obtain rfl : upstream.auth.withoutPassword = auth := by
          simpa [upstreamAuth, withoutSecrets, hupstream] using hauth
        rfl
  · cases hpac : config.routing.pac with
    | none => simp [pacAuth, withoutSecrets, hpac] at hauth
    | some pac =>
        obtain rfl : pac.auth.withoutPassword = auth := by
          simpa [pacAuth, withoutSecrets, hpac] using hauth
        rfl

/-- A slot that was only hidden gets its password back. -/
theorem AuthConfig.keepPasswordFrom_withoutPassword {auth : AuthConfig}
    (hbasic : auth.password ≠ none → auth.mode = .basic) :
    auth.withoutPassword.keepPasswordFrom auth = auth := by
  unfold keepPasswordFrom
  split
  next => rfl
  next hother =>
    have hnone : auth.password = none := by
      by_contra hsome
      exact hother ⟨rfl, hbasic hsome, hbasic hsome, rfl⟩
    rw [withoutPassword, ← hnone]

/-- Saving what the settings form was shown changes nothing. -/
theorem Config.keepSecretsFrom_withoutSecrets {config : Config} (hbasic : config.PasswordsBasic) :
    config.withoutSecrets.keepSecretsFrom config = config := by
  obtain ⟨listen, ⟨mode, upstream, pac, corpNetwork, pool⟩, logging⟩ := config
  have hupstream : ∀ configured, upstream = some configured →
      configured.auth.withoutPassword.keepPasswordFrom configured.auth = configured.auth := by
    rintro configured rfl
    exact AuthConfig.keepPasswordFrom_withoutPassword (hbasic configured.auth (.inl rfl))
  have hpac : ∀ configured, pac = some configured →
      configured.auth.withoutPassword.keepPasswordFrom configured.auth = configured.auth := by
    rintro configured rfl
    exact AuthConfig.keepPasswordFrom_withoutPassword (hbasic configured.auth (.inr rfl))
  cases upstream with
  | none =>
      cases pac with
      | none => rfl
      | some pac => simp [keepSecretsFrom, withoutSecrets, upstreamAuth, pacAuth, hpac pac rfl]
  | some upstream =>
      cases pac with
      | none =>
          simp [keepSecretsFrom, withoutSecrets, upstreamAuth, pacAuth, hupstream upstream rfl]
      | some pac =>
          simp [keepSecretsFrom, withoutSecrets, upstreamAuth, pacAuth, hpac pac rfl,
            hupstream upstream rfl]

end Zicade.Schema
