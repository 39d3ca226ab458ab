import Zicade.Config.Validate

/-! # The settings form

The form holds what the user typed, and reads as a config in one place: texts are
trimmed, blank ones are absent, and only the sections of the selected mode are there.
A form that was filled from a config and not edited reads as that config.
-/

namespace Zicade.Ui

open Zicade.Foundation Zicade.Schema

/-- Re-check interval used when the field is blank. -/
def DEFAULT_POLL_SECONDS : UInt64 := 30

/-- A field the user must fix before the config can be applied. -/
structure FormError where
  field : String
  reason : String
  deriving DecidableEq, Repr

def FormError.display (err : FormError) : String := s!"{err.field}: {err.reason}"

def nonBlank (text : Text) : Option Text :=
  if (trim text).isEmpty then none else some (trim text)

def parsePort (field : String) (text : Text) : Except FormError UInt16 :=
  match fromStrRadix 10 UInt16.size (trim text) with
  | some port => .ok (UInt16.ofNat port)
  | none => .error { field, reason := "must be a number from 1 to 65535" }

/-- Port 0 means "not set yet", which reads better as an empty field. -/
def portText (port : UInt16) : Text := if port = 0 then [] else Nat.toDigits 10 port.toNat

/-- The upstream fields shown before one has ever been configured. -/
def blankUpstream : UpstreamConfig := { host := [], port := 0 }

/-- One auth slot as the form edits it. -/
structure AuthForm where
  mode : AuthMode := .none
  package : SspiPackage := .ntlm
  username : Text := []
  password : Text := []
  deriving DecidableEq, Repr

namespace AuthForm

def fromAuth (auth : AuthConfig) : AuthForm where
  mode := auth.mode
  package := auth.package
  username := auth.username.getD []
  password := auth.password.getD []

/-- A blank password is absent, so that the saved one is kept. -/
def toAuth (form : AuthForm) : AuthConfig where
  mode := form.mode
  package := form.package
  username := nonBlank form.username
  password := nonBlank form.password

end AuthForm

structure ConfigForm where
  listenHost : Text
  listenPort : Text
  mode : RoutingMode
  upstreamHost : Text
  upstreamPort : Text
  upstreamAuth : AuthForm
  pacSource : PacSource
  pacPath : Text
  pacUrl : Text
  pacFailPolicy : FailPolicy
  pacAuth : AuthForm
  corpEnabled : Bool
  corpSuffixes : Text
  corpPollSeconds : Text
  pool : PoolConfig
  logLevel : Text
  logFormat : Text
  deriving DecidableEq, Repr

/-- Suffixes stand between commas and new lines. -/
def endsSuffix (c : Char) : Bool := c = ',' || c = '\n'

def suffixesOf (text : Text) : List Text :=
  ((text.splitOnP endsSuffix).map trim).filter fun suffix => !suffix.isEmpty

namespace ConfigForm

/-- The form of a redacted config. -/
def fromConfig (config : Config) : ConfigForm :=
  let upstream := config.routing.upstream.getD blankUpstream
  let pac := config.routing.pac.getD {}
  let corp := config.routing.corpNetwork.getD {}
  { listenHost := config.listen.host
    listenPort := Nat.toDigits 10 config.listen.port.toNat
    mode := config.routing.mode
    upstreamHost := upstream.host
    upstreamPort := portText upstream.port
    upstreamAuth := AuthForm.fromAuth upstream.auth
    pacSource := pac.source
    pacPath := pac.path.getD []
    pacUrl := pac.url.getD []
    pacFailPolicy := pac.failPolicy
    pacAuth := AuthForm.fromAuth pac.auth
    corpEnabled := corp.enabled
    corpSuffixes := ", ".toList.intercalate corp.dnsSuffixes
    corpPollSeconds := Nat.toDigits 10 corp.pollSeconds.toNat
    pool := config.routing.pool
    logLevel := config.logging.level
    logFormat := config.logging.format }

def upstream (form : ConfigForm) : Except FormError UpstreamConfig := do
  let port ← parsePort "Upstream port" form.upstreamPort
  return { host := trim form.upstreamHost, port, auth := form.upstreamAuth.toAuth }

def pac (form : ConfigForm) : PacConfig where
  source := form.pacSource
  path := nonBlank form.pacPath
  url := nonBlank form.pacUrl
  failPolicy := form.pacFailPolicy
  auth := form.pacAuth.toAuth

def pollSeconds (form : ConfigForm) : Except FormError UInt64 :=
  let poll := trim form.corpPollSeconds
  if poll.isEmpty then .ok DEFAULT_POLL_SECONDS
  else
    match fromStrRadix 10 UInt64.size poll with
    | some seconds => .ok (UInt64.ofNat seconds)
    | none =>
        .error { field := "Re-check interval", reason := "must be a whole number of seconds" }

/-- An untouched gate is absent. -/
def corp (form : ConfigForm) : Except FormError (Option CorpNetworkConfig) :=
  let dnsSuffixes := suffixesOf form.corpSuffixes
  if !form.corpEnabled && dnsSuffixes.isEmpty then .ok none
  else do
    let pollSeconds ← form.pollSeconds
    return some { enabled := form.corpEnabled, dnsSuffixes, pollSeconds }

/-- The config to apply, or the first field that cannot be read. -/
def toConfig (form : ConfigForm) : Except FormError Config := do
  let port ← parsePort "Listen port" form.listenPort
  let upstream ← (if form.mode = .upstream then form.upstream.map some else .ok none)
  let corpNetwork ← (if form.mode = .upstream ∨ form.mode = .pac then form.corp else .ok none)
  return {
    listen := { host := trim form.listenHost, port }
    routing := {
      mode := form.mode
      upstream
      pac := if form.mode = .pac then some form.pac else none
      corpNetwork
      pool := form.pool }
    logging := { level := trim form.logLevel, format := trim form.logFormat } }

end ConfigForm

/-! ## Texts that were read from a form -/

theorem nonBlank_trim (text : Text) : nonBlank (trim text) = nonBlank text := by
  rw [nonBlank, trim_trim, nonBlank]

theorem nonBlank_getD (text : Text) : nonBlank ((nonBlank text).getD []) = nonBlank text := by
  by_cases hblank : (trim text).isEmpty
  · rw [nonBlank.eq_def text, if_pos hblank]
    rfl
  · rw [nonBlank.eq_def text, if_neg hblank, Option.getD_some, nonBlank_trim, nonBlank,
      if_neg hblank]

theorem trim_toDigits (n : Nat) : trim (Nat.toDigits 10 n) = Nat.toDigits 10 n :=
  trim_of_no_whitespace
    (mem_digits_not_whitespace (digitsValue_toDigits (by decide) (by decide) n))

theorem fromStrRadix_toDigits {n bound : Nat} (hn : n < bound) :
    fromStrRadix 10 bound (Nat.toDigits 10 n) = some n := by
  rw [fromStrRadix_of_digitsValue bound Nat.toDigits_ne_nil
    (digitsValue_toDigits (by decide) (by decide) n), if_pos hn]

theorem parsePort_toDigits (field : String) (port : UInt16) :
    parsePort field (Nat.toDigits 10 port.toNat) = .ok port := by
  rw [parsePort, trim_toDigits, fromStrRadix_toDigits port.toNat_lt_size]
  exact congrArg Except.ok UInt16.ofNat_toNat

theorem parsePort_portText (field : String) {port : UInt16} (hport : port ≠ 0) :
    parsePort field (portText port) = .ok port := by
  rw [portText, if_neg hport, parsePort_toDigits]

/-! ## Suffixes -/

/-- A suffix as the form lists it. -/
structure IsSuffix (suffix : Text) : Prop where
  trimmed : trim suffix = suffix
  nonempty : suffix ≠ []
  plain : ∀ c ∈ suffix, endsSuffix c = false

theorem isSuffix_of_mem {suffix text : Text} (hmem : suffix ∈ suffixesOf text) :
    IsSuffix suffix := by
  obtain ⟨hmem, hnonempty⟩ := List.mem_filter.mp hmem
  obtain ⟨piece, hpiece, rfl⟩ := List.mem_map.mp hmem
  refine ⟨trim_trim piece, ?_, fun c hc => piece_has_no_separator hpiece (mem_of_mem_trim hc)⟩
  rintro hnil
  rw [hnil] at hnonempty
  exact absurd hnonempty (by decide)

theorem suffixesOf_space (text : Text) : suffixesOf (' ' :: text) = suffixesOf text := by
  rw [suffixesOf, List.splitOnP_cons_eq_if_modifyHead, if_neg (by decide), suffixesOf]
  cases text.splitOnP endsSuffix with
  | nil => rfl
  | cons first rest =>
      rw [List.modifyHead_cons, List.map_cons, trim_cons_whitespace first (by decide),
        List.map_cons]

theorem suffixesOf_append_comma (front back : Text) :
    suffixesOf (front ++ ',' :: back) = suffixesOf front ++ suffixesOf back := by
  rw [suffixesOf, List.splitOnP_append_cons _ _ (by decide), List.map_append, List.filter_append,
    ← suffixesOf, ← suffixesOf]

theorem suffixesOf_singleton {suffix : Text} (hsuffix : IsSuffix suffix) :
    suffixesOf suffix = [suffix] := by
  rw [suffixesOf, List.splitOnP_eq_singleton hsuffix.plain, List.map_singleton, hsuffix.trimmed]
  simp [hsuffix.nonempty]

/-- The suffixes of a joined list are the list. -/
theorem suffixesOf_intercalate {suffixes : List Text}
    (hsuffixes : ∀ suffix ∈ suffixes, IsSuffix suffix) :
    suffixesOf (", ".toList.intercalate suffixes) = suffixes := by
  induction suffixes with
  | nil => rfl
  | cons suffix rest ih =>
      have hsuffix := hsuffixes suffix List.mem_cons_self
      have ih := ih fun other hother => hsuffixes other (List.mem_cons_of_mem _ hother)
      cases rest with
      | nil => rw [List.intercalate_singleton, suffixesOf_singleton hsuffix]
      | cons next others =>
          have hjoined : ", ".toList.intercalate (suffix :: next :: others) =
              suffix ++ ',' :: ' ' :: ", ".toList.intercalate (next :: others) := by
            rw [List.intercalate_cons_cons, List.append_assoc]
            rfl
          rw [hjoined, suffixesOf_append_comma, suffixesOf_space, suffixesOf_singleton hsuffix, ih]
          rfl

/-! ## Configs that were read from a form -/

/-- The username of a slot is as the form reads it. -/
def Formed.Auth (auth : AuthConfig) : Prop := nonBlank (auth.username.getD []) = auth.username

structure Formed.Upstream (upstream : UpstreamConfig) : Prop where
  host : trim upstream.host = upstream.host
  auth : Formed.Auth upstream.auth

structure Formed.Pac (pac : PacConfig) : Prop where
  path : nonBlank (pac.path.getD []) = pac.path
  url : nonBlank (pac.url.getD []) = pac.url
  auth : Formed.Auth pac.auth

structure Formed.Corp (corp : CorpNetworkConfig) : Prop where
  touched : corp.enabled = true ∨ corp.dnsSuffixes ≠ []
  suffixes : ∀ suffix ∈ corp.dnsSuffixes, IsSuffix suffix

/-- A config as a form reads: its texts trimmed, and the sections those of its mode. -/
structure Formed (config : Config) : Prop where
  host : trim config.listen.host = config.listen.host
  level : trim config.logging.level = config.logging.level
  format : trim config.logging.format = config.logging.format
  upstreamMode : config.routing.upstream ≠ none ↔ config.routing.mode = .upstream
  upstream : ∀ upstream, config.routing.upstream = some upstream → Formed.Upstream upstream
  pacMode : config.routing.pac ≠ none ↔ config.routing.mode = .pac
  pac : ∀ pac, config.routing.pac = some pac → Formed.Pac pac
  corpMode : config.routing.corpNetwork ≠ none →
    config.routing.mode = .upstream ∨ config.routing.mode = .pac
  corp : ∀ corp, config.routing.corpNetwork = some corp → Formed.Corp corp

theorem AuthForm.formed_toAuth (form : AuthForm) : Formed.Auth form.toAuth :=
  nonBlank_getD form.username

namespace ConfigForm

theorem formed_upstream {form : ConfigForm} {upstream : UpstreamConfig}
    (hread : form.upstream = .ok upstream) : Formed.Upstream upstream := by
  obtain ⟨port, -, hread⟩ := bind_eq_ok.mp hread
  obtain rfl := Except.ok.inj hread
  exact ⟨trim_trim _, form.upstreamAuth.formed_toAuth⟩

/-- The upstream section is read in its mode, and is absent in any other. -/
theorem upstreamSection_cases {form : ConfigForm} {upstream : Option UpstreamConfig}
    (hsection : (if form.mode = .upstream then form.upstream.map some else .ok none) =
      .ok upstream) :
    (form.mode = .upstream ∧ ∃ read, form.upstream = .ok read ∧ upstream = some read) ∨
      (form.mode ≠ .upstream ∧ upstream = none) := by
  split at hsection
  next hmode =>
    cases hread : form.upstream with
    | error err => rw [hread] at hsection; cases hsection
    | ok read =>
        rw [hread] at hsection
        exact .inl ⟨hmode, read, rfl, (Except.ok.inj hsection).symm⟩
  next hmode => exact .inr ⟨hmode, (Except.ok.inj hsection).symm⟩

theorem formed_upstreamSection {form : ConfigForm} {upstream : Option UpstreamConfig}
    (hsection : (if form.mode = .upstream then form.upstream.map some else .ok none) =
      .ok upstream) :
    (upstream ≠ none ↔ form.mode = .upstream) ∧
      ∀ read, upstream = some read → Formed.Upstream read := by
  rcases upstreamSection_cases hsection with ⟨hmode, read, hread, rfl⟩ | ⟨hmode, rfl⟩
  · refine ⟨iff_of_true (Option.some_ne_none _) hmode, ?_⟩
    rintro _ ⟨⟩
    exact formed_upstream hread
  · exact ⟨iff_of_false (not_not.mpr rfl) hmode, nofun⟩

theorem formed_pac (form : ConfigForm) : Formed.Pac form.pac :=
  ⟨nonBlank_getD _, nonBlank_getD _, form.pacAuth.formed_toAuth⟩

theorem formed_corp {form : ConfigForm} {corp : CorpNetworkConfig}
    (hread : form.corp = .ok (some corp)) : Formed.Corp corp := by
  unfold ConfigForm.corp at hread
  dsimp only at hread
  split at hread
  next => cases hread
  next htouched =>
    obtain ⟨seconds, -, hread⟩ := bind_eq_ok.mp hread
    obtain rfl := Option.some.inj (Except.ok.inj hread)
    refine ⟨?_, fun suffix hsuffix => isSuffix_of_mem hsuffix⟩
    by_contra huntouched
    obtain ⟨henabled, hsuffixes⟩ := not_or.mp huntouched
    rw [not_not] at hsuffixes
    exact htouched (by simp_all)

/-- What a form reads as is as forms read. -/
theorem formed_toConfig {form : ConfigForm} {config : Config}
    (hread : form.toConfig = .ok config) : Formed config := by
  obtain ⟨port, -, hread⟩ := bind_eq_ok.mp hread
  obtain ⟨upstream, hupstream, hread⟩ := bind_eq_ok.mp hread
  obtain ⟨corpNetwork, hcorp, hread⟩ := bind_eq_ok.mp hread
  obtain rfl := Except.ok.inj hread
  obtain ⟨hupstreamMode, hupstream⟩ := formed_upstreamSection hupstream
  refine ⟨trim_trim _, trim_trim _, trim_trim _, hupstreamMode, hupstream, ?_, ?_, ?_, ?_⟩
  · dsimp only
    split_ifs with hmode
    · exact iff_of_true (Option.some_ne_none _) hmode
    · exact iff_of_false (not_not.mpr rfl) hmode
  · intro pac hpac
    dsimp only at hpac
    split_ifs at hpac
    obtain rfl := Option.some.inj hpac
    exact form.formed_pac
  · intro hsome
    by_contra hmode
    rw [if_neg hmode] at hcorp
    exact hsome (Except.ok.inj hcorp).symm
  · rintro corp rfl
    split_ifs at hcorp with hmode
    · exact formed_corp hcorp
    · cases hcorp

end ConfigForm

/-! ## A form that was not edited -/

theorem Formed.withoutSecrets {config : Config} (hformed : Formed config) :
    Formed config.withoutSecrets := by
  obtain ⟨host, level, format, upstreamMode, upstream, pacMode, pac, corpMode, corp⟩ := hformed
  refine ⟨host, level, format, ?_, ?_, ?_, ?_, corpMode, corp⟩
  · exact Option.map_eq_none_iff.not.trans upstreamMode
  · intro hidden hhidden
    obtain ⟨read, hread, rfl⟩ := Option.map_eq_some_iff.mp hhidden
    exact ⟨(upstream read hread).host, (upstream read hread).auth⟩
  · exact Option.map_eq_none_iff.not.trans pacMode
  · intro hidden hhidden
    obtain ⟨read, hread, rfl⟩ := Option.map_eq_some_iff.mp hhidden
    exact ⟨(pac read hread).path, (pac read hread).url, (pac read hread).auth⟩

theorem AuthForm.toAuth_fromAuth {auth : AuthConfig} (hformed : Formed.Auth auth)
    (hnone : auth.password = none) : (AuthForm.fromAuth auth).toAuth = auth := by
  obtain ⟨mode, package, username, password⟩ := auth
  obtain rfl : password = none := hnone
  have husername : nonBlank (username.getD []) = username := hformed
  rw [toAuth, fromAuth, husername]
  rfl

namespace ConfigForm

variable {config : Config}

theorem upstream_fromConfig {upstream : UpstreamConfig}
    (hupstream : config.routing.upstream = some upstream) (hformed : Formed.Upstream upstream)
    (hport : upstream.port ≠ 0) (hnone : upstream.auth.password = none) :
    (fromConfig config).upstream = .ok upstream := by
  rw [ConfigForm.upstream, fromConfig, hupstream]
  dsimp only
  rw [Option.getD_some, parsePort_portText _ hport, hformed.host,
    AuthForm.toAuth_fromAuth hformed.auth hnone]
  rfl

theorem pac_fromConfig {pac : PacConfig} (hpac : config.routing.pac = some pac)
    (hformed : Formed.Pac pac) (hnone : pac.auth.password = none) :
    (fromConfig config).pac = pac := by
  rw [ConfigForm.pac, fromConfig, hpac]
  dsimp only
  rw [Option.getD_some, hformed.path, hformed.url, AuthForm.toAuth_fromAuth hformed.auth hnone]

theorem pollSeconds_fromConfig {corp : CorpNetworkConfig}
    (hcorp : config.routing.corpNetwork = some corp) :
    (fromConfig config).pollSeconds = .ok corp.pollSeconds := by
  have hne : ¬ (Nat.toDigits 10 corp.pollSeconds.toNat).isEmpty := by
    rw [List.isEmpty_iff]
    exact Nat.toDigits_ne_nil
  rw [ConfigForm.pollSeconds, fromConfig, hcorp]
  dsimp only
  rw [Option.getD_some, trim_toDigits, if_neg hne,
    fromStrRadix_toDigits corp.pollSeconds.toNat_lt_size]
  exact congrArg Except.ok UInt64.ofNat_toNat

theorem corp_fromConfig
    (hformed : ∀ corp, config.routing.corpNetwork = some corp → Formed.Corp corp) :
    (fromConfig config).corp = .ok config.routing.corpNetwork := by
  cases hcorp : config.routing.corpNetwork with
  | none =>
      rw [ConfigForm.corp, fromConfig, hcorp]
      rfl
  | some corp =>
      have hformed := hformed corp hcorp
      have hsuffixes : suffixesOf (fromConfig config).corpSuffixes = corp.dnsSuffixes := by
        rw [fromConfig, hcorp]
        exact suffixesOf_intercalate hformed.suffixes
      have henabled : (fromConfig config).corpEnabled = corp.enabled := by
        rw [fromConfig, hcorp]
        rfl
      have htouched : ¬ (!corp.enabled && corp.dnsSuffixes.isEmpty) = true := by
        rcases hformed.touched with henabled | hnonempty
        · simp [henabled]
        · simp [hnonempty]
      rw [ConfigForm.corp, hsuffixes, henabled, if_neg htouched, pollSeconds_fromConfig hcorp]
      rfl

/-- A redacted config that was read from a form is read again from its form. -/
theorem toConfig_fromConfig (hformed : Formed config)
    (hport : ∀ upstream, config.routing.upstream = some upstream → upstream.port ≠ 0)
    (hnone : ∀ auth, config.upstreamAuth = some auth ∨ config.pacAuth = some auth →
      auth.password = none) : (fromConfig config).toConfig = .ok config := by
  have hupstream : (if (fromConfig config).mode = .upstream then
      (fromConfig config).upstream.map some else .ok none) = .ok config.routing.upstream := by
    split
    next hmode =>
      obtain ⟨upstream, hupstream⟩ :=
        Option.ne_none_iff_exists'.mp (hformed.upstreamMode.mpr hmode)
      have hpassword : upstream.auth.password = none :=
        hnone upstream.auth (.inl (by rw [Config.upstreamAuth, hupstream]; rfl))
      rw [upstream_fromConfig hupstream (hformed.upstream upstream hupstream)
        (hport upstream hupstream) hpassword, hupstream]
      rfl
    next hmode => rw [not_not.mp (hformed.upstreamMode.not.mpr hmode)]
  have hpac : (if (fromConfig config).mode = .pac then some (fromConfig config).pac else none) =
      config.routing.pac := by
    split
    next hmode =>
      obtain ⟨pac, hpac⟩ := Option.ne_none_iff_exists'.mp (hformed.pacMode.mpr hmode)
      have hpassword : pac.auth.password = none :=
        hnone pac.auth (.inr (by rw [Config.pacAuth, hpac]; rfl))
      rw [pac_fromConfig hpac (hformed.pac pac hpac) hpassword, hpac]
    next hmode => exact (not_not.mp (hformed.pacMode.not.mpr hmode)).symm
  have hcorp : (if (fromConfig config).mode = .upstream ∨ (fromConfig config).mode = .pac then
      (fromConfig config).corp else .ok none) = .ok config.routing.corpNetwork := by
    split
    next => exact corp_fromConfig hformed.corp
    next hmode => rw [not_not.mp (mt hformed.corpMode hmode)]
  have hlisten : parsePort "Listen port" (fromConfig config).listenPort = .ok config.listen.port :=
    parsePort_toDigits _ _
  refine bind_eq_ok.mpr ⟨_, hlisten, bind_eq_ok.mpr ⟨_, hupstream, bind_eq_ok.mpr ⟨_, hcorp, ?_⟩⟩⟩
  have hhost : trim (fromConfig config).listenHost = config.listen.host := hformed.host
  have hlevel : trim (fromConfig config).logLevel = config.logging.level := hformed.level
  have hformat : trim (fromConfig config).logFormat = config.logging.format := hformed.format
  rw [hpac, hhost, hlevel, hformat]
  rfl

/-- Saving a form that was not edited changes nothing: the form of a saved config whose
passwords are in Basic slots reads again, and with the passwords kept it is that config. -/
theorem save_unedited {ctx : ValidationCtx} {form : ConfigForm} {saved edit : Config}
    (hread : form.toConfig = .ok edit)
    (hvalid : (edit.keepSecretsFrom saved).validate ctx = .ok ())
    (hbasic : (edit.keepSecretsFrom saved).PasswordsBasic) :
    ∃ again, (fromConfig (edit.keepSecretsFrom saved).withoutSecrets).toConfig = .ok again ∧
      again.keepSecretsFrom (edit.keepSecretsFrom saved) = edit.keepSecretsFrom saved := by
  refine ⟨(edit.keepSecretsFrom saved).withoutSecrets, toConfig_fromConfig ?_ ?_ ?_,
    Config.keepSecretsFrom_withoutSecrets hbasic⟩
  · rw [Config.withoutSecrets_keepSecretsFrom]
    exact (formed_toConfig hread).withoutSecrets
  · intro hidden hhidden
    obtain ⟨upstream, hupstream, rfl⟩ := Option.map_eq_some_iff.mp hhidden
    have hport : upstream.port ≠ 0 := Config.upstream_port_ne_zero hvalid hupstream
    exact hport
  · exact fun auth => Config.password_withoutSecrets

/-- A form with spaces around its texts, a section its mode does not show, and a blank
password. -/
def typedForm : ConfigForm where
  listenHost := " 127.0.0.1 ".toList
  listenPort := "3129 ".toList
  mode := .pac
  upstreamHost := []
  upstreamPort := "80a".toList
  upstreamAuth := {}
  pacSource := .url
  pacPath := " ".toList
  pacUrl := "http://wpad.example/proxy.pac".toList
  pacFailPolicy := .direct
  pacAuth := { mode := .basic, username := "alice".toList, password := "  ".toList }
  corpEnabled := true
  corpSuffixes := " corp.example,\n\nlab.example , ".toList
  corpPollSeconds := []
  pool := { enabled := true, minIdle := 4 }
  logLevel := "info".toList
  logFormat := "json".toList

/-- What it reads as. -/
def typedConfig (password : Option Text) : Config where
  routing := {
    mode := .pac
    pac := some {
      source := .url
      url := some "http://wpad.example/proxy.pac".toList
      failPolicy := .direct
      auth := { mode := .basic, username := some "alice".toList, password } }
    corpNetwork := some {
      enabled := true
      dnsSuffixes := ["corp.example".toList, "lab.example".toList] }
    pool := { enabled := true, minIdle := 4 } }

theorem typedConfig_passwordsBasic (password : Option Text) :
    (typedConfig password).PasswordsBasic := by
  rintro auth (hauth | hauth) -
  · cases hauth
  · obtain rfl := Option.some.inj hauth
    rfl

theorem typedConfig_keepSecretsFrom (password : Option Text) :
    (typedConfig none).keepSecretsFrom (typedConfig password) = typedConfig password := by
  have hauth (user : Text) :
      AuthConfig.keepPasswordFrom { mode := .basic, username := some user }
        { mode := .basic, username := some user, password } =
        { mode := .basic, username := some user, password } := if_pos ⟨rfl, rfl, rfl, rfl⟩
  unfold Config.keepSecretsFrom Config.pacAuth Config.upstreamAuth typedConfig
  dsimp only [Option.map_some, Option.map_none]
  rw [hauth]

theorem save_unedited_typed :
    ∃ again, (fromConfig (typedConfig (some "s3cret".toList)).withoutSecrets).toConfig =
      .ok again ∧ again.keepSecretsFrom (typedConfig (some "s3cret".toList)) =
        typedConfig (some "s3cret".toList) := by
  have hread : typedForm.toConfig = .ok (typedConfig none) := by decide +kernel
  have hkept := typedConfig_keepSecretsFrom (some "s3cret".toList)
  have hvalid : ((typedConfig none).keepSecretsFrom (typedConfig (some "s3cret".toList))).validate
      ⟨true⟩ = .ok () := by decide +kernel
  have hbasic : ((typedConfig none).keepSecretsFrom
      (typedConfig (some "s3cret".toList))).PasswordsBasic :=
    hkept ▸ typedConfig_passwordsBasic _
  have hagain := save_unedited hread hvalid hbasic
  rwa [hkept] at hagain

end ConfigForm

end Zicade.Ui
