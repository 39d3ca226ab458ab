import Zicade.Config.JsonText

/-! # Loading the config file

What the schema makes of a JSON value: fields by name, each with its default or
required, other fields ignored, and a field given twice refused. A config that was saved
loads as it was.
-/

namespace Zicade.Schema

open Zicade.Foundation

/-- What is wrong with a text; of several faults, any one may be reported. -/
inductive LoadError
  | malformed
  | invalidType
  | invalidValue
  | unknownVariant (name : Text)
  | duplicateField (name : String)
  | missingField (name : String)
  deriving DecidableEq, Repr

/-! ## Reading a value -/

/-- The values under a name. -/
def lookup (name : String) (fields : List (Text × Json)) : List Json :=
  (fields.filter fun field => field.1 = name.toList).map Prod.snd

/-- The fields of a struct, which may also be written as an array in their order. -/
def structOf (names : List String) : Json → Except LoadError (List (Text × Json))
  | .object fields =>
      match names.find? fun name => 1 < (lookup name fields).length with
      | some name => .error (.duplicateField name)
      | none => .ok fields
  | .array items =>
      if items.length ≤ names.length then .ok ((names.map String.toList).zip items)
      else .error .invalidValue
  | _ => .error .invalidType

def required {α : Type} (name : String) (read : Json → Except LoadError α)
    (fields : List (Text × Json)) : Except LoadError α :=
  match lookup name fields with
  | [] => .error (.missingField name)
  | value :: _ => read value

def orDefault {α : Type} (default : α) (name : String) (read : Json → Except LoadError α)
    (fields : List (Text × Json)) : Except LoadError α :=
  match lookup name fields with
  | [] => .ok default
  | value :: _ => read value

def optional {α : Type} (read : Json → Except LoadError α) : Json → Except LoadError (Option α)
  | .null => .ok none
  | value => (read value).map some

def readBool : Json → Except LoadError Bool
  | .boolean value => .ok value
  | _ => .error .invalidType

def readText : Json → Except LoadError Text
  | .string text => .ok text
  | _ => .error .invalidType

def readNat (bound : Nat) : Json → Except LoadError Nat
  | .number value => if value < bound then .ok value else .error .invalidValue
  | _ => .error .invalidType

def readU16 (json : Json) : Except LoadError UInt16 := (readNat UInt16.size json).map UInt16.ofNat

def readU64 (json : Json) : Except LoadError UInt64 := (readNat UInt64.size json).map UInt64.ofNat

def readTexts : Json → Except LoadError (List Text)
  | .array items => items.mapM readText
  | _ => .error .invalidType

/-- A variant by its name, which may also be the only key of an object with nothing
under it. -/
def enumOf {α : Type} (variants : List (String × α)) : Json → Except LoadError α
  | .string name | .object [(name, .null)] =>
      match variants.find? fun variant => variant.1.toList = name with
      | some variant => .ok variant.2
      | none => .error (.unknownVariant name)
  | _ => .error .invalidType

/-! ## The schema -/

def RoutingMode.fromJson : Json → Except LoadError RoutingMode :=
  enumOf [("direct", .direct), ("upstream", .upstream), ("pac", .pac)]

def AuthMode.fromJson : Json → Except LoadError AuthMode :=
  enumOf [("none", .none), ("basic", .basic), ("negotiate", .negotiate)]

def SspiPackage.fromJson : Json → Except LoadError SspiPackage :=
  enumOf [("ntlm", .ntlm), ("negotiate", .negotiate)]

def PacSource.fromJson : Json → Except LoadError PacSource :=
  enumOf [("auto", .auto), ("file", .file), ("url", .url)]

def FailPolicy.fromJson : Json → Except LoadError FailPolicy :=
  enumOf [("error", .error), ("direct", .direct)]

def ListenConfig.fromJson (json : Json) : Except LoadError ListenConfig := do
  let fields ← structOf ["host", "port"] json
  let host ← required "host" readText fields
  let port ← required "port" readU16 fields
  return { host, port }

def AuthConfig.fromJson (json : Json) : Except LoadError AuthConfig := do
  let fields ← structOf ["mode", "package", "username", "password"] json
  let mode ← orDefault .none "mode" AuthMode.fromJson fields
  let package ← orDefault .ntlm "package" SspiPackage.fromJson fields
  let username ← orDefault none "username" (optional readText) fields
  let password ← orDefault none "password" (optional readText) fields
  return { mode, package, username, password }

def UpstreamConfig.fromJson (json : Json) : Except LoadError UpstreamConfig := do
  let fields ← structOf ["host", "port", "auth"] json
  let host ← required "host" readText fields
  let port ← required "port" readU16 fields
  let auth ← orDefault {} "auth" AuthConfig.fromJson fields
  return { host, port, auth }

def PoolConfig.fromJson (json : Json) : Except LoadError PoolConfig := do
  let fields ← structOf ["enabled", "minIdle", "idleTimeoutSeconds"] json
  let enabled ← orDefault false "enabled" readBool fields
  let minIdle ← orDefault 2 "minIdle" readU64 fields
  let idleTimeoutSeconds ← orDefault 30 "idleTimeoutSeconds" readU64 fields
  return { enabled, minIdle, idleTimeoutSeconds }

def PacConfig.fromJson (json : Json) : Except LoadError PacConfig := do
  let fields ← structOf ["source", "path", "url", "failPolicy", "auth"] json
  let source ← required "source" PacSource.fromJson fields
  let path ← orDefault none "path" (optional readText) fields
  let url ← orDefault none "url" (optional readText) fields
  let failPolicy ← orDefault .error "failPolicy" FailPolicy.fromJson fields
  let auth ← orDefault {} "auth" AuthConfig.fromJson fields
  return { source, path, url, failPolicy, auth }

def CorpNetworkConfig.fromJson (json : Json) : Except LoadError CorpNetworkConfig := do
  let fields ← structOf ["enabled", "dnsSuffixes", "pollSeconds"] json
  let enabled ← orDefault false "enabled" readBool fields
  let dnsSuffixes ← orDefault [] "dnsSuffixes" readTexts fields
  let pollSeconds ← orDefault 30 "pollSeconds" readU64 fields
  return { enabled, dnsSuffixes, pollSeconds }

def RoutingConfig.fromJson (json : Json) : Except LoadError RoutingConfig := do
  let fields ← structOf ["mode", "upstream", "pac", "corpNetwork", "pool"] json
  let mode ← required "mode" RoutingMode.fromJson fields
  let upstream ← orDefault none "upstream" (optional UpstreamConfig.fromJson) fields
  let pac ← orDefault none "pac" (optional PacConfig.fromJson) fields
  let corpNetwork ← orDefault none "corpNetwork" (optional CorpNetworkConfig.fromJson) fields
  let pool ← orDefault {} "pool" PoolConfig.fromJson fields
  return { mode, upstream, pac, corpNetwork, pool }

def LoggingConfig.fromJson (json : Json) : Except LoadError LoggingConfig := do
  let fields ← structOf ["level", "format"] json
  let level ← required "level" readText fields
  let format ← required "format" readText fields
  return { level, format }

def Config.fromJson (json : Json) : Except LoadError Config := do
  let fields ← structOf ["listen", "routing", "logging"] json
  let listen ← orDefault {} "listen" ListenConfig.fromJson fields
  let routing ← orDefault {} "routing" RoutingConfig.fromJson fields
  let logging ← orDefault {} "logging" LoggingConfig.fromJson fields
  return { listen, routing, logging }

/-- The reader of JSON texts: it reads back what is printed of a value that is not
nested too deep and whose numbers have 64 bits. Nothing is said of texts that are
not printed: what stands under a key that no field has is skipped unread. -/
structure SerdeJson where
  fromStr : Text → Option Json
  fromStr_pretty : ∀ value : Json, value.within 127 = true → fromStr (value.pretty 0) = some value

/-- The reader of this development is one. -/
def serdeJson : SerdeJson := ⟨readJson, fun _ => readJson_pretty⟩

/-- `from_json_str`. -/
def fromJsonStr (serde : SerdeJson) (text : Text) : Except LoadError Config :=
  match serde.fromStr text with
  | none => .error .malformed
  | some json => Config.fromJson json

/-! ## What was saved loads -/

theorem lookup_append (name : String) (front back : List (Text × Json)) :
    lookup name (front ++ back) = lookup name front ++ lookup name back := by
  rw [lookup, List.filter_append, List.map_append, ← lookup, ← lookup]

@[simp] theorem lookup_nil (name : String) : lookup name [] = [] := rfl

@[simp] theorem lookup_field (name key : String) (value : Json) (rest : List (Text × Json)) :
    lookup name (field key value :: rest) =
      (if key = name then [value] else []) ++ lookup name rest := by
  rw [← List.singleton_append, lookup_append]
  congr 1
  by_cases heq : key = name <;> simp [lookup, field, String.toList_inj, heq]

@[simp] theorem lookup_optionalField (name key : String) (value : Option Json) :
    lookup name (optionalField key value) = if key = name then value.toList else [] := by
  cases value with
  | none => simp [optionalField]
  | some value => exact (lookup_field name key value []).trans (List.append_nil _)

theorem structOf_object {names : List String} {fields : List (Text × Json)}
    (honce : ∀ name ∈ names, (lookup name fields).length ≤ 1) :
    structOf names (.object fields) = .ok fields := by
  have hnone : (names.find? fun name => 1 < (lookup name fields).length) = none := by
    refine List.find?_eq_none.mpr fun name hmem => ?_
    simpa using honce name hmem
  rw [structOf, hnone]

theorem required_of_lookup {α : Type} {name : String} {fields : List (Text × Json)} {value : Json}
    {read : Json → Except LoadError α} {a : α} (hread : read value = .ok a)
    (hlookup : lookup name fields = [value]) : required name read fields = .ok a := by
  rw [required, hlookup]
  exact hread

theorem orDefault_of_lookup {α : Type} {name : String} {fields : List (Text × Json)}
    {value : Json} {default : α} {read : Json → Except LoadError α} {a : α}
    (hread : read value = .ok a) (hlookup : lookup name fields = [value]) :
    orDefault default name read fields = .ok a := by
  rw [orDefault, hlookup]
  exact hread

/-- A field that is left out while it is absent is absent again. -/
theorem orDefault_optional {α : Type} {name : String} {fields : List (Text × Json)}
    {value : Option α} {read : Json → Except LoadError α} {print : α → Json}
    (hread : ∀ a, read (print a) = .ok a) (hnull : ∀ a, print a ≠ .null)
    (hlookup : lookup name fields = (value.map print).toList) :
    orDefault none name (optional read) fields = .ok value := by
  rw [orDefault, hlookup]
  cases value with
  | none => rfl
  | some a =>
      change optional read (print a) = .ok (some a)
      unfold optional
      split
      next hprint => exact absurd hprint (hnull a)
      next => rw [hread, Except.map]

theorem readText_print (text : Text) : readText (.string text) = .ok text := rfl

theorem readBool_print (value : Bool) : readBool (.boolean value) = .ok value := rfl

theorem readU16_print (value : UInt16) : readU16 (.number value.toNat) = .ok value := by
  rw [readU16, readNat, if_pos value.toNat_lt_size, Except.map, UInt16.ofNat_toNat]

theorem readU64_print (value : UInt64) : readU64 (.number value.toNat) = .ok value := by
  rw [readU64, readNat, if_pos value.toNat_lt_size, Except.map, UInt64.ofNat_toNat]

theorem readTexts_print (texts : List Text) :
    readTexts (.array (texts.map .string)) = .ok texts := by
  rw [readTexts]
  induction texts with
  | nil => rfl
  | cons text rest ih =>
      rw [List.map_cons, List.mapM_cons, ih]
      rfl

theorem ok_bind {α β : Type} (a : α) (next : α → Except LoadError β) :
    (Except.ok a >>= next) = next a := rfl

theorem RoutingMode.fromJson_toJson (mode : RoutingMode) : fromJson mode.toJson = .ok mode := by
  cases mode <;> rfl

theorem AuthMode.fromJson_toJson (mode : AuthMode) : fromJson mode.toJson = .ok mode := by
  cases mode <;> rfl

theorem SspiPackage.fromJson_toJson (package : SspiPackage) :
    fromJson package.toJson = .ok package := by
  cases package <;> rfl

theorem PacSource.fromJson_toJson (source : PacSource) : fromJson source.toJson = .ok source := by
  cases source <;> rfl

theorem FailPolicy.fromJson_toJson (policy : FailPolicy) :
    fromJson policy.toJson = .ok policy := by
  cases policy <;> rfl

theorem AuthConfig.fromJson_toJson (auth : AuthConfig) : fromJson auth.toJson = .ok auth := by
  let fields := [field "mode" auth.mode.toJson, field "package" auth.package.toJson] ++
    optionalField "username" (auth.username.map .string) ++
    optionalField "password" (auth.password.map .string)
  have hfields : structOf ["mode", "package", "username", "password"] auth.toJson = .ok fields := by
    refine structOf_object ?_
    cases auth.username <;> cases auth.password <;> simp [lookup_append]
  have hmode : orDefault .none "mode" AuthMode.fromJson fields = .ok auth.mode :=
    orDefault_of_lookup auth.mode.fromJson_toJson (by simp [fields, lookup_append])
  have hpackage : orDefault .ntlm "package" SspiPackage.fromJson fields = .ok auth.package :=
    orDefault_of_lookup auth.package.fromJson_toJson (by simp [fields, lookup_append])
  have husername : orDefault none "username" (optional readText) fields = .ok auth.username :=
    orDefault_optional readText_print (by simp) (by simp [fields, lookup_append])
  have hpassword : orDefault none "password" (optional readText) fields = .ok auth.password :=
    orDefault_optional readText_print (by simp) (by simp [fields, lookup_append])
  rw [fromJson, hfields, ok_bind, hmode, ok_bind, hpackage, ok_bind, husername, ok_bind, hpassword]
  rfl

theorem UpstreamConfig.fromJson_toJson (upstream : UpstreamConfig) :
    fromJson upstream.toJson = .ok upstream := by
  let fields := [field "host" (.string upstream.host),
    field "port" (.number upstream.port.toNat), field "auth" upstream.auth.toJson]
  have hfields : structOf ["host", "port", "auth"] upstream.toJson = .ok fields :=
    structOf_object (by simp)
  have hhost : required "host" readText fields = .ok upstream.host :=
    required_of_lookup (readText_print _) (by simp [fields])
  have hport : required "port" readU16 fields = .ok upstream.port :=
    required_of_lookup (readU16_print _) (by simp [fields])
  have hauth : orDefault {} "auth" AuthConfig.fromJson fields = .ok upstream.auth :=
    orDefault_of_lookup upstream.auth.fromJson_toJson (by simp [fields])
  rw [fromJson, hfields, ok_bind, hhost, ok_bind, hport, ok_bind, hauth]
  rfl

theorem PoolConfig.fromJson_toJson (pool : PoolConfig) : fromJson pool.toJson = .ok pool := by
  let fields := [field "enabled" (.boolean pool.enabled),
    field "minIdle" (.number pool.minIdle.toNat),
    field "idleTimeoutSeconds" (.number pool.idleTimeoutSeconds.toNat)]
  have hfields : structOf ["enabled", "minIdle", "idleTimeoutSeconds"] pool.toJson = .ok fields :=
    structOf_object (by simp)
  have henabled : orDefault false "enabled" readBool fields = .ok pool.enabled :=
    orDefault_of_lookup (readBool_print _) (by simp [fields])
  have hminIdle : orDefault 2 "minIdle" readU64 fields = .ok pool.minIdle :=
    orDefault_of_lookup (readU64_print _) (by simp [fields])
  have hseconds : orDefault 30 "idleTimeoutSeconds" readU64 fields = .ok pool.idleTimeoutSeconds :=
    orDefault_of_lookup (readU64_print _) (by simp [fields])
  rw [fromJson, hfields, ok_bind, henabled, ok_bind, hminIdle, ok_bind, hseconds]
  rfl

theorem PacConfig.fromJson_toJson (pac : PacConfig) : fromJson pac.toJson = .ok pac := by
  let fields := [field "source" pac.source.toJson] ++
    optionalField "path" (pac.path.map .string) ++ optionalField "url" (pac.url.map .string) ++
    [field "failPolicy" pac.failPolicy.toJson, field "auth" pac.auth.toJson]
  have hfields : structOf ["source", "path", "url", "failPolicy", "auth"] pac.toJson =
      .ok fields := by
    refine structOf_object ?_
    cases pac.path <;> cases pac.url <;> simp [lookup_append]
  have hsource : required "source" PacSource.fromJson fields = .ok pac.source :=
    required_of_lookup pac.source.fromJson_toJson (by simp [fields, lookup_append])
  have hpath : orDefault none "path" (optional readText) fields = .ok pac.path :=
    orDefault_optional readText_print (by simp) (by simp [fields, lookup_append])
  have hurl : orDefault none "url" (optional readText) fields = .ok pac.url :=
    orDefault_optional readText_print (by simp) (by simp [fields, lookup_append])
  have hpolicy : orDefault .error "failPolicy" FailPolicy.fromJson fields = .ok pac.failPolicy :=
    orDefault_of_lookup pac.failPolicy.fromJson_toJson (by simp [fields, lookup_append])
  have hauth : orDefault {} "auth" AuthConfig.fromJson fields = .ok pac.auth :=
    orDefault_of_lookup pac.auth.fromJson_toJson (by simp [fields, lookup_append])
  rw [fromJson, hfields, ok_bind, hsource, ok_bind, hpath, ok_bind, hurl, ok_bind, hpolicy, ok_bind,
    hauth]
  rfl

theorem CorpNetworkConfig.fromJson_toJson (corp : CorpNetworkConfig) :
    fromJson corp.toJson = .ok corp := by
  let fields := [field "enabled" (.boolean corp.enabled),
    field "dnsSuffixes" (.array (corp.dnsSuffixes.map .string)),
    field "pollSeconds" (.number corp.pollSeconds.toNat)]
  have hfields : structOf ["enabled", "dnsSuffixes", "pollSeconds"] corp.toJson = .ok fields :=
    structOf_object (by simp)
  have henabled : orDefault false "enabled" readBool fields = .ok corp.enabled :=
    orDefault_of_lookup (readBool_print _) (by simp [fields])
  have hsuffixes : orDefault [] "dnsSuffixes" readTexts fields = .ok corp.dnsSuffixes :=
    orDefault_of_lookup (readTexts_print _) (by simp [fields])
  have hseconds : orDefault 30 "pollSeconds" readU64 fields = .ok corp.pollSeconds :=
    orDefault_of_lookup (readU64_print _) (by simp [fields])
  rw [fromJson, hfields, ok_bind, henabled, ok_bind, hsuffixes, ok_bind, hseconds]
  rfl

/-- The pool section is left out exactly while it has the value that a config without
one gets. -/
theorem RoutingConfig.fromJson_toJson (routing : RoutingConfig) :
    fromJson routing.toJson = .ok routing := by
  let fields := [field "mode" routing.mode.toJson] ++
    optionalField "upstream" (routing.upstream.map UpstreamConfig.toJson) ++
    optionalField "pac" (routing.pac.map PacConfig.toJson) ++
    optionalField "corpNetwork" (routing.corpNetwork.map CorpNetworkConfig.toJson) ++
    optionalField "pool" (if routing.pool = {} then none else some routing.pool.toJson)
  have honce {α : Type} (value : Option α) : value.toList.length ≤ 1 := by cases value <;> simp
  have hfields : structOf ["mode", "upstream", "pac", "corpNetwork", "pool"] routing.toJson =
      .ok fields :=
    structOf_object (by simp [lookup_append, honce])
  have hmode : required "mode" RoutingMode.fromJson fields = .ok routing.mode :=
    required_of_lookup routing.mode.fromJson_toJson (by simp [fields, lookup_append])
  have hupstream : orDefault none "upstream" (optional UpstreamConfig.fromJson) fields =
      .ok routing.upstream :=
    orDefault_optional UpstreamConfig.fromJson_toJson (by simp [UpstreamConfig.toJson])
      (by simp [fields, lookup_append])
  have hpac : orDefault none "pac" (optional PacConfig.fromJson) fields = .ok routing.pac :=
    orDefault_optional PacConfig.fromJson_toJson (by simp [PacConfig.toJson])
      (by simp [fields, lookup_append])
  have hcorp : orDefault none "corpNetwork" (optional CorpNetworkConfig.fromJson) fields =
      .ok routing.corpNetwork :=
    orDefault_optional CorpNetworkConfig.fromJson_toJson (by simp [CorpNetworkConfig.toJson])
      (by simp [fields, lookup_append])
  have hpool : orDefault {} "pool" PoolConfig.fromJson fields = .ok routing.pool := by
    have hlookup : lookup "pool" fields =
        (if routing.pool = {} then none else some routing.pool.toJson).toList := by
      simp [fields, lookup_append]
    rw [orDefault, hlookup]
    split_ifs with hdefault
    · rw [hdefault]
      rfl
    · exact routing.pool.fromJson_toJson
  rw [fromJson, hfields, ok_bind, hmode, ok_bind, hupstream, ok_bind, hpac, ok_bind, hcorp, ok_bind,
    hpool]
  rfl

theorem Config.fromJson_toJson (config : Config) : fromJson config.toJson = .ok config := by
  let listen := [field "host" (.string config.listen.host),
    field "port" (.number config.listen.port.toNat)]
  have hlisten : ListenConfig.fromJson (.object listen) = .ok config.listen := by
    have hfields : structOf ["host", "port"] (.object listen) = .ok listen :=
      structOf_object (by simp [listen])
    have hhost : required "host" readText listen = .ok config.listen.host :=
      required_of_lookup (readText_print _) (by simp [listen])
    have hport : required "port" readU16 listen = .ok config.listen.port :=
      required_of_lookup (readU16_print _) (by simp [listen])
    rw [ListenConfig.fromJson, hfields, ok_bind, hhost, ok_bind, hport]
    rfl
  let logging := [field "level" (.string config.logging.level),
    field "format" (.string config.logging.format)]
  have hlogging : LoggingConfig.fromJson (.object logging) = .ok config.logging := by
    have hfields : structOf ["level", "format"] (.object logging) = .ok logging :=
      structOf_object (by simp [logging])
    have hlevel : required "level" readText logging = .ok config.logging.level :=
      required_of_lookup (readText_print _) (by simp [logging])
    have hformat : required "format" readText logging = .ok config.logging.format :=
      required_of_lookup (readText_print _) (by simp [logging])
    rw [LoggingConfig.fromJson, hfields, ok_bind, hlevel, ok_bind, hformat]
    rfl
  let fields := [field "listen" (.object listen), field "routing" config.routing.toJson,
    field "logging" (.object logging)]
  have hfields : structOf ["listen", "routing", "logging"] config.toJson = .ok fields :=
    structOf_object (by simp)
  have hlisten : orDefault {} "listen" ListenConfig.fromJson fields = .ok config.listen :=
    orDefault_of_lookup hlisten (by simp [fields])
  have hrouting : orDefault {} "routing" RoutingConfig.fromJson fields = .ok config.routing :=
    orDefault_of_lookup config.routing.fromJson_toJson (by simp [fields])
  have hlogging : orDefault {} "logging" LoggingConfig.fromJson fields = .ok config.logging :=
    orDefault_of_lookup hlogging (by simp [fields])
  rw [fromJson, hfields, ok_bind, hlisten, ok_bind, hrouting, ok_bind, hlogging]
  rfl

/-! ## What is printed is within the reader's limits -/

@[simp] theorem fieldsWithin_nil (levels : Nat) : fieldsWithin levels [] = true := rfl

theorem fieldsWithin_append (levels : Nat) (front back : List (Text × Json)) :
    fieldsWithin levels (front ++ back) =
      (fieldsWithin levels front && fieldsWithin levels back) := by
  induction front with
  | nil => rfl
  | cons first rest ih => rw [List.cons_append, fieldsWithin, ih, fieldsWithin, Bool.and_assoc]

@[simp] theorem fieldsWithin_field (levels : Nat) (key : String) (value : Json)
    (rest : List (Text × Json)) :
    fieldsWithin levels (field key value :: rest) =
      (value.within levels && fieldsWithin levels rest) := rfl

theorem fieldsWithin_optionalField {α : Type} {levels : Nat} {print : α → Json}
    (hprint : ∀ a, (print a).within levels = true) (key : String) (value : Option α) :
    fieldsWithin levels (optionalField key (value.map print)) = true := by
  cases value with
  | none => rfl
  | some a => exact (Bool.and_true _).trans (hprint a)

theorem Json.within_object (levels : Nat) (fields : List (Text × Json)) :
    (Json.object fields).within (levels + 1) = fieldsWithin levels fields := rfl

@[simp] theorem Json.within_string (levels : Nat) (text : Text) :
    (Json.string text).within levels = true := by
  cases levels <;> rfl

@[simp] theorem Json.within_boolean (levels : Nat) (value : Bool) :
    (Json.boolean value).within levels = true := by
  cases levels <;> rfl

@[simp] theorem Json.within_u16 (levels : Nat) (value : UInt16) :
    (Json.number value.toNat).within levels = true := by
  have hlt : value.toNat < UInt64.size := lt_trans value.toNat_lt_size (by decide)
  cases levels <;> exact decide_eq_true hlt

@[simp] theorem Json.within_u64 (levels : Nat) (value : UInt64) :
    (Json.number value.toNat).within levels = true := by
  cases levels <;> exact decide_eq_true value.toNat_lt_size

theorem Json.within_texts (levels : Nat) (texts : List Text) :
    (Json.array (texts.map .string)).within (levels + 1) = true := by
  change itemsWithin levels (texts.map .string) = true
  induction texts with
  | nil => rfl
  | cons text rest ih => rw [List.map_cons, itemsWithin, ih, Json.within_string, Bool.and_true]

theorem AuthConfig.within_toJson (auth : AuthConfig) (levels : Nat) :
    auth.toJson.within (levels + 1) = true := by
  have hmode : auth.mode.toJson.within levels = true := by
    cases auth.mode <;> exact Json.within_string _ _
  have hpackage : auth.package.toJson.within levels = true := by
    cases auth.package <;> exact Json.within_string _ _
  have hstring : ∀ text, (Json.string text).within levels = true := Json.within_string levels
  simp [toJson, Json.within_object, fieldsWithin_append, hmode, hpackage,
    fieldsWithin_optionalField hstring]

theorem UpstreamConfig.within_toJson (upstream : UpstreamConfig) (levels : Nat) :
    upstream.toJson.within (levels + 2) = true := by
  simp [toJson, Json.within_object, upstream.auth.within_toJson]

theorem PacConfig.within_toJson (pac : PacConfig) (levels : Nat) :
    pac.toJson.within (levels + 2) = true := by
  have hsource : pac.source.toJson.within (levels + 1) = true := by
    cases pac.source <;> exact Json.within_string _ _
  have hpolicy : pac.failPolicy.toJson.within (levels + 1) = true := by
    cases pac.failPolicy <;> exact Json.within_string _ _
  have hstring : ∀ text, (Json.string text).within (levels + 1) = true := Json.within_string _
  simp [toJson, Json.within_object, fieldsWithin_append, hsource, hpolicy, pac.auth.within_toJson,
    fieldsWithin_optionalField hstring]

theorem CorpNetworkConfig.within_toJson (corp : CorpNetworkConfig) (levels : Nat) :
    corp.toJson.within (levels + 2) = true := by
  simp [toJson, Json.within_object, Json.within_texts]

theorem PoolConfig.within_toJson (pool : PoolConfig) (levels : Nat) :
    pool.toJson.within (levels + 2) = true := by
  simp [toJson, Json.within_object]

theorem RoutingConfig.within_toJson (routing : RoutingConfig) (levels : Nat) :
    routing.toJson.within (levels + 3) = true := by
  have hmode : routing.mode.toJson.within (levels + 2) = true := by
    cases routing.mode <;> exact Json.within_string _ _
  have hupstream := fieldsWithin_optionalField (fun upstream => upstream.within_toJson levels)
    "upstream" routing.upstream
  have hpac := fieldsWithin_optionalField (fun pac => pac.within_toJson levels) "pac" routing.pac
  have hcorp := fieldsWithin_optionalField (fun corp => corp.within_toJson levels) "corpNetwork"
    routing.corpNetwork
  have hpool : fieldsWithin (levels + 2)
      (optionalField "pool" (if routing.pool = {} then none else some routing.pool.toJson)) =
        true := by
    split_ifs with hdefault
    · rfl
    · exact (Bool.and_true _).trans (routing.pool.within_toJson levels)
  simp [toJson, Json.within_object, fieldsWithin_append, hmode, hupstream, hpac, hcorp, hpool]

theorem Config.within_toJson (config : Config) (levels : Nat) :
    config.toJson.within (levels + 4) = true := by
  simp [toJson, Json.within_object, config.routing.within_toJson]

theorem fromJsonStr_saved (serde : SerdeJson) (config : Config) :
    fromJsonStr serde (toJsonString config) = .ok config := by
  have hread : serde.fromStr (config.toJson.pretty 0) = some config.toJson :=
    serde.fromStr_pretty config.toJson (config.within_toJson 123)
  rw [fromJsonStr, toJsonString, hread]
  exact config.fromJson_toJson

/-- A saved config loads as it was, and so does what is saved of a text that loads. -/
theorem fromJsonStr_toJsonString (serde : SerdeJson) :
    (∀ config : Config, fromJsonStr serde (toJsonString config) = .ok config) ∧
    ∀ (text : Text) (config : Config), fromJsonStr serde text = .ok config →
      fromJsonStr serde (toJsonString config) = .ok config :=
  ⟨fromJsonStr_saved serde, fun _ config _ => fromJsonStr_saved serde config⟩

/-- An upstream with credentials beyond ASCII, and a PAC script to fall back from. -/
def accentedConfig : Config :=
  { routing :=
      { mode := .upstream
        upstream := some ⟨"proxy.example.com".toList, 8080,
          { mode := .basic, username := some "zoé".toList, password := some "p\"s".toList }⟩
        pac := some { source := .url, url := some "http://wpad/p.pac".toList
                      failPolicy := .direct } } }

theorem fromJsonStr_toJsonString_accented :
    ∃ text, text ≠ toJsonString accentedConfig ∧ fromJsonStr serdeJson text = .ok accentedConfig ∧
      fromJsonStr serdeJson (toJsonString accentedConfig) = .ok accentedConfig := by
  have hloads : fromJsonStr serdeJson (' ' :: toJsonString accentedConfig) =
      .ok accentedConfig := by decide +kernel
  exact ⟨_, by simp, hloads, (fromJsonStr_toJsonString serdeJson).2 _ _ hloads⟩

end Zicade.Schema
