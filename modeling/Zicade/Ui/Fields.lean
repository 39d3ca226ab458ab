import Zicade.Config.Load
import Zicade.Ui.ConfigForm

/-! # The widgets of the settings form

Drop-downs show labels and hold config-file names; a value the list does not offer is kept
until something else is picked. The names of an enum are those of the config file, so a
drop-down, like a text field, reads as what was put into it. That the input and select states of
the toolkit are plain cells is assumed: a text is held as it was typed or set, and a row as it
was picked.
-/

namespace Zicade.Ui

open Zicade.Foundation Zicade.Schema

/-- One drop-down option: as written in the config file, and as shown in the window. -/
structure Item where
  name : String
  label : String
  deriving DecidableEq, Repr

def ROUTING_MODES : List Item :=
  [⟨"direct", "Direct"⟩, ⟨"upstream", "Upstream proxy"⟩, ⟨"pac", "PAC script"⟩]

def AUTH_MODES : List Item :=
  [⟨"none", "None"⟩, ⟨"basic", "Username and password"⟩, ⟨"negotiate", "Windows sign-in"⟩]

def SSPI_PACKAGES : List Item := [⟨"ntlm", "NTLM"⟩, ⟨"negotiate", "Negotiate (Kerberos)"⟩]

def PAC_SOURCES : List Item := [⟨"auto", "Automatic"⟩, ⟨"file", "File"⟩, ⟨"url", "Web address"⟩]

def FAIL_POLICIES : List Item := [⟨"error", "Fail the request"⟩, ⟨"direct", "Connect directly"⟩]

def LOG_LEVELS : List Item :=
  [⟨"trace", "Trace"⟩, ⟨"debug", "Debug"⟩, ⟨"info", "Info"⟩, ⟨"warn", "Warnings"⟩,
    ⟨"error", "Errors"⟩]

def LOG_FORMATS : List Item := [⟨"json", "JSON"⟩, ⟨"text", "Text"⟩, ⟨"pretty", "Pretty"⟩]

/-- An enum of the config file. -/
class Named (α : Type) where
  toJson : α → Json
  fromJson : Json → Except LoadError α
  default : α

instance : Named RoutingMode := ⟨RoutingMode.toJson, RoutingMode.fromJson, .direct⟩
instance : Named AuthMode := ⟨AuthMode.toJson, AuthMode.fromJson, .none⟩
instance : Named SspiPackage := ⟨SspiPackage.toJson, SspiPackage.fromJson, .ntlm⟩
instance : Named PacSource := ⟨PacSource.toJson, PacSource.fromJson, .auto⟩
instance : Named FailPolicy := ⟨FailPolicy.toJson, FailPolicy.fromJson, .error⟩

section

variable {α : Type} [Named α]

/-- The enum value a config-file name stands for. -/
def parse (name : Text) : Option α := (Named.fromJson (.string name)).toOption

/-- The config-file name of an enum value. -/
def nameOf (value : α) : Text :=
  match Named.toJson value with
  | .string name => name
  | _ => []

end

/-- Where the option named `name` sits in `options`, if it is offered at all. -/
def indexOf (options : List Item) (name : Text) : Option Nat :=
  options.findIdx? fun option => option.name.toList = name

/-! ## Drop-downs -/

/-- A drop-down: the row that is picked, and a value of the config that is not offered. -/
structure Choice (options : List Item) where
  selected : Option Nat
  unlisted : Option Text
  deriving DecidableEq, Repr

namespace Choice

variable {options : List Item}

/-- The picked option's config-file name. -/
def name (choice : Choice options) : Text :=
  match choice.selected.bind fun row => options[row]? with
  | some item => item.name.toList
  | none => choice.unlisted.getD []

def pick (choice : Choice options) (name : Text) : Choice options :=
  { choice with
    selected := indexOf options name
    unlisted := if (indexOf options name).isNone then some name else none }

/-- A new drop-down: `Builder::choice`. -/
def build (name : Text) : Choice options where
  selected := indexOf options name
  unlisted := if (indexOf options name).isNone then some name else none

/-- The user picks a row of the list. -/
def selectRow (choice : Choice options) (row : Nat) : Choice options :=
  { choice with selected := some row }

/-- The enum the picked option names, or its default when nothing is picked. -/
def pickedEnum {α : Type} [Named α] (choice : Choice options) : α :=
  (parse choice.name).getD Named.default

/-- What was put into a drop-down is what it reads as, offered or not. -/
theorem name_build (name : Text) : (build name : Choice options).name = name := by
  unfold build Choice.name
  dsimp only
  cases hindex : indexOf options name with
  | none => rfl
  | some row =>
      obtain ⟨hrow, hname, -⟩ := List.findIdx?_eq_some_iff_getElem.mp hindex
      rw [Option.bind_some, List.getElem?_eq_getElem hrow]
      exact of_decide_eq_true hname

@[simp] theorem pick_eq (choice : Choice options) (name : Text) : choice.pick name = build name :=
  rfl

theorem name_selectRow (choice : Choice options) {row : Nat} (hrow : row < options.length) :
    (choice.selectRow row).name = options[row].name.toList := by
  rw [selectRow, Choice.name, Option.bind_some, List.getElem?_eq_getElem hrow]

end Choice

/-! ## What the drop-downs offer -/

/-- The rows of a drop-down name the values of an enum. -/
structure Offers {α : Type} [Named α] (options : List Item) (values : List α) : Prop where
  names : options.map (·.name.toList) = values.map nameOf
  parsed : ∀ value : α, parse (nameOf value) = some value
  complete : ∀ value : α, value ∈ values
  once : values.Nodup

theorem routingModes_offers : Offers ROUTING_MODES [RoutingMode.direct, .upstream, .pac] :=
  ⟨by decide, by intro value; cases value <;> rfl, by intro value; cases value <;> decide,
    by decide⟩

theorem authModes_offers : Offers AUTH_MODES [AuthMode.none, .basic, .negotiate] :=
  ⟨by decide, by intro value; cases value <;> rfl, by intro value; cases value <;> decide,
    by decide⟩

theorem sspiPackages_offers : Offers SSPI_PACKAGES [SspiPackage.ntlm, .negotiate] :=
  ⟨by decide, by intro value; cases value <;> rfl, by intro value; cases value <;> decide,
    by decide⟩

theorem pacSources_offers : Offers PAC_SOURCES [PacSource.auto, .file, .url] :=
  ⟨by decide, by intro value; cases value <;> rfl, by intro value; cases value <;> decide,
    by decide⟩

theorem failPolicies_offers : Offers FAIL_POLICIES [FailPolicy.error, .direct] :=
  ⟨by decide, by intro value; cases value <;> rfl, by intro value; cases value <;> decide,
    by decide⟩

namespace Offers

variable {α : Type} [Named α] {options : List Item} {values : List α}

theorem length_eq (hoffers : Offers options values) : options.length = values.length := by
  simpa using congrArg List.length hoffers.names

/-- A drop-down into which a value was put reads as that value. -/
theorem pickedEnum_build (hoffers : Offers options values) (value : α) :
    (Choice.build (nameOf value) : Choice options).pickedEnum = value := by
  rw [Choice.pickedEnum, Choice.name_build, hoffers.parsed, Option.getD_some]

/-- A picked row reads as the value it names. -/
theorem pickedEnum_selectRow (hoffers : Offers options values) (choice : Choice options)
    {row : Nat} (hrow : row < options.length) :
    (choice.selectRow row).pickedEnum = values[row]?.getD Named.default := by
  have hrow' : row < values.length := hoffers.length_eq ▸ hrow
  have hname : options[row].name.toList = nameOf values[row] := by
    have hat := congrArg (fun names => names[row]?) hoffers.names
    simpa [hrow, hrow'] using hat
  rw [Choice.pickedEnum, Choice.name_selectRow choice hrow, hname, hoffers.parsed,
    Option.getD_some, List.getElem?_eq_getElem hrow', Option.getD_some]

end Offers

/-! ## The form's widgets -/

/-- One auth slot's widgets. -/
structure AuthFields where
  mode : Choice AUTH_MODES
  package : Choice SSPI_PACKAGES
  username : Text
  password : Text
  deriving DecidableEq, Repr

namespace AuthFields

/-- A new password field is blank. -/
def build (auth : AuthForm) : AuthFields where
  mode := .build (nameOf auth.mode)
  package := .build (nameOf auth.package)
  username := auth.username
  password := []

def read (fields : AuthFields) : AuthForm where
  mode := fields.mode.pickedEnum
  package := fields.package.pickedEnum
  username := fields.username
  password := fields.password

def load (fields : AuthFields) (auth : AuthForm) : AuthFields where
  mode := fields.mode.pick (nameOf auth.mode)
  package := fields.package.pick (nameOf auth.package)
  username := auth.username
  password := []

end AuthFields

/-- Every widget on the form, and the pool settings, which are not on screen. -/
structure Fields where
  listenHost : Text
  listenPort : Text
  mode : Choice ROUTING_MODES
  upstreamHost : Text
  upstreamPort : Text
  upstreamAuth : AuthFields
  pacSource : Choice PAC_SOURCES
  pacPath : Text
  pacUrl : Text
  pacFailPolicy : Choice FAIL_POLICIES
  pacAuth : AuthFields
  corpSuffixes : Text
  corpPollSeconds : Text
  logLevel : Choice LOG_LEVELS
  logFormat : Choice LOG_FORMATS
  pool : PoolConfig
  deriving DecidableEq, Repr

namespace Fields

/-- `Builder::build`. -/
def build (form : ConfigForm) : Fields where
  listenHost := form.listenHost
  listenPort := form.listenPort
  mode := .build (nameOf form.mode)
  upstreamHost := form.upstreamHost
  upstreamPort := form.upstreamPort
  upstreamAuth := .build form.upstreamAuth
  pacSource := .build (nameOf form.pacSource)
  pacPath := form.pacPath
  pacUrl := form.pacUrl
  pacFailPolicy := .build (nameOf form.pacFailPolicy)
  pacAuth := .build form.pacAuth
  corpSuffixes := form.corpSuffixes
  corpPollSeconds := form.corpPollSeconds
  logLevel := .build form.logLevel
  logFormat := .build form.logFormat
  pool := form.pool

/-- Everything on screen, as the form model; the switch is held by the view. -/
def read (fields : Fields) (corpEnabled : Bool) : ConfigForm where
  listenHost := fields.listenHost
  listenPort := fields.listenPort
  mode := fields.mode.pickedEnum
  upstreamHost := fields.upstreamHost
  upstreamPort := fields.upstreamPort
  upstreamAuth := fields.upstreamAuth.read
  pacSource := fields.pacSource.pickedEnum
  pacPath := fields.pacPath
  pacUrl := fields.pacUrl
  pacFailPolicy := fields.pacFailPolicy.pickedEnum
  pacAuth := fields.pacAuth.read
  corpEnabled
  corpSuffixes := fields.corpSuffixes
  corpPollSeconds := fields.corpPollSeconds
  pool := fields.pool
  logLevel := fields.logLevel.name
  logFormat := fields.logFormat.name

/-- Put `form` on screen; password fields are always cleared. -/
def load (fields : Fields) (form : ConfigForm) : Fields where
  listenHost := form.listenHost
  listenPort := form.listenPort
  mode := fields.mode.pick (nameOf form.mode)
  upstreamHost := form.upstreamHost
  upstreamPort := form.upstreamPort
  upstreamAuth := fields.upstreamAuth.load form.upstreamAuth
  pacSource := fields.pacSource.pick (nameOf form.pacSource)
  pacPath := form.pacPath
  pacUrl := form.pacUrl
  pacFailPolicy := fields.pacFailPolicy.pick (nameOf form.pacFailPolicy)
  pacAuth := fields.pacAuth.load form.pacAuth
  corpSuffixes := form.corpSuffixes
  corpPollSeconds := form.corpPollSeconds
  logLevel := fields.logLevel.pick form.logLevel
  logFormat := fields.logFormat.pick form.logFormat
  pool := form.pool

end Fields

/-! ## What is put on screen is read from it -/

/-- The form with its password fields cleared. -/
def ConfigForm.cleared (form : ConfigForm) : ConfigForm :=
  { form with
    upstreamAuth := { form.upstreamAuth with password := [] }
    pacAuth := { form.pacAuth with password := [] } }

theorem AuthFields.read_build (auth : AuthForm) :
    (AuthFields.build auth).read = { auth with password := [] } := by
  rw [AuthFields.read, AuthFields.build, authModes_offers.pickedEnum_build,
    sspiPackages_offers.pickedEnum_build]

theorem Fields.read_build (form : ConfigForm) :
    (Fields.build form).read form.corpEnabled = form.cleared := by
  rw [Fields.read, Fields.build, ConfigForm.cleared]
  dsimp only
  rw [routingModes_offers.pickedEnum_build, pacSources_offers.pickedEnum_build,
    failPolicies_offers.pickedEnum_build, AuthFields.read_build, AuthFields.read_build,
    Choice.name_build, Choice.name_build]

/-- Loading leaves nothing of what was on screen before. -/
theorem Fields.load_eq_build (fields : Fields) (form : ConfigForm) :
    fields.load form = .build form := rfl

/-- A redacted config has no password to clear. -/
theorem ConfigForm.cleared_fromConfig (config : Config) :
    (fromConfig config.withoutSecrets).cleared = fromConfig config.withoutSecrets := by
  obtain ⟨listen, ⟨mode, upstream, pac, corpNetwork, pool⟩, logging⟩ := config
  cases upstream <;> cases pac <;> rfl

/-! ## Edits -/

inductive TextField
  | listenHost
  | listenPort
  | upstreamHost
  | upstreamPort
  | upstreamUsername
  | upstreamPassword
  | pacPath
  | pacUrl
  | pacUsername
  | pacPassword
  | corpSuffixes
  | corpPollSeconds
  deriving DecidableEq, Repr

inductive ChoiceField
  | mode
  | upstreamAuthMode
  | upstreamPackage
  | pacSource
  | pacFailPolicy
  | pacAuthMode
  | pacPackage
  | logLevel
  | logFormat
  deriving DecidableEq, Repr

def ChoiceField.options : ChoiceField → List Item
  | .mode => ROUTING_MODES
  | .upstreamAuthMode => AUTH_MODES
  | .upstreamPackage => SSPI_PACKAGES
  | .pacSource => PAC_SOURCES
  | .pacFailPolicy => FAIL_POLICIES
  | .pacAuthMode => AUTH_MODES
  | .pacPackage => SSPI_PACKAGES
  | .logLevel => LOG_LEVELS
  | .logFormat => LOG_FORMATS

/-- The user types into a text field until it holds `text`. -/
def Fields.type (fields : Fields) (text : Text) : TextField → Fields
  | .listenHost => { fields with listenHost := text }
  | .listenPort => { fields with listenPort := text }
  | .upstreamHost => { fields with upstreamHost := text }
  | .upstreamPort => { fields with upstreamPort := text }
  | .upstreamUsername =>
      { fields with upstreamAuth := { fields.upstreamAuth with username := text } }
  | .upstreamPassword =>
      { fields with upstreamAuth := { fields.upstreamAuth with password := text } }
  | .pacPath => { fields with pacPath := text }
  | .pacUrl => { fields with pacUrl := text }
  | .pacUsername => { fields with pacAuth := { fields.pacAuth with username := text } }
  | .pacPassword => { fields with pacAuth := { fields.pacAuth with password := text } }
  | .corpSuffixes => { fields with corpSuffixes := text }
  | .corpPollSeconds => { fields with corpPollSeconds := text }

def Fields.selectRow (fields : Fields) (row : Nat) : ChoiceField → Fields
  | .mode => { fields with mode := fields.mode.selectRow row }
  | .upstreamAuthMode =>
      let mode := fields.upstreamAuth.mode.selectRow row
      { fields with upstreamAuth := { fields.upstreamAuth with mode } }
  | .upstreamPackage =>
      let package := fields.upstreamAuth.package.selectRow row
      { fields with upstreamAuth := { fields.upstreamAuth with package } }
  | .pacSource => { fields with pacSource := fields.pacSource.selectRow row }
  | .pacFailPolicy => { fields with pacFailPolicy := fields.pacFailPolicy.selectRow row }
  | .pacAuthMode =>
      { fields with
        pacAuth := { fields.pacAuth with mode := fields.pacAuth.mode.selectRow row } }
  | .pacPackage =>
      { fields with
        pacAuth := { fields.pacAuth with package := fields.pacAuth.package.selectRow row } }
  | .logLevel => { fields with logLevel := fields.logLevel.selectRow row }
  | .logFormat => { fields with logFormat := fields.logFormat.selectRow row }

/-- What typing means for the form. -/
def ConfigForm.type (form : ConfigForm) (text : Text) : TextField → ConfigForm
  | .listenHost => { form with listenHost := text }
  | .listenPort => { form with listenPort := text }
  | .upstreamHost => { form with upstreamHost := text }
  | .upstreamPort => { form with upstreamPort := text }
  | .upstreamUsername => { form with upstreamAuth := { form.upstreamAuth with username := text } }
  | .upstreamPassword => { form with upstreamAuth := { form.upstreamAuth with password := text } }
  | .pacPath => { form with pacPath := text }
  | .pacUrl => { form with pacUrl := text }
  | .pacUsername => { form with pacAuth := { form.pacAuth with username := text } }
  | .pacPassword => { form with pacAuth := { form.pacAuth with password := text } }
  | .corpSuffixes => { form with corpSuffixes := text }
  | .corpPollSeconds => { form with corpPollSeconds := text }

/-- The value in a row, for a drop-down whose rows name `values`. -/
def inRow {α : Type} [Named α] (values : List α) (row : Nat) : α :=
  values[row]?.getD Named.default

/-- What picking a row means for the form: the values are in the order of their rows. -/
def ConfigForm.pickRow (form : ConfigForm) (row : Nat) : ChoiceField → ConfigForm
  | .mode => { form with mode := inRow [.direct, .upstream, .pac] row }
  | .upstreamAuthMode =>
      let mode := inRow [.none, .basic, .negotiate] row
      { form with upstreamAuth := { form.upstreamAuth with mode } }
  | .upstreamPackage =>
      let package := inRow [.ntlm, .negotiate] row
      { form with upstreamAuth := { form.upstreamAuth with package } }
  | .pacSource => { form with pacSource := inRow [.auto, .file, .url] row }
  | .pacFailPolicy => { form with pacFailPolicy := inRow [.error, .direct] row }
  | .pacAuthMode =>
      { form with
        pacAuth := { form.pacAuth with mode := inRow [.none, .basic, .negotiate] row } }
  | .pacPackage =>
      { form with pacAuth := { form.pacAuth with package := inRow [.ntlm, .negotiate] row } }
  | .logLevel =>
      { form with logLevel := ["trace", "debug", "info", "warn", "error"][row]?.getD "" |>.toList }
  | .logFormat =>
      { form with logFormat := ["json", "text", "pretty"][row]?.getD "" |>.toList }

theorem Fields.read_type (fields : Fields) (text : Text) (field : TextField) (corpEnabled : Bool) :
    (fields.type text field).read corpEnabled = (fields.read corpEnabled).type text field := by
  cases field <;> rfl

/-- A row that is offered is read as what it means. -/
theorem Fields.read_selectRow (fields : Fields) {row : Nat} {field : ChoiceField}
    (hrow : row < field.options.length) (corpEnabled : Bool) :
    (fields.selectRow row field).read corpEnabled =
      (fields.read corpEnabled).pickRow row field := by
  cases field with
  | mode =>
      have hread := routingModes_offers.pickedEnum_selectRow fields.mode hrow
      rw [selectRow, read, hread]
      rfl
  | upstreamAuthMode =>
      have hread := authModes_offers.pickedEnum_selectRow fields.upstreamAuth.mode hrow
      rw [selectRow, read, AuthFields.read, hread]
      rfl
  | upstreamPackage =>
      have hread := sspiPackages_offers.pickedEnum_selectRow fields.upstreamAuth.package hrow
      rw [selectRow, read, AuthFields.read, hread]
      rfl
  | pacSource =>
      have hread := pacSources_offers.pickedEnum_selectRow fields.pacSource hrow
      rw [selectRow, read, hread]
      rfl
  | pacFailPolicy =>
      have hread := failPolicies_offers.pickedEnum_selectRow fields.pacFailPolicy hrow
      rw [selectRow, read, hread]
      rfl
  | pacAuthMode =>
      have hread := authModes_offers.pickedEnum_selectRow fields.pacAuth.mode hrow
      rw [selectRow, read, AuthFields.read.eq_def { fields.pacAuth with mode := _ }, hread]
      rfl
  | pacPackage =>
      have hread := sspiPackages_offers.pickedEnum_selectRow fields.pacAuth.package hrow
      rw [selectRow, read, AuthFields.read.eq_def { fields.pacAuth with package := _ }, hread]
      rfl
  | logLevel =>
      have hread := fields.logLevel.name_selectRow hrow
      rw [selectRow, read, hread]
      match row, hrow with
      | 0, _ | 1, _ | 2, _ | 3, _ | 4, _ => rfl
  | logFormat =>
      have hread := fields.logFormat.name_selectRow hrow
      rw [selectRow, read, hread]
      match row, hrow with
      | 0, _ | 1, _ | 2, _ => rfl

end Zicade.Ui
