import Zicade.Control.Secrets
import Zicade.Ui.ConfigForm

/-! # A typed password on its way to the config

One helper makes texts of the form to optional texts, usernames and passwords alike: it
leaves blank texts out and trims the others. What the user typed as a password is what is
used when trimming changes nothing.
-/

namespace Zicade.Ui

open Zicade.Foundation Zicade.Schema Zicade.Control

/-! ## Blank and padded texts -/

/-- There is nothing in the text but whitespace. -/
def Blank (text : Text) : Prop := ∀ c ∈ text, isWhitespace c = true

/-- No whitespace stands first or last. -/
def Unpadded (text : Text) : Prop :=
  (∀ c, text.head? = some c → isWhitespace c = false) ∧
    ∀ c, text.getLast? = some c → isWhitespace c = false

theorem trim_eq_nil_iff (text : Text) : trim text = [] ↔ Blank text := by
  constructor
  · intro hnil c hc
    obtain ⟨before, after, htext, hbefore, hafter⟩ := eq_append_trim_append text
    rw [hnil, List.append_nil] at htext
    rcases List.mem_append.mp (htext ▸ hc) with hmem | hmem
    · exact hbefore c hmem
    · exact hafter c hmem
  · intro hblank
    have hnil := trim_append_left [] hblank
    rwa [List.append_nil] at hnil

theorem length_trim_le (text : Text) : (trim text).length ≤ text.length := by
  obtain ⟨before, after, htext, -, -⟩ := eq_append_trim_append text
  have hlength := congrArg List.length htext
  simp only [List.length_append] at hlength
  omega

/-- Whitespace at an end is what trimming takes away. -/
theorem trim_eq_self_iff (text : Text) : trim text = text ↔ Unpadded text := by
  constructor
  · intro htrim
    constructor
    · intro c hc
      obtain ⟨rest, rfl⟩ := List.head?_eq_some_iff.mp hc
      by_contra hspace
      rw [trim_cons_whitespace rest (by simpa using hspace)] at htrim
      have hle := length_trim_le rest
      rw [htrim, List.length_cons] at hle
      omega
    · intro c hc
      obtain ⟨front, rfl⟩ := List.getLast?_eq_some_iff.mp hc
      by_contra hspace
      rw [trim_append_right front (by simpa using hspace)] at htrim
      have hle := length_trim_le front
      rw [htrim, List.length_append, List.length_singleton] at hle
      omega
  · rintro ⟨hhead, hlast⟩
    exact trim_eq_self hhead hlast

theorem nonBlank_eq_none_iff (text : Text) : nonBlank text = none ↔ Blank text := by
  rw [← trim_eq_nil_iff, nonBlank]
  by_cases hempty : trim text = []
  · simp [hempty]
  · simp [hempty]

theorem nonBlank_of_not_blank {text : Text} (htyped : ¬Blank text) :
    nonBlank text = some (trim text) := by
  rw [← trim_eq_nil_iff] at htyped
  rw [nonBlank, if_neg (by simpa using htyped)]

/-! ## The slot of a form -/

/-- The auth fields of a slot as the form holds them. -/
def Slot.typed (form : ConfigForm) : Slot → AuthForm
  | .upstream => form.upstreamAuth
  | .pac => form.pacAuth

variable {form : ConfigForm} {config : Config} {slot : Slot} {auth : AuthConfig}

/-- A slot that the form shows is read from its own fields. -/
theorem of_toConfig (hread : form.toConfig = .ok config) (hslot : slot.of config = some auth) :
    auth = (Slot.typed form slot).toAuth := by
  obtain ⟨port, -, hread⟩ := bind_eq_ok.mp hread
  obtain ⟨upstream, hupstream, hread⟩ := bind_eq_ok.mp hread
  obtain ⟨corpNetwork, -, hread⟩ := bind_eq_ok.mp hread
  obtain rfl := Except.ok.inj hread
  cases slot with
  | upstream =>
      obtain ⟨shown, hshown, rfl⟩ := Option.map_eq_some_iff.mp hslot
      obtain rfl : upstream = some shown := hshown
      rcases ConfigForm.upstreamSection_cases hupstream with ⟨-, read, hread, hsome⟩ | ⟨-, hnone⟩
      · obtain rfl := Option.some.inj hsome
        obtain ⟨port, -, hread⟩ := bind_eq_ok.mp hread
        obtain rfl := Except.ok.inj hread
        rfl
      · cases hnone
  | pac =>
      obtain ⟨pac, hpac, rfl⟩ := Option.map_eq_some_iff.mp hslot
      dsimp only at hpac
      split_ifs at hpac
      obtain rfl := Option.some.inj hpac
      rfl

/-! ## The password that is used -/

/-- What the user typed as the password of a slot is its password, as the form reads and
after every apply that succeeds, and only a blank text leaves the saved one. -/
structure UsesTyped (text : Text) (slot : Slot) (config : Config) : Prop where
  read : ¬Blank text → ∃ auth, slot.of config = some auth ∧ auth.password = some text
  applied : ¬Blank text → ∀ setup world outcome,
    (apply setup world config outcome).1 = .ok () →
      ∃ auth, slot.of (apply setup world config outcome).2.config = some auth ∧
        auth.password = some text
  kept : (∃ auth, slot.of config = some auth ∧ auth.password = none) ↔ Blank text

/-- A password that an edit gives is not looked up in the saved config. -/
theorem keptFrom_of_password {password : Text} (hpassword : auth.password = some password)
    (saved : Option AuthConfig) : auth.keptFrom saved = auth := by
  cases saved with
  | none => rfl
  | some old =>
      rw [AuthConfig.keptFrom, AuthConfig.keepPasswordFrom, if_neg]
      rintro ⟨hnone, -⟩
      rw [hnone] at hpassword
      cases hpassword

/-- So an apply that succeeds uses it as it is. -/
theorem password_of_apply {password : Text} {setup : Setup} {world : World}
    {outcome : WriteOutcome} (hslot : slot.of config = some auth)
    (hpassword : auth.password = some password)
    (hok : (apply setup world config outcome).1 = .ok ()) :
    slot.of (apply setup world config outcome).2.config = some auth := by
  obtain ⟨disk, hnext⟩ := apply_ok hok
  rw [hnext]
  dsimp only
  rw [Slot.of_keepSecretsFrom, hslot, Option.map_some, keptFrom_of_password hpassword]

/-- Passwords are trimmed, so the one that is used is the one that was typed when there is
no whitespace at its ends. -/
theorem usesTyped_iff (hread : form.toConfig = .ok config) (hslot : slot.of config = some auth) :
    UsesTyped (Slot.typed form slot).password slot config ↔
      Blank (Slot.typed form slot).password ∨ Unpadded (Slot.typed form slot).password := by
  have hauth : auth.password = nonBlank (Slot.typed form slot).password := by
    rw [of_toConfig hread hslot]
    rfl
  generalize (Slot.typed form slot).password = text at hauth ⊢
  constructor
  · intro huses
    by_contra hpadded
    obtain ⟨htyped, hpadded⟩ := not_or.mp hpadded
    obtain ⟨used, hused, hpassword⟩ := huses.read htyped
    obtain rfl := Option.some.inj (hslot.symm.trans hused)
    rw [hauth, nonBlank_of_not_blank htyped] at hpassword
    exact hpadded ((trim_eq_self_iff text).mp (Option.some.inj hpassword))
  · intro hclean
    have hpassword (htyped : ¬Blank text) : auth.password = some text := by
      rw [hauth, nonBlank_of_not_blank htyped,
        (trim_eq_self_iff text).mpr (hclean.resolve_left htyped)]
    refine ⟨fun htyped => ⟨auth, hslot, hpassword htyped⟩, ?_, ?_⟩
    · intro htyped setup world outcome hok
      exact ⟨auth, password_of_apply hslot (hpassword htyped) hok, hpassword htyped⟩
    · rw [← nonBlank_eq_none_iff, ← hauth, hslot]
      simp

/-- The form of a PAC config with this password typed. -/
def passwordForm (password : Text) : ConfigForm :=
  { ConfigForm.typedForm with pacAuth := { ConfigForm.typedForm.pacAuth with password } }

theorem usesTyped_iff_plain :
    UsesTyped "s3cret".toList .pac (ConfigForm.typedConfig (some "s3cret".toList)) ↔
      Blank "s3cret".toList ∨ Unpadded "s3cret".toList := by
  have hread : (passwordForm "s3cret".toList).toConfig =
      .ok (ConfigForm.typedConfig (some "s3cret".toList)) := by decide +kernel
  have hslot : Slot.pac.of (ConfigForm.typedConfig (some "s3cret".toList)) =
      some { mode := .basic, username := some "alice".toList,
             password := some "s3cret".toList } := rfl
  exact usesTyped_iff hread hslot

/-- A password that ends in a space is read without it. -/
theorem padded_password_trimmed :
    (passwordForm "s3cret ".toList).toConfig =
        .ok (ConfigForm.typedConfig (some "s3cret".toList)) ∧
      ¬UsesTyped "s3cret ".toList .pac (ConfigForm.typedConfig (some "s3cret".toList)) := by
  refine ⟨by decide +kernel, fun huses => ?_⟩
  have htyped : ¬Blank "s3cret ".toList := fun hblank =>
    absurd (hblank 's' (by decide)) (by decide)
  obtain ⟨auth, hauth, hpassword⟩ := huses.read htyped
  obtain rfl := Option.some.inj hauth
  exact absurd hpassword (by decide)

end Zicade.Ui
