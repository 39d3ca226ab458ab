import Zicade.Netmon.OnCorp

/-! # Suffix matching on labels

The decision compares texts, and what it decides is about labels: some configured name is
the end of some active name, label by label. So more entries only turn it on, and the
order, the number and the case of the entries do not matter.
-/

namespace Zicade.Netmon

open Zicade.Foundation

/-! ## Case -/

/-- Trimming does not see case. -/
theorem trimDots_toAsciiLowercase (t : Text) :
    trimDots (toAsciiLowercase t) = toAsciiLowercase (trimDots t) := by
  have hdot (c : Char) : (c.toLower == '.') = (c == '.') :=
    apply_toLower (p := (· == '.')) (by decide) c
  rw [trimDots, dropWhile_toAsciiLowercase hdot, rdropWhile_toAsciiLowercase hdot, trimDots]

/-! ## Names and labels -/

/-- The name that an entry stands for. -/
def nameOf (entry : Text) : Text := toAsciiLowercase (trimDots (trim entry))

/-- The labels of a name, which dots separate. -/
def labels (name : Text) : List Text := name.splitOn '.'

theorem normalize_eq_some_iff (entry name : Text) :
    normalize entry = some name ↔ nameOf entry = name ∧ name ≠ [] := by
  rw [normalize, ← nameOf]
  by_cases hempty : nameOf entry = []
  · rw [if_pos (List.isEmpty_iff.mpr hempty), hempty]
    exact ⟨nofun, fun ⟨hname, hne⟩ => absurd hname.symm hne⟩
  · rw [if_neg (by simpa using hempty), Option.some.injEq]
    exact ⟨fun hname => ⟨hname, hname ▸ hempty⟩, And.left⟩

theorem suffixMatches_iff (active suffix : Text) :
    suffixMatches active suffix = true ↔ labels suffix <:+ labels active := by
  rw [labels, labels, splitOn_isSuffix_iff, suffixMatches, Bool.or_eq_true, beq_iff_eq,
    List.isSuffixOf_iff_suffix]

/-- The configured entry stands for a name at the end of the name of the active one. -/
structure Indicates (active configured : Text) : Prop where
  active_nonempty : nameOf active ≠ []
  configured_nonempty : nameOf configured ≠ []
  suffix : labels (nameOf configured) <:+ labels (nameOf active)

theorem onCorp_iff (active configured : List Text) :
    onCorp active configured = true ↔ ∃ a ∈ active, ∃ c ∈ configured, Indicates a c := by
  simp only [onCorp, Bool.and_eq_true, List.any_eq_true, List.mem_filterMap, normalize_eq_some_iff,
    suffixMatches_iff]
  constructor
  · rintro ⟨-, _, ⟨a, ha, rfl, hane⟩, _, ⟨c, hc, rfl, hcne⟩, hsuffix⟩
    exact ⟨a, ha, c, hc, hane, hcne, hsuffix⟩
  · rintro ⟨a, ha, c, hc, hane, hcne, hsuffix⟩
    have hwanted : nameOf c ∈ configured.filterMap normalize :=
      List.mem_filterMap.mpr ⟨c, hc, (normalize_eq_some_iff c _).mpr ⟨rfl, hcne⟩⟩
    refine ⟨?_, _, ⟨a, ha, rfl, hane⟩, _, ⟨c, hc, rfl, hcne⟩, hsuffix⟩
    simpa using List.ne_nil_of_mem hwanted

/-! ## What does not matter -/

/-- Entries that differ in ASCII case stand for one name. -/
theorem nameOf_eq {entry other : Text} (hsame : toAsciiLowercase entry = toAsciiLowercase other) :
    nameOf entry = nameOf other := by
  rw [nameOf, ← trimDots_toAsciiLowercase, ← trim_toAsciiLowercase, hsame, trim_toAsciiLowercase,
    trimDots_toAsciiLowercase, nameOf]

/-- Up to ASCII case, every entry of the one list is in the other. -/
def CoveredBy (entries others : List Text) : Prop :=
  ∀ entry ∈ entries, ∃ other ∈ others, toAsciiLowercase entry = toAsciiLowercase other

theorem coveredBy_of_subset {entries others : List Text} (hsubset : entries ⊆ others) :
    CoveredBy entries others := fun entry hentry => ⟨entry, hsubset hentry, rfl⟩

/-- The lists have the same members up to ASCII case. -/
structure SameEntries (entries others : List Text) : Prop where
  covered : CoveredBy entries others
  covers : CoveredBy others entries

variable {active active' configured configured' : List Text}

/-- More entries only turn the decision on. -/
theorem onCorp_of_covered (hactive : CoveredBy active active')
    (hconfigured : CoveredBy configured configured') (hon : onCorp active configured = true) :
    onCorp active' configured' = true := by
  obtain ⟨a, ha, c, hc, hane, hcne, hsuffix⟩ := (onCorp_iff active configured).mp hon
  obtain ⟨a', ha', hsame⟩ := hactive a ha
  obtain ⟨c', hc', hsame'⟩ := hconfigured c hc
  rw [nameOf_eq hsame] at hane hsuffix
  rw [nameOf_eq hsame'] at hcne hsuffix
  exact (onCorp_iff active' configured').mpr ⟨a', ha', c', hc', hane, hcne, hsuffix⟩

/-- Being on the corporate network is a matter of labels: some configured name is the end of
some active one. So more entries only turn it on, and entries with the same members up to
ASCII case, in whatever order and number, decide it alike. -/
theorem onCorp_labels (active configured : List Text) :
    (onCorp active configured = true ↔ ∃ a ∈ active, ∃ c ∈ configured, Indicates a c) ∧
      (∀ active' configured', active ⊆ active' → configured ⊆ configured' →
        onCorp active configured = true → onCorp active' configured' = true) ∧
      ∀ active' configured', SameEntries active active' → SameEntries configured configured' →
        onCorp active configured = onCorp active' configured' := by
  refine ⟨onCorp_iff active configured, ?_, ?_⟩
  · intro active' configured' hactive hconfigured
    exact onCorp_of_covered (coveredBy_of_subset hactive) (coveredBy_of_subset hconfigured)
  · rintro active' configured' ⟨hactive, hactive'⟩ ⟨hconfigured, hconfigured'⟩
    exact Bool.eq_iff_iff.mpr ⟨onCorp_of_covered hactive hconfigured,
      onCorp_of_covered hactive' hconfigured'⟩

end Zicade.Netmon
