import Zicade.Foundation.Text
import Mathlib.Data.List.Infix
import Mathlib.Data.Nat.Find

/-! # Globs

A glob is a list in which one symbol stands for any run of symbols. Between its stars a glob
has pieces, and a list matches when the pieces occur in it one after another. Where a piece
occurs at all, taking its first occurrence leaves the most for the pieces after it.
-/

namespace Zicade.Foundation

variable {α : Type*}

/-- The list is the pattern with a run of symbols for each star. -/
inductive Glob (star : α) : List α → List α → Prop
  | nil : Glob star [] []
  | literal {c : α} {pattern text : List α} :
      c ≠ star → Glob star pattern text → Glob star (c :: pattern) (c :: text)
  | run {pattern text : List α} (run : List α) :
      Glob star pattern text → Glob star (star :: pattern) (run ++ text)

/-- The pattern with each star replaced by the next run. -/
def fill [DecidableEq α] (star : α) : List α → List (List α) → List α
  | [], _ => []
  | c :: pattern, runs =>
      if c = star then runs.headD [] ++ fill star pattern runs.tail
      else c :: fill star pattern runs

/-- The pieces occur one after another, with a run before each; the last one at the end. -/
inductive Spread : List (List α) → List α → Prop
  | last (run piece : List α) : Spread [piece] (run ++ piece)
  | next {pieces : List (List α)} {text : List α} (run piece : List α) :
      Spread pieces text → Spread (piece :: pieces) (run ++ (piece ++ text))

/-- A list matches when the stars of the pattern can be replaced to give it. -/
theorem glob_iff_fill [DecidableEq α] {star : α} {pattern text : List α} :
    Glob star pattern text ↔
      ∃ runs, runs.length = pattern.count star ∧ fill star pattern runs = text := by
  constructor
  · intro hglob
    induction hglob with
    | nil => exact ⟨[], rfl, rfl⟩
    | literal hc _ ih =>
        obtain ⟨runs, hlength, rfl⟩ := ih
        exact ⟨runs, by rw [List.count_cons_of_ne hc, hlength], if_neg hc⟩
    | run run _ ih =>
        obtain ⟨runs, hlength, rfl⟩ := ih
        exact ⟨run :: runs, by rw [List.count_cons_self, List.length_cons, hlength], if_pos rfl⟩
  · rintro ⟨runs, -, rfl⟩
    induction pattern generalizing runs with
    | nil => exact .nil
    | cons c pattern ih =>
        rw [fill]
        split
        next hc =>
          subst hc
          exact .run _ (ih _)
        next hc => exact .literal hc (ih _)

/-! ## The first occurrence -/

/-- What stands after the first occurrence of a piece. -/
def afterFirst [BEq α] (piece text : List α) : Option (List α) :=
  (text.dropInfix? piece).map Prod.snd

theorem afterFirst_nil [BEq α] (text : List α) : afterFirst [] text = some text := by
  rw [afterFirst, List.dropInfix?_nil]
  rfl

section

variable [BEq α] [LawfulBEq α] {piece text best : List α}

theorem eq_of_afterFirst (hbest : afterFirst piece text = some best) :
    ∃ run, text = run ++ (piece ++ best) := by
  obtain ⟨⟨run, after⟩, hfound, hafter⟩ := Option.map_eq_some_iff.mp hbest
  obtain rfl : after = best := hafter
  obtain ⟨⟨piece', htext, heq⟩, -⟩ := List.dropInfix?_eq_some_iff.mp hfound
  obtain rfl := eq_of_beq heq
  exact ⟨run, by rw [htext, List.append_assoc]⟩

/-- What stands after any occurrence is the end of what stands after the first. -/
theorem suffix_of_afterFirst (hbest : afterFirst piece text = some best) {run rest : List α}
    (htext : text = run ++ (piece ++ rest)) : rest <:+ best := by
  obtain ⟨⟨first, after⟩, hfound, hafter⟩ := Option.map_eq_some_iff.mp hbest
  obtain rfl : after = best := hafter
  obtain ⟨⟨piece', hfirst, heq⟩, hshortest⟩ := List.dropInfix?_eq_some_iff.mp hfound
  obtain rfl := eq_of_beq heq
  have hlength := hshortest run piece' rest (by rw [htext, List.append_assoc]) (beq_self_eq_true _)
  rw [hfirst, List.append_assoc] at htext
  have hrest : rest <:+ first ++ (piece' ++ after) :=
    htext ▸ (List.suffix_append piece' rest).trans (List.suffix_append run _)
  have hafter : after <:+ first ++ (piece' ++ after) :=
    (List.suffix_append piece' after).trans (List.suffix_append first _)
  refine List.suffix_of_suffix_length_le hrest hafter ?_
  have hsame := congrArg List.length htext
  simp only [List.length_append] at hsame
  omega

theorem exists_afterFirst (run piece rest : List α) :
    ∃ best, afterFirst piece (run ++ (piece ++ rest)) = some best := by
  classical
  have hoccurs : ∃ n, ∃ run' rest', run ++ (piece ++ rest) = run' ++ (piece ++ rest') ∧
      run'.length = n := ⟨_, run, rest, rfl, rfl⟩
  obtain ⟨first, best, hfirst, hlength⟩ := Nat.find_spec hoccurs
  refine ⟨best, Option.map_eq_some_iff.mpr ⟨(first, best), ?_, rfl⟩⟩
  refine List.dropInfix?_eq_some_iff.mpr
    ⟨⟨piece, by rw [hfirst, List.append_assoc], beq_self_eq_true _⟩, ?_⟩
  intro run' piece' rest' htext' heq
  obtain rfl := eq_of_beq heq
  rw [hlength]
  exact Nat.find_min' hoccurs ⟨run', rest', by rw [htext', List.append_assoc], rfl⟩

/-- Up to the first symbol of a piece nothing can be its occurrence. -/
theorem afterFirst_append {a : α} {front : List α} (hfront : a ∉ front) (piece rest : List α) :
    afterFirst (a :: piece) (front ++ (a :: piece ++ rest)) = some rest := by
  obtain ⟨best, hbest⟩ := exists_afterFirst front (a :: piece) rest
  obtain ⟨run, htext⟩ := eq_of_afterFirst hbest
  rw [hbest, Option.some.injEq]
  have hle : best.length ≤ rest.length := by
    rcases List.append_eq_append_iff.mp htext with ⟨_, rfl, hrest⟩ | ⟨between, rfl, hrest⟩
    · have hlength := congrArg List.length hrest
      simp only [List.length_append, List.length_cons] at hlength
      omega
    · -- the occurrence would begin inside the front
      cases between with
      | nil =>
          have hlength := congrArg List.length hrest
          simp only [List.length_append, List.length_cons, List.length_nil] at hlength
          omega
      | cons b between =>
          obtain ⟨rfl, -⟩ := List.cons.inj hrest
          exact absurd (List.mem_append_right _ List.mem_cons_self) hfront
  exact ((suffix_of_afterFirst hbest rfl).eq_of_length_le hle).symm

end

/-! ## Pieces in order -/

/-- A run in front is taken by the run before the first piece. -/
theorem Spread.append_left {pieces : List (List α)} {text : List α} (hspread : Spread pieces text)
    (front : List α) : Spread pieces (front ++ text) := by
  cases hspread with
  | last run piece =>
      rw [← List.append_assoc]
      exact .last (front ++ run) piece
  | next run piece hrest =>
      rw [← List.append_assoc]
      exact .next (front ++ run) piece hrest

theorem spread_singleton_iff {piece text : List α} : Spread [piece] text ↔ piece <:+ text := by
  constructor
  · intro hspread
    cases hspread with
    | last run => exact List.suffix_append run piece
    | next _ _ hrest => cases hrest
  · rintro ⟨run, rfl⟩
    exact .last run piece

/-- The first occurrence of a piece loses no match for the pieces after it. -/
theorem spread_cons_iff [BEq α] [LawfulBEq α] {piece text : List α} {pieces : List (List α)}
    (hne : pieces ≠ []) :
    Spread (piece :: pieces) text ↔ ∃ best, afterFirst piece text = some best ∧
      Spread pieces best := by
  constructor
  · intro hspread
    cases hspread with
    | last => exact absurd rfl hne
    | next run _ hrest =>
        obtain ⟨best, hbest⟩ := exists_afterFirst run piece _
        obtain ⟨front, rfl⟩ := suffix_of_afterFirst hbest rfl
        exact ⟨_, hbest, hrest.append_left front⟩
  · rintro ⟨best, hbest, hrest⟩
    obtain ⟨run, rfl⟩ := eq_of_afterFirst hbest
    exact .next run piece hrest

/-! ## Globs by their pieces -/

section

variable {star : α} {pattern text : List α}

theorem glob_append_iff {front : List α} (hfront : star ∉ front) :
    Glob star (front ++ pattern) text ↔ ∃ rest, text = front ++ rest ∧ Glob star pattern rest := by
  induction front generalizing text with
  | nil => exact ⟨fun hglob => ⟨text, rfl, hglob⟩, fun ⟨_, htext, hglob⟩ => htext ▸ hglob⟩
  | cons c front ih =>
      have hc : c ≠ star := fun heq => hfront (heq ▸ List.mem_cons_self)
      have hrest : star ∉ front := fun hmem => hfront (List.mem_cons_of_mem c hmem)
      constructor
      · intro hglob
        cases hglob with
        | literal _ hglob =>
            obtain ⟨rest, rfl, htail⟩ := (ih hrest).mp hglob
            exact ⟨rest, rfl, htail⟩
        | run => exact absurd rfl hc
      · rintro ⟨rest, rfl, hglob⟩
        exact .literal hc ((ih hrest).mpr ⟨rest, rfl, hglob⟩)

theorem glob_self_iff (hliteral : star ∉ pattern) : Glob star pattern text ↔ pattern = text := by
  have hglob : Glob star (pattern ++ []) text ↔
      ∃ rest, text = pattern ++ rest ∧ Glob star [] rest := glob_append_iff hliteral
  rw [List.append_nil] at hglob
  rw [hglob]
  constructor
  · rintro ⟨_, rfl, hnil⟩
    cases hnil
    rw [List.append_nil]
  · rintro rfl
    exact ⟨[], (List.append_nil _).symm, .nil⟩

theorem glob_star_iff :
    Glob star (star :: pattern) text ↔ ∃ run rest, text = run ++ rest ∧ Glob star pattern rest := by
  constructor
  · intro hglob
    cases hglob with
    | literal hne => exact absurd rfl hne
    | run run hrest => exact ⟨run, _, rfl, hrest⟩
  · rintro ⟨run, rest, rfl, hglob⟩
    exact .run run hglob

/-- After a star, a glob is its pieces in order. -/
theorem glob_star_pieces_iff {pieces : List (List α)} (hne : pieces ≠ [])
    (hliteral : ∀ piece ∈ pieces, star ∉ piece) :
    Glob star (star :: [star].intercalate pieces) text ↔ Spread pieces text := by
  induction pieces generalizing text with
  | nil => exact absurd rfl hne
  | cons piece others ih =>
      have hpiece : star ∉ piece := hliteral piece List.mem_cons_self
      rw [glob_star_iff]
      cases others with
      | nil =>
          rw [List.intercalate_singleton, spread_singleton_iff]
          constructor
          · rintro ⟨run, rest, rfl, hglob⟩
            rw [(glob_self_iff hpiece).mp hglob]
            exact List.suffix_append run rest
          · rintro ⟨run, rfl⟩
            exact ⟨run, piece, rfl, (glob_self_iff hpiece).mpr rfl⟩
      | cons second more =>
          have hothers : ∀ piece ∈ second :: more, star ∉ piece :=
            fun piece hmem => hliteral piece (List.mem_cons_of_mem _ hmem)
          have hne : second :: more ≠ [] := List.cons_ne_nil second more
          rw [List.intercalate_cons_cons, List.append_assoc, List.singleton_append]
          constructor
          · rintro ⟨run, rest, rfl, hglob⟩
            obtain ⟨after, rfl, htail⟩ := (glob_append_iff hpiece).mp hglob
            exact .next run piece ((ih hne hothers).mp htail)
          · intro hspread
            cases hspread with
            | next run _ hrest =>
                have htail := (ih hne hothers).mpr hrest
                exact ⟨run, _, rfl, (glob_append_iff hpiece).mpr ⟨_, rfl, htail⟩⟩

end

end Zicade.Foundation
