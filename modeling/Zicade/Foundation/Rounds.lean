import Mathlib.Data.Nat.Init

/-! # Capped loops that spend a budget

A loop is given a cap on its rounds and the state it starts in. If every round either
ends the loop or goes on with less of some budget, then the budget bounds the loop,
and a cap above the budget is never reached.
-/

namespace Zicade.Foundation

variable {State Entry Result : Type*}

/-- Every round ends the loop with one entry at most, or adds one entry to what a
loop in a state of smaller budget gives; what is left of the cap plays no part. An
entry opens in the state its round started in. -/
def Spends (run : Nat → State → Result) (entries : Result → List Entry)
    (opens : State → Entry → Prop) (budget : State → Nat) : Prop :=
  ∀ state, (∃ result, (entries result).length ≤ 1 ∧ (∀ entry ∈ entries result, opens state entry) ∧
      ∀ left, run (left + 1) state = result) ∨
    ∃ (next : State) (entry : Entry) (extend : Result → Result),
      budget next < budget state ∧ opens state entry ∧
      (∀ result, entries (extend result) = entry :: entries result) ∧
      ∀ left, run (left + 1) state = extend (run left next)

variable {run : Nat → State → Result} {entries : Result → List Entry}
  {opens : State → Entry → Prop} {budget : State → Nat} {left : Nat} {state : State}

theorem Spends.length_le (hspends : Spends run entries opens budget)
    (hleft : budget state < left) : (entries (run left state)).length ≤ budget state + 1 := by
  induction left generalizing state with
  | zero => exact absurd hleft (Nat.not_lt_zero _)
  | succ left ih =>
      rcases hspends state with
        ⟨result, hlength, -, hends⟩ | ⟨next, entry, extend, hless, -, hentries, hgoes⟩
      · rw [hends left]
        omega
      · have hrest : (entries (run left next)).length ≤ budget next + 1 := ih (by omega)
        rw [hgoes left, hentries, List.length_cons]
        omega

/-- A loop that may go on for more rounds does not. -/
theorem Spends.add_cap (hspends : Spends run entries opens budget)
    (hleft : budget state < left) (more : Nat) : run (left + more) state = run left state := by
  induction left generalizing state with
  | zero => exact absurd hleft (Nat.not_lt_zero _)
  | succ left ih =>
      rw [Nat.add_right_comm]
      rcases hspends state with ⟨result, -, -, hends⟩ | ⟨next, entry, extend, hless, -, -, hgoes⟩
      · rw [hends, hends]
      · rw [hgoes, hgoes, ih (by omega)]

theorem Spends.head (hspends : Spends run entries opens budget) (hleft : budget state < left)
    {entry : Entry} {rest : List Entry} (hentries : entries (run left state) = entry :: rest) :
    opens state entry := by
  obtain ⟨left, rfl⟩ := Nat.exists_eq_add_of_lt hleft
  rcases hspends state with
    ⟨result, -, hopens, hends⟩ | ⟨next, first, extend, -, hopens, hcons, hgoes⟩
  · rw [hends] at hentries
    exact hopens entry (hentries ▸ List.mem_cons_self)
  · rw [hgoes, hcons] at hentries
    exact (List.cons.inj hentries).1 ▸ hopens

/-- Every round ends the loop with a good result, or goes on with less of the budget from
a state as safe, and keeps a good result good. -/
def EndsWell (run : Nat → State → Result) (safe : State → Prop) (good : Result → Prop)
    (budget : State → Nat) : Prop :=
  ∀ state, safe state → (∃ result, good result ∧ ∀ left, run (left + 1) state = result) ∨
    ∃ (next : State) (extend : Result → Result), budget next < budget state ∧ safe next ∧
      (∀ result, good result → good (extend result)) ∧
      ∀ left, run (left + 1) state = extend (run left next)

/-- Above the budget, the result is good: the cap itself never ends the loop. -/
theorem EndsWell.good {safe : State → Prop} {good : Result → Prop}
    (hends : EndsWell run safe good budget) (hsafe : safe state) (hleft : budget state < left) :
    good (run left state) := by
  induction left generalizing state with
  | zero => exact absurd hleft (Nat.not_lt_zero _)
  | succ left ih =>
      rcases hends state hsafe with
        ⟨result, hgood, hround⟩ | ⟨next, extend, hless, hnext, hextend, hround⟩
      · rw [hround]
        exact hgood
      · rw [hround]
        exact hextend _ (ih hnext (by omega))

end Zicade.Foundation
