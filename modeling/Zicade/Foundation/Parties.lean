import Mathlib.Algebra.BigOperators.Group.List.Basic
import Mathlib.Algebra.GroupWithZero.Nat

/-! # Parties that move one at a time

A system is a list of parties, and a step replaces one of them. A property of
each party is kept once the party that moved has it, and a count over all of
them changes by what that party contributes.
-/

namespace Zicade.Foundation

variable {α : Type*} {parties : List α} {i : Nat} {before after : α}

/-- What holds of every party holds after one of them moved. -/
theorem forall_mem_set {P : α → Prop} (hall : ∀ party ∈ parties, P party) (hafter : P after) :
    ∀ party ∈ parties.set i after, P party := by
  intro party hmem
  rcases List.mem_or_eq_of_mem_set hmem with hold | rfl
  · exact hall party hold
  · exact hafter

/-- A party that did not move is as it was. -/
theorem getElem?_set_cases {j : Nat} {party : α}
    (hget : (parties.set i after)[j]? = some party) :
    (j = i ∧ party = after) ∨ (j ≠ i ∧ parties[j]? = some party) := by
  rw [List.getElem?_set] at hget
  split at hget
  next heq =>
    split at hget
    next => exact .inl ⟨heq.symm, (Option.some.inj hget).symm⟩
    next => cases hget
  next hne => exact .inr ⟨Ne.symm hne, hget⟩

/-- A party other than the one that moved is where it was. -/
theorem getElem?_set_of_ne {j : Nat} {party : α} (hget : parties[i]? = some before)
    (hne : party ≠ before) (hother : parties[j]? = some party) :
    (parties.set i after)[j]? = some party := by
  rw [List.getElem?_set_ne, hother]
  rintro rfl
  exact hne (Option.some.inj (hother.symm.trans hget))

/-- A total over the parties changes by what the moved party contributes. -/
theorem sum_map_set (contribution : α → Nat) (hget : parties[i]? = some before) (after : α) :
    ((parties.set i after).map contribution).sum + contribution before =
      (parties.map contribution).sum + contribution after := by
  induction parties generalizing i with
  | nil => cases hget
  | cons party rest ih =>
      cases i with
      | zero =>
          obtain rfl : party = before := Option.some.inj hget
          simp only [List.set_cons_zero, List.map_cons, List.sum_cons]
          omega
      | succ i =>
          have hrest := ih (i := i) hget
          simp only [List.set_cons_succ, List.map_cons, List.sum_cons]
          omega

/-- The number of parties with a property, as a total. -/
theorem countP_eq_sum (p : α → Bool) (l : List α) :
    l.countP p = (l.map fun party => (p party).toNat).sum := by
  induction l with
  | nil => rfl
  | cons party rest ih =>
      rw [List.countP_cons, List.map_cons, List.sum_cons, ih, Nat.add_comm]
      cases p party <;> rfl

theorem countP_set (p : α → Bool) (hget : parties[i]? = some before) (after : α) :
    (parties.set i after).countP p + (p before).toNat =
      parties.countP p + (p after).toNat := by
  rw [countP_eq_sum, countP_eq_sum]
  exact sum_map_set _ hget after

/-- A list around one of its positions, and what becomes of it there. -/
theorem exists_split (hget : parties[i]? = some before) :
    ∃ front back, parties = front ++ before :: back ∧
      parties.eraseIdx i = front ++ back ∧
      ∀ after, parties.set i after = front ++ after :: back := by
  induction parties generalizing i with
  | nil => cases hget
  | cons party rest ih =>
      cases i with
      | zero =>
          obtain rfl : party = before := Option.some.inj hget
          exact ⟨[], rest, rfl, rfl, fun _ => rfl⟩
      | succ i =>
          obtain ⟨front, back, hrest, herase, hset⟩ := ih (i := i) hget
          refine ⟨party :: front, back, by rw [hrest, List.cons_append], ?_, fun after => ?_⟩
          · rw [List.eraseIdx_cons_succ, herase, List.cons_append]
          · rw [List.set_cons_succ, hset, List.cons_append]

theorem sum_map_eraseIdx (contribution : α → Nat) (hget : parties[i]? = some before) :
    ((parties.eraseIdx i).map contribution).sum + contribution before =
      (parties.map contribution).sum := by
  obtain ⟨front, back, hparties, herase, -⟩ := exists_split hget
  rw [herase, hparties]
  simp only [List.map_append, List.map_cons, List.sum_append, List.sum_cons]
  omega

/-- Whether the party at a position has a property, after one of them moved. -/
theorem any_getElem?_set (p : α → Bool) (hget : parties[i]? = some before) (j : Nat) :
    ((parties.set i after)[j]?).any p = if i = j then p after else (parties[j]?).any p := by
  rw [List.getElem?_set]
  split
  next heq =>
    have hlt : i < parties.length := (List.getElem?_eq_some_iff.mp hget).1
    rw [if_pos hlt, Option.any_some]
  next => rfl

end Zicade.Foundation
