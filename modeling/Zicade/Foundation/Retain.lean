import Mathlib.Data.List.Count

/-! # Filtering a list one entry at a time

`retain` looks at the entries of a list in order and drops those that fail a test.
The test may look at a world that changes meanwhile, so what it saw of each entry is
kept beside it, and the list is at any time what was retained and what is left.
-/

namespace Zicade.Foundation

variable {α β : Type*} (keep : α → β → Bool)

/-- What is retained of the entries looked at, each with what was seen of it. -/
def retained (seen : List (α × β)) : List α :=
  (seen.filter fun pair => keep pair.1 pair.2).map Prod.fst

@[simp] theorem retained_nil : retained keep ([] : List (α × β)) = [] := rfl

theorem retained_concat (seen : List (α × β)) (entry : α) (saw : β) :
    retained keep (seen ++ [(entry, saw)]) =
      retained keep seen ++ if keep entry saw then [entry] else [] := by
  rw [retained, List.filter_append, List.map_append, ← retained]
  cases hkeep : keep entry saw <;> simp [hkeep]

/-- Looking at one more entry drops it or leaves the list as it was. -/
theorem retained_concat_sublist (seen : List (α × β)) (entry : α) (saw : β) (rest : List α) :
    (retained keep (seen ++ [(entry, saw)]) ++ rest).Sublist
      (retained keep seen ++ entry :: rest) := by
  rw [retained_concat, List.append_assoc]
  refine (List.append_sublist_append_left _).mpr ?_
  split
  · exact List.Sublist.refl _
  · exact List.sublist_cons_self entry rest

/-- Every entry looked at was retained or failed the test. -/
theorem length_retained (seen : List (α × β)) :
    (retained keep seen).length + seen.countP (fun pair => !keep pair.1 pair.2) = seen.length := by
  rw [retained, List.length_map, ← List.countP_eq_length_filter,
    List.length_eq_countP_add_countP fun pair : α × β => keep pair.1 pair.2]
  simp

end Zicade.Foundation
