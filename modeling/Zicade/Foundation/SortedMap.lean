import Mathlib.Order.Lattice

/-! # Maps kept sorted by key

A map as the list of its entries in the order of their keys. Inserting replaces the entry
of the key or puts a new one in its place.
-/

namespace Zicade.Foundation

variable {κ ν : Type*} [LinearOrder κ]

def insertSorted (key : κ) (value : ν) : List (κ × ν) → List (κ × ν)
  | [] => [(key, value)]
  | first :: rest =>
      if key < first.1 then (key, value) :: first :: rest
      else if key = first.1 then (key, value) :: rest
      else first :: insertSorted key value rest

/-- The entries are in the order of their keys, each key once. -/
abbrev SortedByKey (entries : List (κ × ν)) : Prop :=
  entries.Pairwise fun first second => first.1 < second.1

variable {key other : κ} {value : ν} {entries : List (κ × ν)}

theorem mem_insertSorted {entry : κ × ν} (hmem : entry ∈ insertSorted key value entries) :
    entry.1 = key ∨ entry ∈ entries := by
  induction entries with
  | nil => exact .inl (List.mem_singleton.mp hmem ▸ rfl)
  | cons first rest ih =>
      rw [insertSorted] at hmem
      split at hmem
      next =>
        rcases List.mem_cons.mp hmem with rfl | hold
        · exact .inl rfl
        · exact .inr hold
      next =>
        split at hmem
        next =>
          rcases List.mem_cons.mp hmem with rfl | hrest
          · exact .inl rfl
          · exact .inr (List.mem_cons_of_mem _ hrest)
        next =>
          rcases List.mem_cons.mp hmem with rfl | hrest
          · exact .inr List.mem_cons_self
          · exact (ih hrest).imp_right (List.mem_cons_of_mem _)

theorem sortedByKey_insertSorted (key : κ) (value : ν) (hsorted : SortedByKey entries) :
    SortedByKey (insertSorted key value entries) := by
  induction entries with
  | nil => exact List.pairwise_singleton _ _
  | cons first rest ih =>
      obtain ⟨hfirst, hrest⟩ := List.pairwise_cons.mp hsorted
      rw [insertSorted]
      split
      next hbefore =>
        refine List.pairwise_cons.mpr ⟨fun entry hmem => ?_, hsorted⟩
        rcases List.mem_cons.mp hmem with rfl | hlater
        · exact hbefore
        · exact hbefore.trans (hfirst entry hlater)
      next hnotBefore =>
        split
        next hsame => exact List.pairwise_cons.mpr ⟨hsame ▸ hfirst, hrest⟩
        next hdiffers =>
          have hafter : first.1 < key := lt_of_le_of_ne (not_lt.mp hnotBefore) (Ne.symm hdiffers)
          refine List.pairwise_cons.mpr ⟨fun entry hmem => ?_, ih hrest⟩
          rcases mem_insertSorted hmem with hnew | hold
          · exact hnew ▸ hafter
          · exact hfirst entry hold

section Lookup

variable [BEq κ] [LawfulBEq κ]

@[simp] theorem lookup_insertSorted (key : κ) (value : ν) (entries : List (κ × ν)) :
    (insertSorted key value entries).lookup key = some value := by
  induction entries with
  | nil => exact List.lookup_cons_self
  | cons first rest ih =>
      rw [insertSorted]
      split
      next => exact List.lookup_cons_self
      next =>
        split
        next => exact List.lookup_cons_self
        next hdiffers => rw [List.lookup_cons, beq_false_of_ne hdiffers, ih]

/-- The other keys are left as they are. -/
theorem lookup_insertSorted_of_ne (hother : other ≠ key) (value : ν) (entries : List (κ × ν)) :
    (insertSorted key value entries).lookup other = entries.lookup other := by
  induction entries with
  | nil => rw [insertSorted, List.lookup_cons, beq_false_of_ne hother]
  | cons first rest ih =>
      rw [insertSorted]
      split
      next => rw [List.lookup_cons, beq_false_of_ne hother]
      next =>
        split
        next hsame =>
          rw [List.lookup_cons, beq_false_of_ne hother, List.lookup_cons,
            beq_false_of_ne (hsame ▸ hother)]
        next => rw [List.lookup_cons, List.lookup_cons, ih]

end Lookup

end Zicade.Foundation
