import Mathlib.Data.List.DropRight
import Mathlib.Order.Lattice

/-! # Bounded tails and running records

A bounded buffer that loses its oldest entry when it is full holds the last of all the
entries it was given. A filter that keeps an entry only when its key is above every key so
far keeps the running records of what passes it.
-/

namespace Zicade.Foundation

variable {α κ : Type*}

section Tail

variable {n : Nat} {entries : List α}

/-- Append to a buffer; a full one loses its oldest entry. -/
def pushFull (capacity : Nat) (buffer : List α) (entry : α) : List α :=
  (if buffer.length = capacity then buffer.drop 1 else buffer) ++ [entry]

theorem length_rtake (n : Nat) (entries : List α) :
    (entries.rtake n).length = min n entries.length := by
  rw [List.rtake, List.length_drop]
  omega

theorem rtake_of_length_le (hlength : entries.length ≤ n) : entries.rtake n = entries := by
  rw [List.rtake, Nat.sub_eq_zero_of_le hlength, List.drop_zero]

theorem rtake_sublist (n : Nat) (entries : List α) : (entries.rtake n).Sublist entries :=
  List.drop_sublist _ _

/-- A bounded buffer holds the last entries it was given. -/
theorem pushFull_rtake (hpos : 0 < n) (entries : List α) (entry : α) :
    pushFull n (entries.rtake n) entry = (entries ++ [entry]).rtake n := by
  obtain ⟨m, rfl⟩ : ∃ m, n = m + 1 := ⟨n - 1, by omega⟩
  rw [List.rtake_concat_succ, pushFull, length_rtake]
  split
  next hfull =>
    rw [List.rtake, List.rtake, List.drop_drop]
    congr 2
    omega
  next hroom =>
    rw [rtake_of_length_le (by omega), rtake_of_length_le (by omega)]

/-- An entry that fewer than the capacity came after is still held. -/
theorem mem_rtake_of_split {before after : List α} {entry : α} (hafter : after.length < n) :
    entry ∈ (before ++ entry :: after).rtake n := by
  have hdrop : (before ++ entry :: after).length - n ≤ before.length := by
    rw [List.length_append, List.length_cons]
    omega
  rw [List.rtake, List.drop_append_of_le_length hdrop]
  exact List.mem_append_right _ List.mem_cons_self

end Tail

section Records

variable [LinearOrder κ] (key : α → κ)

/-- The highest key so far. -/
def peakKey (floor : κ) (entries : List α) : κ :=
  entries.foldl (fun peak entry => max peak (key entry)) floor

/-- The entries whose key is above the floor and above every key before theirs. -/
def records (floor : κ) : List α → List α
  | [] => []
  | entry :: rest =>
      if floor < key entry then entry :: records (key entry) rest else records floor rest

variable {key} {floor : κ} {entries : List α}

theorem peakKey_cons (floor : κ) (entry : α) (rest : List α) :
    peakKey key floor (entry :: rest) = peakKey key (max floor (key entry)) rest := rfl

theorem peakKey_concat (floor : κ) (entries : List α) (entry : α) :
    peakKey key floor (entries ++ [entry]) = max (peakKey key floor entries) (key entry) := by
  rw [peakKey, List.foldl_append, List.foldl_cons, List.foldl_nil, peakKey]

/-- The highest key is the floor or that of an entry. -/
theorem peakKey_lt {bound : κ} (hfloor : floor < bound)
    (hentries : ∀ entry ∈ entries, key entry < bound) : peakKey key floor entries < bound := by
  induction entries generalizing floor with
  | nil => exact hfloor
  | cons entry rest ih =>
      exact ih (max_lt hfloor (hentries entry List.mem_cons_self)) fun other hmem =>
        hentries other (List.mem_cons_of_mem _ hmem)

/-- The records of what comes later are those above the highest key so far. -/
theorem records_append (floor : κ) (before after : List α) :
    records key floor (before ++ after) =
      records key floor before ++ records key (peakKey key floor before) after := by
  induction before generalizing floor with
  | nil => rfl
  | cons entry rest ih =>
      rw [List.cons_append, records, records]
      split
      next habove => rw [ih, List.cons_append, peakKey_cons, max_eq_right habove.le]
      next hbelow => rw [ih, peakKey_cons, max_eq_left (not_lt.mp hbelow)]

theorem records_concat (floor : κ) (entries : List α) (entry : α) :
    records key floor (entries ++ [entry]) =
      if peakKey key floor entries < key entry then records key floor entries ++ [entry]
      else records key floor entries := by
  rw [records_append, records]
  split
  next => rfl
  next => exact List.append_nil _

theorem records_sublist (floor : κ) (entries : List α) :
    (records key floor entries).Sublist entries := by
  induction entries generalizing floor with
  | nil => exact List.Sublist.refl _
  | cons entry rest ih =>
      rw [records]
      split
      next => exact (ih _).cons_cons entry
      next => exact (ih floor).cons entry

theorem lt_of_mem_records {entry : α} (hmem : entry ∈ records key floor entries) :
    floor < key entry := by
  induction entries generalizing floor with
  | nil => cases hmem
  | cons first rest ih =>
      rw [records] at hmem
      split at hmem
      next habove =>
        rcases List.mem_cons.mp hmem with rfl | hrest
        · exact habove
        · exact habove.trans (ih hrest)
      next => exact ih hmem

/-- Records rise. -/
theorem records_pairwise (floor : κ) (entries : List α) :
    (records key floor entries).Pairwise fun first second => key first < key second := by
  induction entries generalizing floor with
  | nil => exact List.Pairwise.nil
  | cons entry rest ih =>
      rw [records]
      split
      next => exact List.pairwise_cons.mpr ⟨fun later hmem => lt_of_mem_records hmem, ih _⟩
      next => exact ih floor

/-- What is above all before it is a record, and the later records are those above it. -/
theorem records_split {before after : List α} {entry : α} (hfloor : floor < key entry)
    (habove : ∀ earlier ∈ before, key earlier < key entry) :
    records key floor (before ++ entry :: after) =
      records key floor before ++ entry :: records key (key entry) after := by
  rw [records_append, records, if_pos (peakKey_lt hfloor habove)]

end Records

end Zicade.Foundation
