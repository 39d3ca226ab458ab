import Mathlib.Data.List.Range
import Mathlib.Data.List.Perm.Basic

/-! # What was acquired and has to be released

A ledger numbers the resources of one kind as they are acquired and lists those that were
released. It owes a list of them if they are exactly the ones still out: everything acquired
is in that list or was released, once and not both.
-/

namespace Zicade.Foundation

structure Ledger where
  acquired : Nat := 0
  released : List Nat := []
  deriving DecidableEq, Repr

namespace Ledger

def acquire (ledger : Ledger) : Ledger := { ledger with acquired := ledger.acquired + 1 }

def release (ledger : Ledger) (id : Nat) : Ledger :=
  { ledger with released := ledger.released ++ [id] }

/-- The resource was acquired, and not released since. -/
def isOut (ledger : Ledger) (id : Nat) : Bool :=
  id < ledger.acquired && !ledger.released.contains id

def Owes (ledger : Ledger) (held : List Nat) : Prop :=
  (ledger.released ++ held).Perm (List.range ledger.acquired)

variable {ledger : Ledger} {held others : List Nat} {id : Nat}

theorem owes_new : ({} : Ledger).Owes [] := List.Perm.refl _

theorem Owes.perm (howes : ledger.Owes held) (hperm : others.Perm held) : ledger.Owes others :=
  (hperm.append_left ledger.released).trans howes

theorem Owes.acquire (howes : ledger.Owes held) :
    ledger.acquire.Owes (held ++ [ledger.acquired]) := by
  rw [Owes, Ledger.acquire, List.range_succ, ← List.append_assoc]
  exact howes.append_right _

/-- Whatever is held can be released, and is then held no longer. -/
theorem Owes.release (howes : ledger.Owes (id :: held)) : (ledger.release id).Owes held := by
  rw [Owes, Ledger.release, List.append_assoc]
  exact howes

theorem Owes.nodup (howes : ledger.Owes held) : (ledger.released ++ held).Nodup :=
  howes.nodup_iff.mpr List.nodup_range

/-- What is held is out. -/
theorem Owes.isOut (howes : ledger.Owes held) (hmem : id ∈ held) : ledger.isOut id = true := by
  have hrange : id ∈ List.range ledger.acquired :=
    howes.mem_iff.mp (List.mem_append_right _ hmem)
  have hreleased : id ∉ ledger.released := by
    intro hreleased
    exact (List.nodup_append.mp howes.nodup).2.2 id hreleased id hmem rfl
  simp [Ledger.isOut, List.mem_range.mp hrange, hreleased]

/-- A ledger that owes nothing has had everything released, once. -/
theorem Owes.released_perm (howes : ledger.Owes []) :
    ledger.released.Perm (List.range ledger.acquired) := by
  rwa [Owes, List.append_nil] at howes

end Ledger

end Zicade.Foundation
