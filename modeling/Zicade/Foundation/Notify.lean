import Mathlib.Data.List.Basic

/-! # Wake-ups that are not lost

A cell that wakes a waiter, or keeps the wake-up for the next one. Waiters go by
number. A wake-up is pending from the call that sends it until a waiter's look at the
cell completes.
-/

namespace Zicade.Foundation

/-- `Notify`: `poll` and `cancel` are a look at, and the end of, a waiter's
`notified()`. -/
class Notify (ν : Type*) where
  new : ν
  notifyOne : ν → ν
  poll : ν → Nat → Bool × ν
  cancel : ν → Nat → ν
  /-- A permit is stored, or a waiter was woken that has not looked yet. -/
  pending : ν → Bool

/-- What the documentation promises of a wake-up. -/
class LawfulNotify (ν : Type*) [Notify ν] : Prop where
  /-- `notify_one` wakes a waiter or stores a permit. -/
  pending_notifyOne : ∀ cell : ν, Notify.pending (Notify.notifyOne cell) = true
  /-- A look that does not complete consumes nothing. -/
  pending_poll : ∀ (cell : ν) (waiter : Nat), (Notify.poll cell waiter).1 = false →
    Notify.pending (Notify.poll cell waiter).2 = Notify.pending cell

/-- One permit at most, the waiters in the order they came, and those woken. -/
structure NotifyCell where
  permit : Bool := false
  waiting : List Nat := []
  woken : List Nat := []
  deriving DecidableEq, Repr

namespace NotifyCell

def notifyOne (cell : NotifyCell) : NotifyCell :=
  match cell.waiting with
  | [] => { cell with permit := true }
  | waiter :: rest => { cell with waiting := rest, woken := cell.woken ++ [waiter] }

def poll (cell : NotifyCell) (waiter : Nat) : Bool × NotifyCell :=
  if waiter ∈ cell.woken then (true, { cell with woken := cell.woken.erase waiter })
  else if waiter ∈ cell.waiting then (false, cell)
  else if cell.permit then (true, { cell with permit := false })
  else (false, { cell with waiting := cell.waiting ++ [waiter] })

/-- A wake-up that its waiter did not look at is passed on. -/
def cancel (cell : NotifyCell) (waiter : Nat) : NotifyCell :=
  if waiter ∈ cell.woken then notifyOne { cell with woken := cell.woken.erase waiter }
  else { cell with waiting := cell.waiting.erase waiter }

instance : Notify NotifyCell where
  new := {}
  notifyOne := notifyOne
  poll := poll
  cancel := cancel
  pending cell := cell.permit || !cell.woken.isEmpty

instance : LawfulNotify NotifyCell where
  pending_notifyOne cell := by
    change ((notifyOne cell).permit || !(notifyOne cell).woken.isEmpty) = true
    unfold notifyOne
    split <;> simp
  pending_poll cell waiter hlook := by
    change (poll cell waiter).1 = false at hlook
    change ((poll cell waiter).2.permit || !(poll cell waiter).2.woken.isEmpty) =
      (cell.permit || !cell.woken.isEmpty)
    unfold poll at hlook ⊢
    split at hlook
    next => cases hlook
    next hwoken =>
      rw [if_neg hwoken]
      split at hlook
      next hwaiting => rw [if_pos hwaiting]
      next hwaiting =>
        rw [if_neg hwaiting]
        split at hlook
        next => cases hlook
        next hpermit => rw [if_neg hpermit]

end NotifyCell

end Zicade.Foundation
