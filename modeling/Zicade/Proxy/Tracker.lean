import Mathlib.Data.Nat.Basic

/-! # The tracked entry of a connection

Bytes are counted on the entry and on the proxy-wide totals as they are
relayed. A failure is counted once, however often it is reported.
-/

namespace Zicade.Proxy

/-- Where a connection is in its life. -/
inductive ConnectionState
  | connecting
  | open
  | closed
  | failed (reason : String)
  deriving DecidableEq, Repr

structure Entry where
  up : Nat
  down : Nat
  failed : Bool
  state : ConnectionState
  deriving DecidableEq, Repr

/-- The counters a tunnel moves. -/
structure Metrics where
  failedRequests : Nat
  bytesIn : Nat
  bytesOut : Nat
  deriving DecidableEq, Repr

structure Tracked where
  entry : Entry
  metrics : Metrics
  deriving DecidableEq, Repr

namespace Tracked

/-- Client to origin bytes, just relayed. -/
def addUp (tracked : Tracked) (n : Nat) : Tracked :=
  { entry := { tracked.entry with up := tracked.entry.up + n }
    metrics := { tracked.metrics with bytesOut := tracked.metrics.bytesOut + n } }

/-- Origin to client bytes, just relayed. -/
def addDown (tracked : Tracked) (n : Nat) : Tracked :=
  { entry := { tracked.entry with down := tracked.entry.down + n }
    metrics := { tracked.metrics with bytesIn := tracked.metrics.bytesIn + n } }

/-- Bytes are flowing. -/
def setOpen (tracked : Tracked) : Tracked :=
  if tracked.entry.state = .connecting then
    { tracked with entry := { tracked.entry with state := .open } }
  else tracked

/-- The connection failed; later reports change nothing. -/
def fail (tracked : Tracked) (reason : String) : Tracked :=
  if tracked.entry.failed then tracked
  else
    { entry := { tracked.entry with failed := true, state := .failed reason }
      metrics := { tracked.metrics with failedRequests := tracked.metrics.failedRequests + 1 } }

@[simp] theorem addUp_failed (tracked : Tracked) (n : Nat) :
    (tracked.addUp n).entry.failed = tracked.entry.failed := rfl

@[simp] theorem addDown_failed (tracked : Tracked) (n : Nat) :
    (tracked.addDown n).entry.failed = tracked.entry.failed := rfl

@[simp] theorem addUp_failedRequests (tracked : Tracked) (n : Nat) :
    (tracked.addUp n).metrics.failedRequests = tracked.metrics.failedRequests := rfl

@[simp] theorem addDown_failedRequests (tracked : Tracked) (n : Nat) :
    (tracked.addDown n).metrics.failedRequests = tracked.metrics.failedRequests := rfl

@[simp] theorem setOpen_failed (tracked : Tracked) :
    tracked.setOpen.entry.failed = tracked.entry.failed := by
  unfold setOpen
  split <;> rfl

@[simp] theorem setOpen_metrics (tracked : Tracked) :
    tracked.setOpen.metrics = tracked.metrics := by
  unfold setOpen
  split <;> rfl

/-- A first failure marks the entry and is counted. -/
theorem fail_of_not_failed {tracked : Tracked} (reason : String)
    (hfresh : tracked.entry.failed = false) :
    (tracked.fail reason).entry.failed = true ∧
      (tracked.fail reason).entry.state = .failed reason ∧
      (tracked.fail reason).metrics.failedRequests = tracked.metrics.failedRequests + 1 := by
  simp [fail, hfresh]

end Tracked

end Zicade.Proxy
