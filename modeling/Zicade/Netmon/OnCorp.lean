import Zicade.Foundation.Text

/-! # Corporate-network detection

Whether the machine is on the corporate network is decided by the DNS suffixes
of the adapters that are up. The list of those is empty where it cannot be told.
-/

namespace Zicade.Netmon

open Zicade.Foundation

/-- What the platform says about its network adapters. -/
inductive Adapters
  | offWindows
  | enumerationFailed
  | up (suffixes : List Text)
  deriving DecidableEq, Repr

/-- The connection-specific DNS suffixes of the adapters that are up. -/
def activeDnsSuffixes : Adapters → List Text
  | .offWindows => []
  | .enumerationFailed => []
  | .up suffixes => suffixes.filter fun suffix => !suffix.isEmpty

/-- `trim_matches('.')`. -/
def trimDots (t : Text) : Text := (t.dropWhile (· == '.')).rdropWhile (· == '.')

/-- Lower-case, trimmed of whitespace and dots; `none` when nothing is left. -/
def normalize (t : Text) : Option Text :=
  let trimmed := toAsciiLowercase (trimDots (trim t))
  if trimmed.isEmpty then none else some trimmed

/-- `active` equals `suffix` or sits below it on a dot boundary. -/
def suffixMatches (active suffix : Text) : Bool :=
  active == suffix || ('.' :: suffix).isSuffixOf active

def onCorp (active configured : List Text) : Bool :=
  let wanted := configured.filterMap normalize
  !wanted.isEmpty && (active.filterMap normalize).any fun a => wanted.any (suffixMatches a)

/-- Without a suffix nothing matches. -/
theorem onCorp_nil (configured : List Text) : onCorp [] configured = false := by
  simp [onCorp]

end Zicade.Netmon
