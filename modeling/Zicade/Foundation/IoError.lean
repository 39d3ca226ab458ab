import Mathlib.Data.List.Basic

/-! # Input and output errors -/

namespace Zicade.Foundation

inductive ErrorKind
  | notFound
  | permissionDenied
  | connectionRefused
  | connectionReset
  | connectionAborted
  | brokenPipe
  | timedOut
  | writeZero
  | storageFull
  | unexpectedEof
  | other
  deriving DecidableEq, Repr

/-- `std::io::Error`: a kind and the text it displays. -/
structure IoError where
  kind : ErrorKind
  message : String
  deriving DecidableEq, Repr

/-- `io::Error::other`. -/
def IoError.ofMessage (message : String) : IoError := ⟨.other, message⟩

end Zicade.Foundation
