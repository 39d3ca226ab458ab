import Zicade.Foundation.Text

/-! # PAC results

One parser reads both the value a PAC script returns and the bare proxy list of
the system's resolver. The first usable entry decides.
-/

namespace Zicade.Routing

open Zicade.Foundation

/-- A parsed proxy decision. -/
inductive PacResult
  | direct
  | proxy (host : Text) (port : UInt16)
  deriving DecidableEq, Repr

/-- A single `host:port` token, with or without a leading `scheme=`. -/
def parseAddr (token : Text) : Option PacResult :=
  match rsplitOnce ':' (afterLast '=' token) with
  | none => none
  | some (host, port) =>
      if host = [] then none
      else (fromStrRadix 10 65536 (trim port)).map fun port => .proxy host (.ofNat port)

def direct : Text := ['D', 'I', 'R', 'E', 'C', 'T']

def proxy : Text := ['P', 'R', 'O', 'X', 'Y']

def socks : Text := ['S', 'O', 'C', 'K', 'S']

/-- What one entry decides, if it is usable. -/
def parseEntry (entry : Text) : Option PacResult :=
  match splitWhitespace (trim entry) with
  | [] => none
  | keyword :: tokens =>
      let upper := toAsciiUppercase keyword
      if upper = direct then some .direct
      else if upper = proxy then tokens.head?.bind parseAddr
      else if socks.isPrefixOf upper then none
      else parseAddr keyword

/-- Entries end at a semicolon or a line feed. -/
def endsEntry (c : Char) : Bool := c == ';' || c == '\n'

def PacResult.parse (raw : Text) : PacResult :=
  ((raw.splitOnP endsEntry).findSome? parseEntry).getD .direct

end Zicade.Routing
