import Zicade.Foundation.Glob
import Zicade.Routing.Pac

/-! # The static proxy of the system's discovery

The manual proxy of the per-user settings serves every host but the bypassed ones, which
are listed by wildcards and by `<local>`.
-/

namespace Zicade.Win

open Zicade.Foundation Zicade.Routing

/-! ## Wildcards -/

/-- The segments after the first star: each at its first occurrence, the last at the end. -/
def matchSegments : List Text → Text → Bool
  | [], _ => true
  | [last], rest => last.isSuffixOf rest
  | part :: next :: parts, rest =>
      if part.isEmpty then matchSegments (next :: parts) rest
      else
        match afterFirst part rest with
        | some after => matchSegments (next :: parts) after
        | none => false

def wildcardMatch (pattern text : Text) : Bool :=
  if '*' ∉ pattern then pattern == text
  else
    let parts := pattern.splitOn '*'
    match (parts.headD []).isPrefixOf? text with
    | none => false
    | some rest => matchSegments parts.tail rest

theorem matchSegments_iff {parts : List Text} (hne : parts ≠ []) (rest : Text) :
    matchSegments parts rest = true ↔ Spread parts rest := by
  induction parts generalizing rest with
  | nil => exact absurd rfl hne
  | cons part others ih =>
      cases others with
      | nil => rw [matchSegments, spread_singleton_iff, List.isSuffixOf_iff_suffix]
      | cons next parts =>
          have ih := ih (List.cons_ne_nil next parts)
          rw [matchSegments, spread_cons_iff (List.cons_ne_nil next parts)]
          by_cases hempty : part = []
          · -- an empty segment is skipped: it occurs right where the rest begins
            subst hempty
            rw [List.isEmpty_nil, if_pos rfl, ih, afterFirst_nil]
            simp
          · rw [if_neg (by simpa using hempty)]
            cases hafter : afterFirst part rest with
            | none => simp
            | some after => simp [ih]

theorem wildcardMatch_iff (pattern text : Text) :
    wildcardMatch pattern text = true ↔ Glob '*' pattern text := by
  rw [wildcardMatch]
  split
  next hliteral => rw [glob_self_iff hliteral, beq_iff_eq]
  next hstar =>
    obtain ⟨front, after, rfl, hfront⟩ := List.eq_append_cons_of_mem (not_not.mp hstar)
    have hpieces : after = ['*'].intercalate (after.splitOn '*') :=
      (List.intercalate_splitOn '*').symm
    have hspread (rest : Text) :
        Glob '*' ('*' :: after) rest ↔ Spread (after.splitOn '*') rest := by
      conv_lhs => rw [hpieces]
      exact glob_star_pieces_iff (List.splitOn_ne_nil '*' after)
        fun piece hpiece hmem => by simpa using piece_has_no_separator hpiece hmem
    rw [List.splitOn_append_cons_self_of_not_mem hfront, glob_append_iff hfront]
    dsimp only [List.headD_cons, List.tail_cons]
    cases hrest : front.isPrefixOf? text with
    | none =>
        refine iff_of_false nofun ?_
        rintro ⟨rest, htext, -⟩
        rw [List.isPrefixOf?_eq_some_iff_append_eq.mpr htext.symm] at hrest
        cases hrest
    | some rest =>
        have htext : front ++ rest = text := List.append_eq_of_isPrefixOf?_eq_some hrest
        subst htext
        simp [matchSegments_iff (List.splitOn_ne_nil '*' after), hspread]

/-- A wildcard matches exactly the texts that it gives when each star is replaced by a run of
characters, which may be empty. -/
theorem wildcardMatch_eq_true_iff (pattern text : Text) :
    wildcardMatch pattern text = true ↔
      ∃ runs, runs.length = pattern.count '*' ∧ fill '*' pattern runs = text := by
  rw [wildcardMatch_iff, glob_iff_fill]

/-! ## The resolver -/

/-- The entry of a bypass list that stands for every host without a dot. -/
def localEntry : Text := "<local>".toList

def hostBypassed (host : Text) (entries : List Text) : Bool :=
  entries.any fun entry =>
    if entry = localEntry then '.' ∉ host else wildcardMatch entry host

/-- The authority of a URL ends where its path, query or fragment begins. -/
def endsAuthority (c : Char) : Bool := c == '/' || c == '?' || c == '#'

/-- The lower-cased host of a URL: scheme, userinfo, port and path are stripped. -/
def hostOf (url : Text) : Text :=
  let afterScheme := (afterFirst "://".toList url).getD url
  let authority := (afterScheme.splitOnP endsAuthority).headD afterScheme
  let hostPort := ((rsplitOnce '@' authority).map Prod.snd).getD authority
  let host :=
    match hostPort with
    | '[' :: stripped => ((splitOnce ']' stripped).map Prod.fst).getD hostPort
    | _ => ((splitOnce ':' hostPort).map Prod.fst).getD hostPort
  toAsciiLowercase host

structure StaticResolver where
  proxy : PacResult
  bypass : List Text
  deriving DecidableEq, Repr

namespace StaticResolver

/-- Entries of a bypass list end at a semicolon or at whitespace. -/
def endsBypass (c : Char) : Bool :=
  c == ';' || c == ' ' || c == '\t' || c == '\n' || c == '\r'

def parseBypass (list : Text) : List Text :=
  (((list.splitOnP endsBypass).map trim).filter fun entry => !entry.isEmpty).map toAsciiLowercase

def new (proxy : Text) (bypass : Option Text) : StaticResolver :=
  { proxy := .parse proxy, bypass := (bypass.map parseBypass).getD [] }

def resolve (resolver : StaticResolver) (url : Text) : PacResult :=
  if hostBypassed (hostOf url) resolver.bypass then .direct else resolver.proxy

end StaticResolver

end Zicade.Win
