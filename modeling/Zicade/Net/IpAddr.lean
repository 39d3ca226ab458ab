import Zicade.Foundation.Text

/-! # Parsing an IP address

`IpAddr::from_str` reads an IPv4 address, else an IPv6 address, and accepts the
text only if nothing is left. Every reader either succeeds or leaves its input
as it was.
-/

namespace Zicade.Net

open Zicade.Foundation

inductive IpAddr
  | v4 (a b c d : Nat)
  | v6 (segments : List Nat)
  deriving DecidableEq, Repr

/-- `127.0.0.0/8`, and `::1` alone. -/
def IpAddr.isLoopback : IpAddr → Bool
  | .v4 a _ _ _ => a == 127
  | .v6 segments => segments == [0, 0, 0, 0, 0, 0, 0, 1]

/-! ## The parser -/

def readGivenChar (target : Char) : Text → Option Text
  | [] => none
  | c :: rest => if c = target then some rest else none

/-- A separator stands before every item but the first. -/
def readSeparator {α : Type*} (sep : Char) (index : Nat) (inner : Text → Option (α × Text))
    (t : Text) : Option (α × Text) :=
  if index = 0 then inner t else (readGivenChar sep t).bind inner

def isDigit (radix : Nat) (c : Char) : Bool := (digitValue radix c).isSome

/-- A number of at most `maxDigits` digits that is below `bound`. -/
def readNumber (radix maxDigits bound : Nat) (allowZeroPrefix : Bool) (t : Text) :
    Option (Nat × Text) :=
  let digits := t.takeWhile (isDigit radix)
  if digits = [] ∨ maxDigits < digits.length then none
  else if !allowZeroPrefix ∧ digits.head? = some '0' ∧ 1 < digits.length then none
  else
    match digitsValue radix digits with
    | some n => if n < bound then some (n, t.dropWhile (isDigit radix)) else none
    | none => none

/-- Octal numbers are not allowed. -/
def readOctet (t : Text) : Option (Nat × Text) := readNumber 10 3 256 false t

def readIpv4Addr (t : Text) : Option ((Nat × Nat × Nat × Nat) × Text) := do
  let (a, t) ← readSeparator '.' 0 readOctet t
  let (b, t) ← readSeparator '.' 1 readOctet t
  let (c, t) ← readSeparator '.' 2 readOctet t
  let (d, t) ← readSeparator '.' 3 readOctet t
  return ((a, b, c, d), t)

/-- Read up to `left` groups, the last two possibly as an IPv4 address; returns
the groups, whether they end in one, and the rest. -/
def readGroups : Nat → Nat → Text → List Nat × Bool × Text
  | 0, _, t => ([], false, t)
  | left + 1, i, t =>
      match if left = 0 then none else readSeparator ':' i readIpv4Addr t with
      | some ((a, b, c, d), rest) => ([a * 256 + b, c * 256 + d], true, rest)
      | none =>
          match readSeparator ':' i (readNumber 16 4 65536 true) t with
          | some (group, rest) =>
              let others := readGroups left (i + 1) rest
              (group :: others.1, others.2.1, others.2.2)
          | none => ([], false, t)

def readIpv6Addr (t : Text) : Option (List Nat × Text) :=
  let head := readGroups 8 0 t
  if head.1.length = 8 then some (head.1, head.2.2)
  else if head.2.1 then none
  else
    match (readGivenChar ':' head.2.2).bind (readGivenChar ':') with
    | none => none
    | some rest =>
        -- the `::` stands for at least one group
        let tail := readGroups (8 - (head.1.length + 1)) 0 rest
        let zeros := List.replicate (8 - head.1.length - tail.1.length) 0
        some (head.1 ++ zeros ++ tail.1, tail.2.2)

def readIpAddr (t : Text) : Option (IpAddr × Text) :=
  match readIpv4Addr t with
  | some ((a, b, c, d), rest) => some (.v4 a b c d, rest)
  | none => (readIpv6Addr t).map fun read => (.v6 read.1, read.2)

/-- `IpAddr::from_str`. -/
def IpAddr.fromStr (t : Text) : Option IpAddr :=
  match readIpAddr t with
  | some (addr, []) => some addr
  | _ => none

example : IpAddr.fromStr "127.0.0.1".toList = some (.v4 127 0 0 1) := by decide

example : IpAddr.fromStr "::ffff:127.0.0.1".toList =
    some (.v6 [0, 0, 0, 0, 0, 0xffff, 0x7f00, 1]) := by decide

/-! ## What is written as an IPv4 address -/

/-- A decimal octet as it must be written: at most three digits, no leading zero. -/
structure IsOctet (word : Text) (n : Nat) : Prop where
  value : digitsValue 10 word = some n
  bound : n < 256
  nonempty : word ≠ []
  short : word.length ≤ 3
  canonical : word.head? = some '0' → word.length = 1

theorem isDigit_of_digitsValue {radix n : Nat} {word : Text}
    (hvalue : digitsValue radix word = some n) : ∀ c ∈ word, isDigit radix c = true := by
  intro c hc
  obtain ⟨d, hd⟩ := foldlM_digits_isSome hvalue c hc
  rw [isDigit, hd]
  rfl

theorem takeWhile_append_of_head {α : Type*} {p : α → Bool} {word rest : List α}
    (hword : ∀ c ∈ word, p c = true) (hrest : ∀ c, rest.head? = some c → p c = false) :
    (word ++ rest).takeWhile p = word ∧ (word ++ rest).dropWhile p = rest := by
  rw [List.takeWhile_append_of_pos hword, List.dropWhile_append_of_pos hword]
  cases rest with
  | nil => simp
  | cons c rest => simp [hrest c rfl]

theorem head?_dropWhile_eq_false {α : Type*} (p : α → Bool) (l : List α) {c : α}
    (hc : (l.dropWhile p).head? = some c) : p c = false := by
  have hnot := List.head?_dropWhile_not p l
  rw [hc] at hnot
  simpa using hnot

/-- The reader takes exactly the digits before the rest. -/
theorem readOctet_eq_some {t rest : Text} {n : Nat} :
    readOctet t = some (n, rest) ↔
      ∃ word, t = word ++ rest ∧ IsOctet word n ∧
        ∀ c, rest.head? = some c → isDigit 10 c = false := by
  constructor
  · intro hread
    simp only [readOctet, readNumber] at hread
    split at hread
    next => cases hread
    next hlength =>
      split at hread
      next => cases hread
      next hzero =>
        split at hread
        next value hvalue =>
          rw [Option.ite_none_right_eq_some, Option.some.injEq, Prod.mk.injEq] at hread
          obtain ⟨hbound, rfl, rfl⟩ := hread
          refine ⟨t.takeWhile (isDigit 10), List.takeWhile_append_dropWhile.symm, ?_,
            fun c hc => head?_dropWhile_eq_false _ t hc⟩
          refine ⟨hvalue, hbound, fun hnil => hlength (.inl hnil), by omega, fun hhead => ?_⟩
          have hpos := List.length_pos_iff.mpr fun hnil => hlength (.inl hnil)
          have hone : ¬ 1 < (t.takeWhile (isDigit 10)).length := fun h => hzero ⟨rfl, hhead, h⟩
          omega
        next => cases hread
  · rintro ⟨word, rfl, hoctet, hrest⟩
    obtain ⟨htake, hdrop⟩ :=
      takeWhile_append_of_head (isDigit_of_digitsValue hoctet.value) hrest
    have hzero : ¬ ((!false) = true ∧ word.head? = some '0' ∧ 1 < word.length) := by
      rintro ⟨-, hhead, hlong⟩
      have := hoctet.canonical hhead
      omega
    simp only [readOctet, readNumber]
    rw [htake, hdrop, if_neg (by simp [hoctet.nonempty, hoctet.short]), if_neg hzero,
      hoctet.value]
    simp [hoctet.bound]

theorem readGivenChar_eq_some {target : Char} {t rest : Text} :
    readGivenChar target t = some rest ↔ t = target :: rest := by
  cases t with
  | nil => simp [readGivenChar]
  | cons c t => simp [readGivenChar, eq_comm]

/-- Four octets, joined by dots. -/
structure IsDotted (t : Text) (a b c d : Nat) : Prop where
  words : ∃ wa wb wc wd, t = wa ++ '.' :: (wb ++ '.' :: (wc ++ '.' :: wd)) ∧
    IsOctet wa a ∧ IsOctet wb b ∧ IsOctet wc c ∧ IsOctet wd d

theorem readSeparator_succ_eq_some {α : Type*} {sep : Char} {index : Nat}
    {inner : Text → Option (α × Text)} {t : Text} {result : α × Text} :
    readSeparator sep (index + 1) inner t = some result ↔
      ∃ rest, t = sep :: rest ∧ inner rest = some result := by
  simp [readSeparator, Option.bind_eq_some_iff, readGivenChar_eq_some]

/-- A whole text is read as an IPv4 address exactly if it is four dotted octets. -/
theorem readIpv4Addr_eq_some {t : Text} {a b c d : Nat} :
    readIpv4Addr t = some ((a, b, c, d), []) ↔ IsDotted t a b c d := by
  have hdot : ∀ (rest : Text) (e : Char), ('.' :: rest).head? = some e → isDigit 10 e = false := by
    intro rest e he
    obtain rfl := Option.some.inj he
    decide
  constructor
  · intro hread
    simp only [readIpv4Addr, Option.bind_eq_bind, Option.bind_eq_some_iff] at hread
    obtain ⟨⟨a', t₁⟩, ha, ⟨b', t₂⟩, hb, ⟨c', t₃⟩, hc, ⟨d', t₄⟩, hd, hresult⟩ := hread
    simp only [Option.pure_def, Option.some.injEq, Prod.mk.injEq] at hresult
    obtain ⟨⟨rfl, rfl, rfl, rfl⟩, rfl⟩ := hresult
    obtain ⟨_, rfl, hb⟩ := readSeparator_succ_eq_some.mp hb
    obtain ⟨_, rfl, hc⟩ := readSeparator_succ_eq_some.mp hc
    obtain ⟨_, rfl, hd⟩ := readSeparator_succ_eq_some.mp hd
    obtain ⟨wa, rfl, hwa, -⟩ := readOctet_eq_some.mp ha
    obtain ⟨wb, rfl, hwb, -⟩ := readOctet_eq_some.mp hb
    obtain ⟨wc, rfl, hwc, -⟩ := readOctet_eq_some.mp hc
    obtain ⟨wd, rfl, hwd, -⟩ := readOctet_eq_some.mp hd
    exact ⟨wa, wb, wc, wd, by simp, hwa, hwb, hwc, hwd⟩
  · rintro ⟨wa, wb, wc, wd, rfl, hwa, hwb, hwc, hwd⟩
    have ha := readOctet_eq_some.mpr ⟨wa, rfl, hwa, hdot (wb ++ '.' :: (wc ++ '.' :: wd))⟩
    have hb := readOctet_eq_some.mpr ⟨wb, rfl, hwb, hdot (wc ++ '.' :: wd)⟩
    have hc := readOctet_eq_some.mpr ⟨wc, rfl, hwc, hdot wd⟩
    have hd := readOctet_eq_some.mpr ⟨wd, (List.append_nil wd).symm, hwd, nofun⟩
    simp [readIpv4Addr, readSeparator, readGivenChar, ha, hb, hc, hd]

/-- `IpAddr::from_str` yields an IPv4 address exactly for four dotted octets. -/
theorem fromStr_eq_v4 {t : Text} {a b c d : Nat} :
    IpAddr.fromStr t = some (.v4 a b c d) ↔ IsDotted t a b c d := by
  rw [← readIpv4Addr_eq_some]
  constructor
  · intro hparsed
    unfold IpAddr.fromStr at hparsed
    split at hparsed
    next addr hread =>
      obtain rfl := Option.some.inj hparsed
      unfold readIpAddr at hread
      split at hread
      next a' b' c' d' rest hv4 =>
        simp only [Option.some.injEq, Prod.mk.injEq, IpAddr.v4.injEq] at hread
        obtain ⟨⟨rfl, rfl, rfl, rfl⟩, rfl⟩ := hread
        exact hv4
      next =>
        obtain ⟨_, -, hread⟩ := Option.map_eq_some_iff.mp hread
        cases hread
    next => cases hparsed
  · intro hread
    simp [IpAddr.fromStr, readIpAddr, hread]

end Zicade.Net
