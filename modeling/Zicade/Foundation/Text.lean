import Mathlib.Data.List.DropRight
import Mathlib.Data.List.TakeWhile

/-! # Text as the standard string functions see it

A string is its list of characters. The functions are those of the standard
library: whitespace is the Unicode `White_Space` property, case folding is
ASCII only, and numbers are read in a given radix below a given bound.
-/

namespace Zicade.Foundation

abbrev Text := List Char

abbrev Bytes := List UInt8

/-- A statement about the characters of a text is decided on them, and not by
trying every character there is. -/
instance (priority := high) decidableForallMem {α : Type*} (p : α → Prop) [DecidablePred p]
    (t : List α) : Decidable (∀ a ∈ t, p a) := List.decidableBAll p t

/-- `char::is_whitespace`: the Unicode `White_Space` property. -/
def isWhitespace (c : Char) : Bool :=
  let n := c.toNat
  (9 ≤ n && n ≤ 13) || n == 32 || n == 0x85 || n == 0xA0 || n == 0x1680 ||
    (0x2000 ≤ n && n ≤ 0x200A) || n == 0x2028 || n == 0x2029 || n == 0x202F ||
    n == 0x205F || n == 0x3000

/-- `str::trim`. -/
def trim (t : Text) : Text := (t.dropWhile isWhitespace).rdropWhile isWhitespace

/-- `str::split_whitespace`: the maximal runs of non-whitespace. -/
def splitWhitespace (t : Text) : List Text :=
  (t.splitOnP isWhitespace).filter (fun word => !word.isEmpty)

/-- `split_whitespace().next().unwrap_or_default()`. -/
def firstWord (t : Text) : Text := (splitWhitespace t).headD []

/-- `str::split_once` on a character: the text before and after its first
occurrence. -/
def splitOnce (sep : Char) : Text → Option (Text × Text)
  | [] => none
  | c :: rest =>
      if c = sep then some ([], rest)
      else (splitOnce sep rest).map fun (before, after) => (c :: before, after)

/-- `str::rsplit` on a character, its first piece: the text after the last one. -/
def afterLast (sep : Char) (t : Text) : Text := t.rtakeWhile (· != sep)

/-- `str::rsplit_once` on a character: the text before and after its last
occurrence. -/
def rsplitOnce (sep : Char) (t : Text) : Option (Text × Text) :=
  if sep ∈ t then some ((t.rdropWhile (· != sep)).dropLast, afterLast sep t) else none

/-- `splitn(2, char::is_whitespace)`: the first piece, and the rest after the
separating character if there is one. -/
def splitWhitespaceOnce (t : Text) : Text × Option Text :=
  match t.dropWhile (fun c => !isWhitespace c) with
  | [] => (t, none)
  | _ :: rest => (t.takeWhile (fun c => !isWhitespace c), some rest)

/-- `str::to_ascii_lowercase`. -/
def toAsciiLowercase (t : Text) : Text := t.map Char.toLower

/-- `str::to_ascii_uppercase`. -/
def toAsciiUppercase (t : Text) : Text := t.map Char.toUpper

/-- `str::eq_ignore_ascii_case`. -/
def eqIgnoreAsciiCase (s t : Text) : Bool := toAsciiLowercase s == toAsciiLowercase t

/-- `str::contains` on a string. -/
def contains (needle : Text) (t : Text) : Bool := t.tails.any needle.isPrefixOf

/-- `char::to_digit`. -/
def digitValue (radix : Nat) (c : Char) : Option Nat :=
  let n := c.toNat
  let value :=
    if 48 ≤ n ∧ n ≤ 57 then some (n - 48)
    else if 97 ≤ n ∧ n ≤ 122 then some (n - 87)
    else if 65 ≤ n ∧ n ≤ 90 then some (n - 55)
    else none
  value.filter (· < radix)

/-- The number a digit string denotes, most significant digit first. -/
def digitsValue (radix : Nat) (t : Text) : Option Nat :=
  t.foldlM (fun acc c => (digitValue radix c).map (acc * radix + ·)) 0

/-- `from_str_radix` of an unsigned integer type with `bound` values: one
optional `+`, at least one digit, and no overflow. -/
def fromStrRadix (radix bound : Nat) (t : Text) : Option Nat :=
  match t with
  | [] => none
  | ['+'] => none
  | '+' :: digits => (digitsValue radix digits).filter (· < bound)
  | digits => (digitsValue radix digits).filter (· < bound)

/-! ## Whitespace and trimming -/

theorem trim_append_left {pad : Text} (t : Text) (hpad : ∀ c ∈ pad, isWhitespace c) :
    trim (pad ++ t) = trim t := by
  rw [trim, List.dropWhile_append_of_pos hpad, trim]

theorem rdropWhile_append_right {pad : Text} (t : Text) (hpad : ∀ c ∈ pad, isWhitespace c) :
    (t ++ pad).rdropWhile isWhitespace = t.rdropWhile isWhitespace := by
  rw [List.rdropWhile, List.reverse_append, List.dropWhile_append_of_pos, List.rdropWhile]
  intro c hc
  exact hpad c (List.mem_reverse.mp hc)

theorem trim_append_right {pad : Text} (t : Text) (hpad : ∀ c ∈ pad, isWhitespace c) :
    trim (t ++ pad) = trim t := by
  rw [trim, trim, List.dropWhile_append]
  by_cases hall : (t.dropWhile isWhitespace).isEmpty
  · have hpadDrop : pad.dropWhile isWhitespace = [] := List.dropWhile_eq_nil_iff.mpr hpad
    rw [if_pos hall, hpadDrop, List.isEmpty_iff.mp hall]
  · rw [if_neg hall, rdropWhile_append_right _ hpad]

/-- A text that neither starts nor ends with whitespace is its own trim. -/
theorem trim_eq_self {t : Text} (hhead : ∀ c, t.head? = some c → isWhitespace c = false)
    (hlast : ∀ c, t.getLast? = some c → isWhitespace c = false) : trim t = t := by
  have hdrop : t.dropWhile isWhitespace = t := by
    cases t with
    | nil => rfl
    | cons c rest => rw [List.dropWhile_cons_of_neg (by simp [hhead c rfl])]
  rw [trim, hdrop, List.rdropWhile_eq_self_iff]
  intro hne
  simp [hlast _ (List.getLast?_eq_some_getLast hne)]

theorem trim_of_no_whitespace {t : Text} (hnone : ∀ c ∈ t, isWhitespace c = false) :
    trim t = t :=
  trim_eq_self (fun c hc => hnone c (List.mem_of_head? hc))
    (fun c hc => hnone c (List.mem_of_getLast? hc))

theorem trim_cons_whitespace {c : Char} (t : Text) (hc : isWhitespace c) :
    trim (c :: t) = trim t := by
  rw [trim, List.dropWhile_cons_of_pos hc, trim]

/-- Around a character that is not whitespace, trimming acts on each side alone. -/
theorem trim_append_cons (before after : Text) {c : Char} (hc : isWhitespace c = false) :
    trim (before ++ c :: after) =
      before.dropWhile isWhitespace ++ c :: after.rdropWhile isWhitespace := by
  have hleft : (before ++ c :: after).dropWhile isWhitespace =
      before.dropWhile isWhitespace ++ c :: after := by
    rw [List.dropWhile_append]
    by_cases hall : (before.dropWhile isWhitespace).isEmpty
    · rw [if_pos hall, List.isEmpty_iff.mp hall, List.dropWhile_cons_of_neg (by simp [hc])]
      rfl
    · rw [if_neg hall]
  have hright : ∀ front : Text, (front ++ c :: after).rdropWhile isWhitespace =
      front ++ c :: after.rdropWhile isWhitespace := by
    intro front
    rw [List.rdropWhile, List.reverse_append, List.reverse_cons, List.append_assoc,
      List.dropWhile_append]
    by_cases hall : (after.reverse.dropWhile isWhitespace).isEmpty
    · rw [if_pos hall, List.singleton_append, List.dropWhile_cons_of_neg (by simp [hc]),
        List.rdropWhile, List.isEmpty_iff.mp hall]
      simp
    · rw [if_neg hall, List.rdropWhile]
      simp
  rw [trim, hleft, hright]

/-- A text is its trim with whitespace on both sides. -/
theorem eq_append_trim_append (t : Text) : ∃ before after, t = before ++ trim t ++ after ∧
    (∀ c ∈ before, isWhitespace c) ∧ ∀ c ∈ after, isWhitespace c := by
  refine ⟨t.takeWhile isWhitespace, (t.dropWhile isWhitespace).rtakeWhile isWhitespace, ?_,
    fun c hc => List.mem_takeWhile_imp hc, fun c hc => List.mem_rtakeWhile_imp hc⟩
  rw [trim, List.append_assoc, List.rdropWhile_append_rtakeWhile, List.takeWhile_append_dropWhile]

theorem mem_of_mem_trim {c : Char} {t : Text} (hc : c ∈ trim t) : c ∈ t := by
  obtain ⟨before, after, ht, -, -⟩ := eq_append_trim_append t
  rw [ht, List.append_assoc]
  exact List.mem_append_right _ (List.mem_append_left _ hc)

/-- A trimmed text does not start with whitespace. -/
theorem dropWhile_trim (t : Text) : (trim t).dropWhile isWhitespace = trim t := by
  cases htrim : trim t with
  | nil => rfl
  | cons c rest =>
      have hhead : (t.dropWhile isWhitespace).head? = some c := by
        obtain ⟨suffix, hsuffix⟩ := List.rdropWhile_prefix isWhitespace (t.dropWhile isWhitespace)
        rw [← hsuffix, ← trim, htrim]
        rfl
      have hc := List.head?_dropWhile_not isWhitespace t
      rw [hhead] at hc
      rw [List.dropWhile_cons_of_neg (by simpa using hc)]

theorem trim_trim (t : Text) : trim (trim t) = trim t := by
  rw [trim, dropWhile_trim, trim, List.rdropWhile_idempotent]

/-! ## Words -/

theorem splitWhitespace_cons_whitespace {c : Char} (rest : Text) (hc : isWhitespace c) :
    splitWhitespace (c :: rest) = splitWhitespace rest := by
  simp [splitWhitespace, List.splitOnP_cons_eq_if_modifyHead, hc]

theorem splitWhitespace_append_left {pad : Text} (t : Text) (hpad : ∀ c ∈ pad, isWhitespace c) :
    splitWhitespace (pad ++ t) = splitWhitespace t := by
  induction pad with
  | nil => rfl
  | cons c rest ih =>
      rw [List.cons_append, splitWhitespace_cons_whitespace _ (hpad c List.mem_cons_self)]
      exact ih fun d hd => hpad d (List.mem_cons_of_mem c hd)

/-- Whitespace splits a text: the words of both sides, in order. -/
theorem splitWhitespace_append_cons (t rest : Text) {c : Char} (hc : isWhitespace c) :
    splitWhitespace (t ++ c :: rest) = splitWhitespace t ++ splitWhitespace rest := by
  rw [splitWhitespace, List.splitOnP_append_cons _ _ hc, List.filter_append]
  rfl

theorem splitWhitespace_append {tail : Text} (t : Text)
    (htail : ∀ c ∈ tail.head?, isWhitespace c) :
    splitWhitespace (t ++ tail) = splitWhitespace t ++ splitWhitespace tail := by
  cases tail with
  | nil => simp [splitWhitespace]
  | cons c rest =>
      have hc : isWhitespace c := htail c rfl
      rw [splitWhitespace_append_cons t rest hc, splitWhitespace_cons_whitespace rest hc]

theorem splitWhitespace_blank {pad : Text} (hpad : ∀ c ∈ pad, isWhitespace c) :
    splitWhitespace pad = [] := by
  have hleft := splitWhitespace_append_left [] hpad
  rw [List.append_nil] at hleft
  rw [hleft]
  rfl

/-- Trimming takes no word away. -/
theorem splitWhitespace_trim (t : Text) : splitWhitespace (trim t) = splitWhitespace t := by
  obtain ⟨before, after, ht, hbefore, hafter⟩ := eq_append_trim_append t
  have hhead : ∀ c ∈ after.head?, isWhitespace c := fun c hc => hafter c (List.mem_of_head? hc)
  conv_rhs =>
    rw [ht, List.append_assoc, splitWhitespace_append_left _ hbefore,
      splitWhitespace_append _ hhead, splitWhitespace_blank hafter, List.append_nil]

theorem splitWhitespace_word {word : Text} (hne : word ≠ [])
    (hword : ∀ c ∈ word, isWhitespace c = false) : splitWhitespace word = [word] := by
  simp [splitWhitespace, List.splitOnP_eq_singleton hword, hne]

theorem splitWhitespace_word_append {word : Text} {c : Char} (rest : Text) (hne : word ≠ [])
    (hword : ∀ d ∈ word, isWhitespace d = false) (hc : isWhitespace c) :
    splitWhitespace (word ++ c :: rest) = word :: splitWhitespace rest := by
  rw [splitWhitespace_append_cons word rest hc, splitWhitespace_word hne hword]
  rfl

/-- The first word in one pass: skip whitespace, then take what is not. -/
theorem firstWord_eq (t : Text) :
    firstWord t = (t.dropWhile isWhitespace).takeWhile (fun c => !isWhitespace c) := by
  induction t with
  | nil => rfl
  | cons c rest ih =>
      by_cases hc : isWhitespace c
      · rw [List.dropWhile_cons_of_pos hc, ← ih, firstWord, firstWord,
          splitWhitespace_cons_whitespace rest hc]
      · rw [List.dropWhile_cons_of_neg hc]
        have hsplit : (c :: rest) = (c :: rest).takeWhile (fun d => !isWhitespace d) ++
            (c :: rest).dropWhile (fun d => !isWhitespace d) :=
          (List.takeWhile_append_dropWhile ..).symm
        have hword : ∀ d ∈ (c :: rest).takeWhile (fun d => !isWhitespace d),
            isWhitespace d = false := fun d hd => by
          simpa using List.mem_takeWhile_imp hd
        have hne : (c :: rest).takeWhile (fun d => !isWhitespace d) ≠ [] := by
          simp [hc]
        -- the word reaches to the end, or to the whitespace after it
        cases hafter : (c :: rest).dropWhile (fun d => !isWhitespace d) with
        | nil =>
            rw [hafter, List.append_nil] at hsplit
            rw [firstWord, hsplit, splitWhitespace_word (hsplit ▸ hne) (hsplit ▸ hword), ← hsplit]
            exact hsplit
        | cons sep tail =>
            have hsep : isWhitespace sep := by
              have := List.head_dropWhile_not (fun d => !isWhitespace d) (l := c :: rest)
                (by rw [hafter]; exact List.cons_ne_nil _ _)
              simpa [hafter] using this
            rw [hafter] at hsplit
            rw [firstWord]
            conv_lhs => rw [hsplit]
            rw [splitWhitespace_word_append tail hne hword hsep]
            rfl

theorem firstWord_append_left {pad : Text} (t : Text) (hpad : ∀ c ∈ pad, isWhitespace c) :
    firstWord (pad ++ t) = firstWord t := by
  rw [firstWord, splitWhitespace_append_left t hpad, firstWord]

theorem firstWord_append_right {pad : Text} (t : Text) (hpad : ∀ c ∈ pad, isWhitespace c) :
    firstWord (t ++ pad) = firstWord t := by
  have htake : pad.takeWhile (fun c => !isWhitespace c) = [] := by
    cases pad with
    | nil => rfl
    | cons c rest => simp [hpad c List.mem_cons_self]
  rw [firstWord_eq, firstWord_eq, List.dropWhile_append]
  by_cases hall : (t.dropWhile isWhitespace).isEmpty
  · have hpadDrop : pad.dropWhile isWhitespace = [] := List.dropWhile_eq_nil_iff.mpr hpad
    rw [if_pos hall, hpadDrop, List.isEmpty_iff.mp hall]
  · rw [if_neg hall, List.takeWhile_append, htake, List.append_nil]
    split
    next hlength => exact (List.takeWhile_prefix _).eq_of_length hlength |>.symm
    next => rfl

/-- Trimming does not change the first word. -/
theorem firstWord_trim (t : Text) : firstWord (trim t) = firstWord t := by
  obtain ⟨before, after, ht, hbefore, hafter⟩ := eq_append_trim_append t
  conv_rhs => rw [ht, firstWord_append_right _ hafter, firstWord_append_left _ hbefore]

theorem splitWhitespaceOnce_fst (t : Text) :
    (splitWhitespaceOnce t).1 = t.takeWhile (fun c => !isWhitespace c) := by
  unfold splitWhitespaceOnce
  split
  next hdrop => rw [List.takeWhile_eq_self_iff.mpr (List.dropWhile_eq_nil_iff.mp hdrop)]
  next => rfl

theorem splitWhitespaceOnce_word {word : Text} (hword : ∀ c ∈ word, isWhitespace c = false) :
    splitWhitespaceOnce word = (word, none) := by
  have hdrop : word.dropWhile (fun c => !isWhitespace c) = [] :=
    List.dropWhile_eq_nil_iff.mpr fun c hc => by simp [hword c hc]
  rw [splitWhitespaceOnce, hdrop]

theorem splitWhitespaceOnce_append_cons {word : Text} {sep : Char} (rest : Text)
    (hword : ∀ c ∈ word, isWhitespace c = false) (hsep : isWhitespace sep) :
    splitWhitespaceOnce (word ++ sep :: rest) = (word, some rest) := by
  have hall : ∀ c ∈ word, (!isWhitespace c) = true := fun c hc => by simp [hword c hc]
  have hdrop : (word ++ sep :: rest).dropWhile (fun c => !isWhitespace c) = sep :: rest := by
    rw [List.dropWhile_append_of_pos hall]
    simp [hsep]
  have htake : (word ++ sep :: rest).takeWhile (fun c => !isWhitespace c) = word := by
    rw [List.takeWhile_append_of_pos hall]
    simp [hsep]
  rw [splitWhitespaceOnce, hdrop]
  dsimp only
  rw [htake]

/-- Up to its first whitespace a trimmed text is its first word. -/
theorem splitWhitespaceOnce_trim_fst (t : Text) :
    (splitWhitespaceOnce (trim t)).1 = firstWord t := by
  rw [splitWhitespaceOnce_fst, ← firstWord_trim, firstWord_eq, dropWhile_trim]

/-! ## The pieces between separators -/

theorem piece_has_no_separator {α : Type*} {p : α → Bool} {t piece : List α}
    (hpiece : piece ∈ t.splitOnP p) {a : α} (ha : a ∈ piece) : p a = false := by
  induction t generalizing piece with
  | nil =>
      obtain rfl : piece = [] := by simpa using hpiece
      exact absurd ha List.not_mem_nil
  | cons c rest ih =>
      rw [List.splitOnP_cons_eq_if_modifyHead] at hpiece
      split at hpiece
      next =>
        rcases List.mem_cons.mp hpiece with rfl | hpiece
        · exact absurd ha List.not_mem_nil
        · exact ih hpiece ha
      next hc =>
        cases hpieces : rest.splitOnP p with
        | nil => exact absurd hpieces (List.splitOnP_ne_nil p rest)
        | cons first others =>
            rw [hpieces, List.modifyHead_cons] at hpiece
            rcases List.mem_cons.mp hpiece with rfl | hpiece
            · rcases List.mem_cons.mp ha with rfl | ha
              · exact Bool.eq_false_iff.mpr hc
              · exact ih (hpieces ▸ List.mem_cons_self) ha
            · exact ih (hpieces ▸ List.mem_cons_of_mem _ hpiece) ha

/-- The first piece is what stands before the first separator. -/
theorem headD_splitOnP_append {α : Type*} {p : α → Bool} {front tail : List α}
    (hfront : ∀ a ∈ front, p a = false) (htail : ∀ a ∈ tail.head?, p a) (fallback : List α) :
    ((front ++ tail).splitOnP p).headD fallback = front := by
  cases tail with
  | nil => rw [List.append_nil, List.splitOnP_eq_singleton hfront, List.headD_cons]
  | cons a rest =>
      rw [List.splitOnP_append_cons_of_forall_mem hfront a (htail a rfl), List.headD_cons]

theorem intercalate_append {α : Type*} (sep : α) {front back : List (List α)} (hfront : front ≠ [])
    (hback : back ≠ []) :
    [sep].intercalate (front ++ back) =
      [sep].intercalate front ++ sep :: [sep].intercalate back := by
  induction front with
  | nil => exact absurd rfl hfront
  | cons piece rest ih =>
      cases rest with
      | nil =>
          obtain ⟨next, others, rfl⟩ := List.exists_cons_of_ne_nil hback
          simp [List.intercalate_cons_cons]
      | cons next others =>
          have ih := ih (List.cons_ne_nil next others)
          rw [List.cons_append, List.cons_append, List.intercalate_cons_cons, ← List.cons_append,
            ih, List.intercalate_cons_cons]
          simp

/-- The pieces of one list are the last pieces of another when the lists are the same, or
the other ends in the separator and the one. -/
theorem splitOn_isSuffix_iff {α : Type*} [BEq α] [LawfulBEq α] (sep : α) (part whole : List α) :
    part.splitOn sep <:+ whole.splitOn sep ↔ whole = part ∨ sep :: part <:+ whole := by
  constructor
  · rintro ⟨front, hpieces⟩
    have hwhole : [sep].intercalate (whole.splitOn sep) = whole := List.intercalate_splitOn sep
    have hpart : [sep].intercalate (part.splitOn sep) = part := List.intercalate_splitOn sep
    -- joined again, the pieces are the list they came from
    rw [← hpieces] at hwhole
    by_cases hfront : front = []
    · rw [hfront, List.nil_append, hpart] at hwhole
      exact .inl hwhole.symm
    · rw [intercalate_append sep hfront (List.splitOn_ne_nil sep part), hpart] at hwhole
      exact .inr ⟨_, hwhole⟩
  · rintro (rfl | ⟨front, rfl⟩)
    · exact List.suffix_rfl
    · rw [List.splitOn_append_cons_self]
      exact List.suffix_append _ _

/-! ## ASCII case -/

theorem toLower_of_not_ascii {c : Char} (hc : 128 ≤ c.toNat) : c.toLower = c := by
  refine dif_neg fun hupper => ?_
  have hle : c.toNat ≤ 90 := hupper.2
  omega

/-- A property that the ASCII letters have in both cases does not see case. -/
theorem apply_toLower {p : Char → Bool}
    (hascii : ∀ n < 128, p (Char.ofNat n).toLower = p (Char.ofNat n)) (c : Char) :
    p c.toLower = p c := by
  by_cases hc : c.toNat < 128
  · have hchar := hascii c.toNat hc
    rwa [Char.ofNat_toNat] at hchar
  · rw [toLower_of_not_ascii (by omega)]

section

variable {p : Char → Bool} (hp : ∀ c : Char, p c.toLower = p c) (t : Text)
include hp

theorem dropWhile_toAsciiLowercase :
    (toAsciiLowercase t).dropWhile p = toAsciiLowercase (t.dropWhile p) := by
  rw [toAsciiLowercase, List.dropWhile_map]
  exact congrArg (fun q => (t.dropWhile q).map Char.toLower) (funext hp)

theorem rdropWhile_toAsciiLowercase :
    (toAsciiLowercase t).rdropWhile p = toAsciiLowercase (t.rdropWhile p) := by
  have hreverse : (toAsciiLowercase t).reverse = toAsciiLowercase t.reverse :=
    List.map_reverse.symm
  rw [List.rdropWhile, hreverse, dropWhile_toAsciiLowercase hp]
  exact List.map_reverse.symm

end

/-- A character that is the lower case of itself alone is in a text in either case or in none. -/
theorem mem_toAsciiLowercase {a : Char}
    (hascii : ∀ n < 128, ((Char.ofNat n).toLower == a) = (Char.ofNat n == a)) (t : Text) :
    a ∈ toAsciiLowercase t ↔ a ∈ t := by
  have hsame (c : Char) : c.toLower = a ↔ c = a := by
    rw [← beq_iff_eq, apply_toLower (p := (· == a)) hascii c, beq_iff_eq]
  simp [toAsciiLowercase, hsame]

theorem trim_toAsciiLowercase (t : Text) :
    trim (toAsciiLowercase t) = toAsciiLowercase (trim t) := by
  have hspace := apply_toLower (p := isWhitespace) (by decide)
  rw [trim, dropWhile_toAsciiLowercase hspace, rdropWhile_toAsciiLowercase hspace, trim]

/-! ## The last occurrence of a separator -/

theorem afterLast_of_not_mem {sep : Char} {t : Text} (h : sep ∉ t) : afterLast sep t = t := by
  apply List.rtakeWhile_eq_self_iff.mpr
  intro c hc
  simpa using fun heq : c = sep => h (heq ▸ hc)

theorem afterLast_append {sep : Char} (front : Text) {back : Text} (h : sep ∉ back) :
    afterLast sep (front ++ back) = afterLast sep front ++ back := by
  unfold afterLast
  rw [List.rtakeWhile, List.reverse_append, List.takeWhile_append_of_pos, List.reverse_append,
    List.reverse_reverse, List.rtakeWhile]
  intro c hc
  simpa using fun heq : c = sep => h (heq ▸ List.mem_reverse.mp hc)

theorem afterLast_append_cons {sep : Char} (front : Text) {back : Text} (h : sep ∉ back) :
    afterLast sep (front ++ sep :: back) = back := by
  have hsep : afterLast sep (front ++ [sep]) = [] := by
    simp [afterLast, List.rtakeWhile]
  rw [List.append_cons, afterLast_append _ h, hsep, List.nil_append]

theorem not_mem_afterLast (sep : Char) (t : Text) : sep ∉ afterLast sep t := by
  intro hmem
  have := List.mem_rtakeWhile_imp hmem
  simp at this

/-- A text with the separator is what stands before its last occurrence, the
separator, and what stands after. -/
theorem eq_append_afterLast {sep : Char} {t : Text} (h : sep ∈ t) :
    t = (t.rdropWhile (· != sep)).dropLast ++ sep :: afterLast sep t := by
  have hsplit : t.rdropWhile (· != sep) ++ afterLast sep t = t :=
    List.rdropWhile_append_rtakeWhile
  have hne : t.rdropWhile (· != sep) ≠ [] := by
    intro hnil
    rw [hnil, List.nil_append] at hsplit
    rw [← hsplit] at h
    exact not_mem_afterLast sep t h
  have hlast : (t.rdropWhile (· != sep)).getLast hne = sep := by
    simpa using List.rdropWhile_last_not (· != sep) t hne
  conv_lhs => rw [← hsplit, ← List.dropLast_append_getLast hne, hlast]
  rw [List.append_assoc, List.singleton_append]

theorem splitOnce_append {sep : Char} {before : Text} (after : Text) (hbefore : sep ∉ before) :
    splitOnce sep (before ++ sep :: after) = some (before, after) := by
  induction before with
  | nil => simp [splitOnce]
  | cons c before ih =>
      have hc : c ≠ sep := fun h => hbefore (h ▸ List.mem_cons_self)
      rw [List.cons_append, splitOnce, if_neg hc,
        ih fun hmem => hbefore (List.mem_cons_of_mem c hmem)]
      rfl

theorem splitOnce_of_not_mem {sep : Char} {t : Text} (h : sep ∉ t) : splitOnce sep t = none := by
  induction t with
  | nil => rfl
  | cons c rest ih =>
      have hc : c ≠ sep := fun heq => h (heq ▸ List.mem_cons_self)
      rw [splitOnce, if_neg hc, ih fun hmem => h (List.mem_cons_of_mem c hmem)]
      rfl

theorem eq_of_splitOnce {sep : Char} {t before after : Text}
    (h : splitOnce sep t = some (before, after)) : t = before ++ sep :: after ∧ sep ∉ before := by
  induction t generalizing before with
  | nil => cases h
  | cons c rest ih =>
      rw [splitOnce] at h
      split at h
      next hc =>
        obtain ⟨rfl, rfl⟩ := Prod.mk.inj (Option.some.inj h)
        exact ⟨congrArg (· :: rest) hc, List.not_mem_nil⟩
      next hc =>
        obtain ⟨⟨front, back⟩, hrest, hsplit⟩ := Option.map_eq_some_iff.mp h
        obtain ⟨rfl, rfl⟩ := Prod.mk.inj hsplit
        obtain ⟨rfl, hfront⟩ := ih hrest
        exact ⟨rfl, List.not_mem_cons_of_ne_of_not_mem (Ne.symm hc) hfront⟩

theorem rsplitOnce_append_cons {sep : Char} (front : Text) {back : Text} (h : sep ∉ back) :
    rsplitOnce sep (front ++ sep :: back) = some (front, back) := by
  have hmem : sep ∈ front ++ sep :: back := List.mem_append_right _ List.mem_cons_self
  have heq := eq_append_afterLast hmem
  rw [afterLast_append_cons front h] at heq
  rw [rsplitOnce, if_pos hmem, afterLast_append_cons front h, ← List.append_cancel_right heq]

theorem eq_of_rsplitOnce {sep : Char} {t front back : Text}
    (h : rsplitOnce sep t = some (front, back)) : t = front ++ sep :: back ∧ sep ∉ back := by
  unfold rsplitOnce at h
  split at h
  next hmem =>
    obtain ⟨rfl, rfl⟩ := Prod.mk.inj (Option.some.inj h)
    exact ⟨eq_append_afterLast hmem, not_mem_afterLast sep t⟩
  next => exact absurd h nofun

/-! ## Numbers -/

theorem digitValue_range {radix d : Nat} {c : Char} (hc : digitValue radix c = some d) :
    (48 ≤ c.toNat ∧ c.toNat ≤ 57) ∨ (65 ≤ c.toNat ∧ c.toNat ≤ 90) ∨
      (97 ≤ c.toNat ∧ c.toNat ≤ 122) := by
  unfold digitValue at hc
  dsimp only at hc
  split at hc
  next h => exact .inl h
  next =>
    split at hc
    next h => exact .inr (.inr h)
    next =>
      split at hc
      next h => exact .inr (.inl h)
      next => simp at hc

theorem foldlM_digits_isSome {radix acc n : Nat} {t : Text}
    (h : t.foldlM (fun acc c => (digitValue radix c).map (acc * radix + ·)) acc = some n) :
    ∀ c ∈ t, ∃ d, digitValue radix c = some d := by
  induction t generalizing acc with
  | nil => simp
  | cons c rest ih =>
      rw [List.foldlM_cons] at h
      cases hd : digitValue radix c with
      | none => simp [hd] at h
      | some d =>
          rw [hd] at h
          intro e he
          rcases List.mem_cons.mp he with rfl | he
          · exact ⟨d, hd⟩
          · exact ih h e he

theorem mem_digits_range {radix n : Nat} {t : Text} (h : digitsValue radix t = some n) {c : Char}
    (hc : c ∈ t) : (48 ≤ c.toNat ∧ c.toNat ≤ 57) ∨ (65 ≤ c.toNat ∧ c.toNat ≤ 90) ∨
      (97 ≤ c.toNat ∧ c.toNat ≤ 122) := by
  obtain ⟨d, hd⟩ := foldlM_digits_isSome h c hc
  exact digitValue_range hd

theorem isWhitespace_of_alphanumeric {c : Char} (hrange : (48 ≤ c.toNat ∧ c.toNat ≤ 57) ∨
    (65 ≤ c.toNat ∧ c.toNat ≤ 90) ∨ (97 ≤ c.toNat ∧ c.toNat ≤ 122)) : isWhitespace c = false := by
  rw [Bool.eq_false_iff]
  intro hwhite
  simp only [isWhitespace, Bool.or_eq_true, Bool.and_eq_true, decide_eq_true_eq,
    beq_iff_eq] at hwhite
  omega

theorem mem_digits_not_whitespace {radix n : Nat} {t : Text} (h : digitsValue radix t = some n) :
    ∀ c ∈ t, isWhitespace c = false :=
  fun _ hc => isWhitespace_of_alphanumeric (mem_digits_range h hc)

/-- A number is read from digits and at most one sign. -/
theorem mem_fromStrRadix_range {radix bound n : Nat} {t : Text}
    (h : fromStrRadix radix bound t = some n) {c : Char} (hc : c ∈ t) :
    c = '+' ∨ (48 ≤ c.toNat ∧ c.toNat ≤ 57) ∨ (65 ≤ c.toNat ∧ c.toNat ≤ 90) ∨
      (97 ≤ c.toNat ∧ c.toNat ≤ 122) := by
  unfold fromStrRadix at h
  split at h
  next => exact absurd h nofun
  next => exact absurd h nofun
  next digits _ =>
    rcases List.mem_cons.mp hc with rfl | hc
    · exact .inl rfl
    · exact .inr (mem_digits_range (Option.filter_eq_some_iff.mp h).1 hc)
  next =>
    exact .inr (mem_digits_range (Option.filter_eq_some_iff.mp h).1 hc)

theorem fromStrRadix_lt {radix bound n : Nat} {t : Text}
    (h : fromStrRadix radix bound t = some n) : n < bound := by
  unfold fromStrRadix at h
  split at h
  next => exact absurd h nofun
  next => exact absurd h nofun
  next => exact of_decide_eq_true (Option.filter_eq_some_iff.mp h).2
  next => exact of_decide_eq_true (Option.filter_eq_some_iff.mp h).2

/-- A nonempty digit string parses as its value, if that is below the bound. -/
theorem fromStrRadix_of_digitsValue {radix n : Nat} (bound : Nat) {t : Text} (hne : t ≠ [])
    (h : digitsValue radix t = some n) :
    fromStrRadix radix bound t = if n < bound then some n else none := by
  have hplus : ∀ rest, t ≠ '+' :: rest := by
    rintro rest rfl
    have hrange := mem_digits_range h (List.mem_cons_self (a := '+') (l := rest))
    revert hrange
    decide
  unfold fromStrRadix
  split
  next => exact absurd rfl hne
  next => exact absurd rfl (hplus [])
  next rest _ => exact absurd rfl (hplus rest)
  next => rw [h, Option.filter_some]; simp

/-! ## The digits of a number -/

theorem digitValue_ofDigit : ∀ d < 16, ∀ radix ≤ 16, d < radix →
    digitValue radix (Nat.digitChar d) = some d := by decide

theorem digitsValue_toDigits {radix : Nat} (hradix : 1 < radix) (hle : radix ≤ 16) (n : Nat) :
    digitsValue radix (Nat.toDigits radix n) = some n := by
  induction n using Nat.strong_induction_on with
  | _ n ih =>
    rw [Nat.toDigits_eq_if hradix]
    split
    next hlt =>
      rw [digitsValue, List.foldlM_cons, digitValue_ofDigit n (by omega) radix hle hlt]
      simp
    next hge =>
      have hmod : n % radix < radix := Nat.mod_lt _ (by omega)
      have hfront := ih _ (Nat.div_lt_self (by omega) hradix)
      rw [digitsValue] at hfront ⊢
      rw [List.foldlM_append, hfront]
      simp [digitValue_ofDigit _ (by omega) radix hle hmod, Nat.div_add_mod']

/-- Only zero is written with a leading zero. -/
theorem head?_toDigits {n : Nat} (hpos : 0 < n) :
    ∃ d, 0 < d ∧ d < 10 ∧ (Nat.toDigits 10 n).head? = some (Nat.digitChar d) := by
  induction n using Nat.strong_induction_on with
  | _ n ih =>
    rw [Nat.toDigits_eq_if (by decide)]
    split
    next hlt => exact ⟨n, hpos, hlt, rfl⟩
    next hge =>
      obtain ⟨d, hd, hlt, hhead⟩ := ih (n / 10) (by omega) (by omega)
      exact ⟨d, hd, hlt, by rw [List.head?_append, hhead, Option.some_or]⟩

end Zicade.Foundation
