import Zicade.Config.Json

/-! # Reading JSON

The text of a JSON value, with any whitespace between its tokens, nested at most 127
levels deep. What the printer writes is read back.
-/

namespace Zicade.Schema

open Zicade.Foundation

/-! ## Tokens -/

def isJsonSpace (c : Char) : Bool := c = ' ' || c = '\n' || c = '\r' || c = '\t'

def skipSpace (t : Text) : Text := t.dropWhile isJsonSpace

/-- The text after a mark, if that is the next token. -/
def next (mark : Char) (t : Text) : Option Text :=
  match skipSpace t with
  | [] => none
  | c :: rest => if c = mark then some rest else none

/-- A character of a string, or a UTF-16 unit given by its number. -/
inductive StringUnit
  | char (c : Char)
  | code (n : Nat)
  deriving DecidableEq, Repr

def shortEscape (c : Char) : Option Char :=
  if c = '"' ∨ c = '\\' ∨ c = '/' then some c
  else if c = 'b' then some (Char.ofNat 8)
  else if c = 'f' then some (Char.ofNat 12)
  else if c = 'n' then some '\n'
  else if c = 'r' then some '\r'
  else if c = 't' then some '\t'
  else none

/-- The units of a string up to its closing quote, and the text after it. -/
def readUnits : Text → Option (List StringUnit × Text)
  | [] => none
  | c :: rest =>
      if c = '"' then some ([], rest)
      else if c = '\\' then
        match rest with
        | [] => none
        | e :: rest =>
            if e = 'u' then
              match rest with
              | h₁ :: h₂ :: h₃ :: h₄ :: rest =>
                  match digitsValue 16 [h₁, h₂, h₃, h₄] with
                  | some n => (readUnits rest).map fun (units, t) => (.code n :: units, t)
                  | none => none
              | _ => none
            else
              match shortEscape e with
              | some c => (readUnits rest).map fun (units, t) => (.char c :: units, t)
              | none => none
      else if c.toNat < 32 then none
      else (readUnits rest).map fun (units, t) => (.char c :: units, t)

/-- A leading surrogate has to be followed by a trailing one. -/
def joinUnits : List StringUnit → Option Text
  | [] => some []
  | .char c :: rest => (joinUnits rest).map (c :: ·)
  | .code n :: rest =>
      if 0xD800 ≤ n ∧ n ≤ 0xDBFF then
        match rest with
        | .code m :: rest =>
            if 0xDC00 ≤ m ∧ m ≤ 0xDFFF then
              (joinUnits rest).map
                (Char.ofNat (0x10000 + (n - 0xD800) * 0x400 + (m - 0xDC00)) :: ·)
            else none
        | _ => none
      else if 0xDC00 ≤ n ∧ n ≤ 0xDFFF then none
      else (joinUnits rest).map (Char.ofNat n :: ·)

/-- A string after its opening quote. -/
def readString (t : Text) : Option (Text × Text) :=
  (readUnits t).bind fun (units, rest) => (joinUnits units).map fun text => (text, rest)

/-- The digits at the front of a text. -/
def frontDigits (t : Text) : Text := t.takeWhile Char.isDigit

def afterDigits (t : Text) : Text := t.dropWhile Char.isDigit

/-- A fraction, or nothing. -/
def readFraction : Text → Option (Text × Text)
  | '.' :: rest =>
      if frontDigits rest = [] then none else some ('.' :: frontDigits rest, afterDigits rest)
  | t => some ([], t)

/-- The sign of an exponent. -/
def frontSign : Text → Text × Text
  | '+' :: rest => (['+'], rest)
  | '-' :: rest => (['-'], rest)
  | t => ([], t)

/-- An exponent, or nothing. -/
def readExponent : Text → Option (Text × Text)
  | [] => some ([], [])
  | c :: rest =>
      if c = 'e' ∨ c = 'E' then
        let (sign, digits) := frontSign rest
        if frontDigits digits = [] then none
        else some (c :: sign ++ frontDigits digits, afterDigits digits)
      else some ([], c :: rest)

/-- A number is natural if it is written without a sign, a fraction or an exponent, and
fits 64 bits. -/
def numberOf (sign digits fraction exponent : Text) : Json :=
  match digitsValue 10 digits with
  | some n =>
      if sign = [] ∧ fraction = [] ∧ exponent = [] ∧ n < UInt64.size then .number n
      else .otherNumber (sign ++ digits ++ fraction ++ exponent)
  | none => .otherNumber (sign ++ digits ++ fraction ++ exponent)

def frontMinus : Text → Text × Text
  | '-' :: rest => (['-'], rest)
  | t => ([], t)

def readNumber (t : Text) : Option (Json × Text) :=
  let (sign, t) := frontMinus t
  let digits := frontDigits t
  if digits = [] ∨ (digits.head? = some '0' ∧ 1 < digits.length) then none
  else
    (readFraction (afterDigits t)).bind fun (fraction, t) =>
      (readExponent t).map fun (exponent, t) => (numberOf sign digits fraction exponent, t)

def readWord (word : Text) (value : Json) (t : Text) : Option (Json × Text) :=
  if word.isPrefixOf t then some (value, t.drop word.length) else none

/-! ## Values -/

mutual

/-- A value, nested at most `levels` deep; the fuel is for the kernel. -/
def readValue : Nat → Nat → Text → Option (Json × Text)
  | 0, _, _ => none
  | fuel + 1, levels, t =>
      match skipSpace t with
      | [] => none
      | c :: rest =>
          if c = '"' then (readString rest).map fun (text, t) => (.string text, t)
          else if c = '[' then
            match levels with
            | 0 => none
            | levels + 1 =>
                match next ']' rest with
                | some t => some (.array [], t)
                | none =>
                    (readItems fuel levels rest).map fun (items, t) => (.array items, t)
          else if c = '\x7b' then
            match levels with
            | 0 => none
            | levels + 1 =>
                match next '\x7d' rest with
                | some t => some (.object [], t)
                | none =>
                    (readFields fuel levels rest).map fun (fields, t) => (.object fields, t)
          else if c = 'n' then readWord "null".toList .null (c :: rest)
          else if c = 't' then readWord "true".toList (.boolean true) (c :: rest)
          else if c = 'f' then readWord "false".toList (.boolean false) (c :: rest)
          else readNumber (c :: rest)

/-- The items of an array, of which there is one at least, and its end. -/
def readItems : Nat → Nat → Text → Option (List Json × Text)
  | 0, _, _ => none
  | fuel + 1, levels, t =>
      (readValue fuel levels t).bind fun (item, t) =>
        match next ',' t with
        | some t => (readItems fuel levels t).map fun (items, t) => (item :: items, t)
        | none => (next ']' t).map fun t => ([item], t)

/-- The fields of an object, of which there is one at least, and its end. -/
def readFields : Nat → Nat → Text → Option (List (Text × Json) × Text)
  | 0, _, _ => none
  | fuel + 1, levels, t =>
      (next '"' t).bind fun t => (readString t).bind fun (key, t) =>
        (next ':' t).bind fun t => (readValue fuel levels t).bind fun (value, t) =>
          match next ',' t with
          | some t => (readFields fuel levels t).map fun (fields, t) => ((key, value) :: fields, t)
          | none => (next '\x7d' t).map fun t => ([(key, value)], t)

end

/-- A text that is one value. -/
def readJson (t : Text) : Option Json :=
  (readValue (2 * t.length + 2) 127 t).bind fun (value, rest) =>
    if skipSpace rest = [] then some value else none

/-! ## Strings are read back -/

theorem readUnits_short {e c : Char} (he : e ≠ 'u') (hc : shortEscape e = some c) (t : Text) :
    readUnits ('\\' :: e :: t) =
      (readUnits t).map fun (units, rest) => (.char c :: units, rest) := by
  rw [readUnits.eq_def]
  dsimp only
  rw [if_neg (by decide), if_pos rfl, if_neg he, hc]

theorem readUnits_code {h₁ h₂ h₃ h₄ : Char} {n : Nat}
    (hn : digitsValue 16 [h₁, h₂, h₃, h₄] = some n) (t : Text) :
    readUnits ('\\' :: 'u' :: h₁ :: h₂ :: h₃ :: h₄ :: t) =
      (readUnits t).map fun (units, rest) => (.code n :: units, rest) := by
  rw [readUnits.eq_def]
  dsimp only
  rw [if_neg (by decide), if_pos rfl, if_pos rfl, hn]

theorem readUnits_plain {c : Char} (hquote : c ≠ '"') (hslash : c ≠ '\\')
    (hplain : ¬ c.toNat < 32) (t : Text) :
    readUnits (c :: t) = (readUnits t).map fun (units, rest) => (.char c :: units, rest) := by
  rw [readUnits.eq_def]
  dsimp only
  rw [if_neg hquote, if_neg hslash, if_neg hplain]

/-- A printed character, as the reader sees it. -/
def unitOf (c : Char) : StringUnit :=
  if c.toNat < 32 ∧ c ≠ '\n' ∧ c ≠ '\r' ∧ c ≠ '\t' ∧ c.toNat ≠ 8 ∧ c.toNat ≠ 12 then .code c.toNat
  else .char c

theorem readUnits_escapeChar (c : Char) (t : Text) :
    readUnits (escapeChar c ++ t) =
      (readUnits t).map fun (units, rest) => (unitOf c :: units, rest) := by
  have hchar (n : Nat) (hn : c.toNat = n) : Char.ofNat n = c := hn ▸ Char.ofNat_toNat c
  unfold escapeChar unitOf
  split
  next h =>
    subst h
    exact readUnits_short (by decide) rfl t
  split
  next h =>
    subst h
    exact readUnits_short (by decide) rfl t
  split
  next h =>
    subst h
    exact readUnits_short (by decide) rfl t
  split
  next h =>
    subst h
    exact readUnits_short (by decide) rfl t
  split
  next h =>
    subst h
    exact readUnits_short (by decide) rfl t
  next hquote hslash hn hr ht =>
  split
  next h =>
    have hc := hchar 8 h
    subst hc
    exact readUnits_short (by decide) rfl t
  split
  next h =>
    have hc := hchar 12 h
    subst hc
    exact readUnits_short (by decide) rfl t
  split
  next h8 h12 hcontrol =>
    rw [if_pos ⟨hcontrol, hn, hr, ht, h8, h12⟩]
    have hhigh := digitValue_ofDigit (c.toNat / 16) (by omega) 16 le_rfl (by omega)
    have hlow := digitValue_ofDigit (c.toNat % 16) (by omega) 16 le_rfl (by omega)
    have hcode : digitsValue 16 ['0', '0', Nat.digitChar (c.toNat / 16),
        Nat.digitChar (c.toNat % 16)] = some c.toNat := by
      have hzero : digitValue 16 '0' = some 0 := by decide
      simp [digitsValue, hhigh, hlow, hzero]
      omega
    exact readUnits_code hcode t
  next h8 h12 hplain =>
    rw [if_neg (fun h => hplain h.1)]
    exact readUnits_plain hquote hslash hplain t

theorem joinUnits_unitOf (text : Text) : joinUnits (text.map unitOf) = some text := by
  induction text with
  | nil => rfl
  | cons c rest ih =>
      rw [List.map_cons, unitOf]
      split
      next hcontrol =>
        rw [joinUnits.eq_def]
        dsimp only
        rw [if_neg (by omega), if_neg (by omega), ih, Option.map_some, Char.ofNat_toNat]
      next => rw [joinUnits, ih, Option.map_some]

theorem readString_print (text rest : Text) :
    readString (text.flatMap escapeChar ++ '"' :: rest) = some (text, rest) := by
  have hunits : readUnits (text.flatMap escapeChar ++ '"' :: rest) =
      some (text.map unitOf, rest) := by
    induction text with
    | nil =>
        rw [List.flatMap_nil, List.nil_append, readUnits.eq_def]
        rfl
    | cons c text ih =>
        rw [List.flatMap_cons, List.append_assoc, readUnits_escapeChar, ih]
        rfl
  rw [readString, hunits, Option.bind_some]
  dsimp only
  rw [joinUnits_unitOf, Option.map_some]

/-! ## Numbers are read back -/

/-- The text after a number does not go on with it. -/
def Stops (t : Text) : Prop :=
  ∀ c ∈ t.head?, c.isDigit = false ∧ c ≠ '.' ∧ c ≠ 'e' ∧ c ≠ 'E'

theorem frontDigits_append {digits t : Text} (hdigits : ∀ c ∈ digits, c.isDigit = true)
    (hstops : Stops t) : frontDigits (digits ++ t) = digits ∧ afterDigits (digits ++ t) = t := by
  rw [frontDigits, afterDigits, List.takeWhile_append_of_pos hdigits,
    List.dropWhile_append_of_pos hdigits]
  cases t with
  | nil => exact ⟨List.append_nil _, rfl⟩
  | cons c rest =>
      have hc := (hstops c rfl).1
      rw [List.takeWhile_cons_of_neg (by simp [hc]), List.dropWhile_cons_of_neg (by simp [hc])]
      exact ⟨List.append_nil _, rfl⟩

theorem readFraction_of_stops {t : Text} (hstops : Stops t) : readFraction t = some ([], t) := by
  unfold readFraction
  split
  next rest => exact absurd rfl (hstops '.' rfl).2.1
  next => rfl

theorem readExponent_of_stops {t : Text} (hstops : Stops t) : readExponent t = some ([], t) := by
  cases t with
  | nil => rfl
  | cons c rest =>
      obtain ⟨-, -, hlower, hupper⟩ := hstops c rfl
      rw [readExponent, if_neg (by tauto)]

theorem readNumber_toDigits {n : Nat} (hn : n < UInt64.size) {t : Text} (hstops : Stops t) :
    readNumber (Nat.toDigits 10 n ++ t) = some (.number n, t) := by
  have hdigits (c : Char) (hc : c ∈ Nat.toDigits 10 n) : c.isDigit = true :=
    Nat.isDigit_of_mem_toDigits (by decide) (by decide) hc
  obtain ⟨hfront, hafter⟩ := frontDigits_append hdigits hstops
  have hnonempty : Nat.toDigits 10 n ≠ [] := Nat.toDigits_ne_nil
  have hsign : frontMinus (Nat.toDigits 10 n ++ t) = ([], Nat.toDigits 10 n ++ t) := by
    unfold frontMinus
    split
    next rest hminus =>
      have hhead : '-' ∈ Nat.toDigits 10 n := by
        cases hdigits' : Nat.toDigits 10 n with
        | nil => exact absurd hdigits' hnonempty
        | cons d ds =>
            rw [hdigits', List.cons_append] at hminus
            obtain ⟨rfl, -⟩ := List.cons_eq_cons.mp hminus
            exact List.mem_cons_self
      exact absurd (hdigits _ hhead) (by decide)
    next => rfl
  have hzero : ¬ ((Nat.toDigits 10 n).head? = some '0' ∧ 1 < (Nat.toDigits 10 n).length) := by
    rintro ⟨hhead, hlong⟩
    by_cases hpos : 0 < n
    · obtain ⟨d, hd, hlt, hdigit⟩ := head?_toDigits hpos
      rw [hhead, Option.some.injEq] at hdigit
      revert hdigit
      have : ∀ d < 10, 0 < d → '0' ≠ Nat.digitChar d := by decide
      exact this d hlt hd
    · obtain rfl : n = 0 := by omega
      exact absurd hlong (by decide)
  unfold readNumber
  rw [hsign]
  dsimp only
  rw [hfront, hafter, if_neg (not_or.mpr ⟨hnonempty, hzero⟩), readFraction_of_stops hstops,
    Option.bind_some]
  dsimp only
  rw [readExponent_of_stops hstops, Option.map_some, numberOf,
    digitsValue_toDigits (by decide) (by decide)]
  dsimp only
  rw [if_pos ⟨rfl, rfl, rfl, hn⟩]

/-! ## Values are read back -/

mutual

/-- Nested no deeper than so many levels, with numbers of 64 bits and no others. -/
def Json.within : Nat → Json → Bool
  | _, .null | _, .boolean _ | _, .string _ => true
  | _, .number value => value < UInt64.size
  | _, .otherNumber _ => false
  | 0, .array _ | 0, .object _ => false
  | levels + 1, .array items => itemsWithin levels items
  | levels + 1, .object fields => fieldsWithin levels fields

def itemsWithin : Nat → List Json → Bool
  | _, [] => true
  | levels, item :: rest => item.within levels && itemsWithin levels rest

def fieldsWithin : Nat → List (Text × Json) → Bool
  | _, [] => true
  | levels, (_, value) :: rest => value.within levels && fieldsWithin levels rest

end

mutual

/-- The fuel that reading the printed value takes. -/
def Json.cost : Json → Nat
  | .array items => 1 + itemsCost items
  | .object fields => 1 + fieldsCost fields
  | _ => 1

def itemsCost : List Json → Nat
  | [] => 0
  | item :: rest => 1 + item.cost + itemsCost rest

def fieldsCost : List (Text × Json) → Nat
  | [] => 0
  | (_, value) :: rest => 1 + value.cost + fieldsCost rest

end

theorem skipSpace_newLine (depth : Nat) (t : Text) :
    skipSpace (newLine depth ++ t) = skipSpace t := by
  refine List.dropWhile_append_of_pos fun c hc => ?_
  rcases List.mem_cons.mp hc with rfl | hc
  · rfl
  · obtain rfl := List.eq_of_mem_replicate hc
    rfl

theorem skipSpace_cons {c : Char} (hspace : isJsonSpace c = false) (t : Text) :
    skipSpace (c :: t) = c :: t := List.dropWhile_cons_of_neg (by simp [hspace])

theorem next_newLine (mark : Char) (depth : Nat) (t : Text) :
    next mark (newLine depth ++ t) = next mark t := by
  rw [next, next, skipSpace_newLine]

theorem next_cons {c : Char} (hspace : isJsonSpace c = false) (mark : Char) (t : Text) :
    next mark (c :: t) = if c = mark then some t else none := by
  rw [next, skipSpace_cons hspace]

theorem readValue_congr {s t : Text} (hskip : skipSpace s = skipSpace t) (fuel levels : Nat) :
    readValue fuel levels s = readValue fuel levels t := by
  cases fuel with
  | zero => rfl
  | succ fuel => simp only [readValue, hskip]

theorem stops_newLine (depth : Nat) (t : Text) : Stops (newLine depth ++ t) := by
  intro c hc
  obtain rfl := Option.some.inj hc
  decide

theorem stops_comma (t : Text) : Stops (',' :: t) := by
  intro c hc
  obtain rfl := Option.some.inj hc
  decide

/-- No value is printed as nothing, or as the end of a list. -/
theorem pretty_cons {value : Json} {levels : Nat} (hwithin : value.within levels = true)
    (depth : Nat) :
    ∃ c rest, value.pretty depth = c :: rest ∧ isJsonSpace c = false ∧ c ≠ ']' := by
  cases value with
  | null => exact ⟨_, _, rfl, by decide, by decide⟩
  | boolean value => cases value <;> exact ⟨_, _, rfl, by decide, by decide⟩
  | number value =>
      rw [Json.pretty, Nat.toList_repr]
      cases hdigits : Nat.toDigits 10 value with
      | nil => exact absurd hdigits Nat.toDigits_ne_nil
      | cons c rest =>
          have hmem : c ∈ Nat.toDigits 10 value := hdigits ▸ List.mem_cons_self
          have hdigit := Nat.isDigit_of_mem_toDigits (by decide) (by decide) hmem
          refine ⟨c, rest, rfl, ?_, ?_⟩
          · by_contra hspace
            simp only [isJsonSpace, Bool.or_eq_true, decide_eq_true_eq, Bool.not_eq_false]
              at hspace
            rcases hspace with ((rfl | rfl) | rfl) | rfl <;> exact absurd hdigit (by decide)
          · rintro rfl
            exact absurd hdigit (by decide)
  | otherNumber literal => cases levels <;> cases hwithin
  | string text => exact ⟨_, _, rfl, by decide, by decide⟩
  | array items => cases items <;> exact ⟨_, _, rfl, by decide, by decide⟩
  | object fields => cases fields <;> exact ⟨_, _, rfl, by decide, by decide⟩

theorem readValue_string (fuel levels : Nat) (t : Text) :
    readValue (fuel + 1) levels ('"' :: t) =
      (readString t).map fun (text, rest) => (.string text, rest) := by
  rw [readValue, skipSpace_cons (by decide)]
  dsimp only
  rw [if_pos rfl]

theorem readValue_array (fuel levels : Nat) (t : Text) :
    readValue (fuel + 1) (levels + 1) ('[' :: t) =
      match next ']' t with
      | some rest => some (.array [], rest)
      | none => (readItems fuel levels t).map fun (items, rest) => (.array items, rest) := by
  rw [readValue, skipSpace_cons (by decide)]
  dsimp only
  rw [if_neg (by decide), if_pos rfl]

theorem readValue_object (fuel levels : Nat) (t : Text) :
    readValue (fuel + 1) (levels + 1) ('\x7b' :: t) =
      match next '\x7d' t with
      | some rest => some (.object [], rest)
      | none => (readFields fuel levels t).map fun (fields, rest) => (.object fields, rest) := by
  rw [readValue, skipSpace_cons (by decide)]
  dsimp only
  rw [if_neg (by decide), if_neg (by decide), if_pos rfl]

theorem readValue_number {n : Nat} (hn : n < UInt64.size) (fuel levels : Nat) {t : Text}
    (hstops : Stops t) :
    readValue (fuel + 1) levels (Nat.toDigits 10 n ++ t) = some (.number n, t) := by
  have hread := readNumber_toDigits hn hstops
  cases hdigits : Nat.toDigits 10 n with
  | nil => exact absurd hdigits Nat.toDigits_ne_nil
  | cons c rest =>
      have hmem : c ∈ Nat.toDigits 10 n := hdigits ▸ List.mem_cons_self
      have hdigit := Nat.isDigit_of_mem_toDigits (by decide) (by decide) hmem
      have hne (mark : Char) (hmark : mark.isDigit = false) : c ≠ mark := by
        rintro rfl
        exact absurd hdigit (by simp [hmark])
      have hspace : isJsonSpace c = false := by simp [isJsonSpace, hne]
      rw [hdigits, List.cons_append] at hread
      rw [List.cons_append, readValue, skipSpace_cons hspace]
      dsimp only
      rw [if_neg (hne _ rfl), if_neg (hne _ rfl), if_neg (hne _ rfl), if_neg (hne _ rfl),
        if_neg (hne _ rfl), if_neg (hne _ rfl), hread]

/-- A value that is not printed as the end of a list. -/
theorem next_pretty {value : Json} {levels : Nat} (hwithin : value.within levels = true)
    (depth : Nat) (t : Text) : next ']' (newLine depth ++ (value.pretty depth ++ t)) = none := by
  obtain ⟨c, rest, hpretty, hspace, hend⟩ := pretty_cons hwithin depth
  rw [next_newLine, hpretty, List.cons_append, next_cons hspace, if_neg hend]

mutual

theorem readValue_pretty (value : Json) (depth levels fuel : Nat) (t : Text)
    (hwithin : value.within levels = true) (hfuel : value.cost ≤ fuel) (hstops : Stops t) :
    readValue fuel levels (value.pretty depth ++ t) = some (value, t) := by
  cases fuel with
  | zero => cases value <;> simp [Json.cost] at hfuel
  | succ fuel =>
    cases value with
    | null => rfl
    | boolean value => cases value <;> rfl
    | number n =>
        have hn : n < UInt64.size := by cases levels <;> exact of_decide_eq_true hwithin
        rw [Json.pretty, Nat.toList_repr]
        exact readValue_number hn fuel _ hstops
    | otherNumber literal => cases levels <;> cases hwithin
    | string text =>
        rw [Json.pretty, printString, List.cons_append, List.append_assoc, readValue_string,
          List.singleton_append, readString_print]
        rfl
    | array items =>
      cases levels with
      | zero => cases hwithin
      | succ levels =>
        cases items with
        | nil =>
            change readValue (fuel + 1) (levels + 1) ('[' :: ']' :: t) = _
            rw [readValue_array, next_cons (by decide)]
            rfl
        | cons first rest =>
            simp only [Json.within, itemsWithin, Bool.and_eq_true] at hwithin
            simp only [Json.cost, itemsCost] at hfuel
            simp only [Json.pretty, List.cons_append, List.append_assoc, List.nil_append]
            rw [readValue_array, next_pretty hwithin.1]
            dsimp only
            rw [readItems_pretty first rest (depth + 1) depth levels fuel t hwithin.1 hwithin.2
              (by omega)]
            rfl
    | object fields =>
      cases levels with
      | zero => cases hwithin
      | succ levels =>
        cases fields with
        | nil =>
            change readValue (fuel + 1) (levels + 1) ('\x7b' :: '\x7d' :: t) = _
            rw [readValue_object, next_cons (by decide)]
            rfl
        | cons first rest =>
            obtain ⟨key, value⟩ := first
            simp only [Json.within, fieldsWithin, Bool.and_eq_true] at hwithin
            simp only [Json.cost, fieldsCost] at hfuel
            simp only [Json.pretty, List.cons_append, List.append_assoc, List.nil_append]
            have hfields := readFields_pretty key value rest (depth + 1) depth levels fuel t
              hwithin.1 hwithin.2 (by omega)
            rw [readValue_object, hfields]
            simp only [prettyField, printString, List.cons_append]
            rw [next_newLine, next_cons (by decide)]
            rfl
termination_by fuel

theorem readItems_pretty (first : Json) (rest : List Json) (depth outer levels fuel : Nat)
    (t : Text) (hfirst : first.within levels = true) (hrest : itemsWithin levels rest = true)
    (hfuel : 1 + first.cost + itemsCost rest ≤ fuel) :
    readItems fuel levels (newLine depth ++ (first.pretty depth ++ (prettyItems depth rest ++
      (newLine outer ++ ']' :: t)))) = some (first :: rest, t) := by
  cases fuel with
  | zero => omega
  | succ fuel =>
    rw [readItems, readValue_congr (skipSpace_newLine _ _)]
    cases rest with
    | nil =>
        simp only [prettyItems, List.nil_append]
        rw [readValue_pretty first depth levels fuel _ hfirst (by omega) (stops_newLine _ _),
          Option.bind_some]
        dsimp only
        rw [next_newLine, next_cons (by decide), if_neg (by decide)]
        dsimp only
        rw [next_newLine, next_cons (by decide), if_pos rfl, Option.map_some]
    | cons second others =>
        simp only [itemsWithin, Bool.and_eq_true] at hrest
        simp only [itemsCost] at hfuel
        simp only [prettyItems, List.cons_append, List.append_assoc]
        rw [readValue_pretty first depth levels fuel _ hfirst (by omega) (stops_comma _),
          Option.bind_some]
        dsimp only
        rw [next_cons (by decide), if_pos rfl]
        dsimp only
        rw [readItems_pretty second others depth outer levels fuel t hrest.1 hrest.2 (by omega),
          Option.map_some]
termination_by fuel

theorem readFields_pretty (key : Text) (value : Json) (rest : List (Text × Json))
    (depth outer levels fuel : Nat) (t : Text) (hvalue : value.within levels = true)
    (hrest : fieldsWithin levels rest = true)
    (hfuel : 1 + value.cost + fieldsCost rest ≤ fuel) :
    readFields fuel levels (newLine depth ++ (prettyField depth (key, value) ++
      (prettyFields depth rest ++ (newLine outer ++ '\x7d' :: t)))) =
        some ((key, value) :: rest, t) := by
  cases fuel with
  | zero => omega
  | succ fuel =>
    have hcolon (text : Text) : next ':' (": ".toList ++ text) = some (' ' :: text) := rfl
    have hblank (text : Text) : skipSpace (' ' :: text) = skipSpace text := rfl
    simp only [prettyField, printString, List.cons_append, List.append_assoc, List.nil_append]
    rw [readFields, next_newLine, next_cons (by decide), if_pos rfl, Option.bind_some,
      readString_print, Option.bind_some]
    dsimp only
    rw [hcolon, Option.bind_some, readValue_congr (hblank _)]
    cases rest with
    | nil =>
        simp only [prettyFields, List.nil_append]
        rw [readValue_pretty value depth levels fuel _ hvalue (by omega) (stops_newLine _ _),
          Option.bind_some]
        dsimp only
        rw [next_newLine, next_cons (by decide), if_neg (by decide)]
        dsimp only
        rw [next_newLine, next_cons (by decide), if_pos rfl, Option.map_some]
    | cons second others =>
        obtain ⟨key₂, value₂⟩ := second
        simp only [fieldsWithin, Bool.and_eq_true] at hrest
        simp only [fieldsCost] at hfuel
        simp only [prettyFields, List.cons_append, List.append_assoc]
        rw [readValue_pretty value depth levels fuel _ hvalue (by omega) (stops_comma _),
          Option.bind_some]
        dsimp only
        rw [next_cons (by decide), if_pos rfl]
        dsimp only
        rw [readFields_pretty key₂ value₂ others depth outer levels fuel t hrest.1 hrest.2
          (by omega), Option.map_some]
termination_by fuel

end

theorem itemsCost_le {items : List Json} {depth levels : Nat}
    (hall : ∀ item ∈ items, item.within levels = true →
      item.cost ≤ 2 * (item.pretty depth).length)
    (hwithin : itemsWithin levels items = true) :
    itemsCost items ≤ 2 * (prettyItems depth items).length := by
  induction items with
  | nil => exact Nat.zero_le _
  | cons first rest ih =>
      simp only [itemsWithin, Bool.and_eq_true] at hwithin
      have hfirst := hall first List.mem_cons_self hwithin.1
      have hrest := ih (fun item hmem => hall item (List.mem_cons_of_mem _ hmem)) hwithin.2
      simp only [itemsCost, prettyItems, List.cons_append, List.length_append, List.length_cons]
      omega

theorem fieldsCost_le {fields : List (Text × Json)} {depth levels : Nat}
    (hall : ∀ field ∈ fields, field.2.within levels = true →
      field.2.cost ≤ 2 * (field.2.pretty depth).length)
    (hwithin : fieldsWithin levels fields = true) :
    fieldsCost fields ≤ 2 * (prettyFields depth fields).length := by
  induction fields with
  | nil => exact Nat.zero_le _
  | cons first rest ih =>
      obtain ⟨key, value⟩ := first
      simp only [fieldsWithin, Bool.and_eq_true] at hwithin
      have hfirst : value.cost ≤ 2 * (value.pretty depth).length :=
        hall (key, value) List.mem_cons_self hwithin.1
      have hrest := ih (fun field hmem => hall field (List.mem_cons_of_mem _ hmem)) hwithin.2
      simp only [fieldsCost, prettyFields, prettyField, List.cons_append, List.length_append,
        List.length_cons]
      omega

/-- The fuel that the reader starts with is enough. -/
theorem cost_le {value : Json} {levels : Nat} (hwithin : value.within levels = true)
    (depth : Nat) : value.cost ≤ 2 * (value.pretty depth).length := by
  induction hsize : sizeOf value using Nat.strong_induction_on generalizing value levels depth with
  | _ size ih =>
    subst hsize
    obtain ⟨c, rest, hpretty, -⟩ := pretty_cons hwithin depth
    cases value with
    | array items =>
      cases levels with
      | zero => cases hwithin
      | succ levels =>
        have hitems : itemsCost items ≤ 2 * (prettyItems (depth + 1) items).length := by
          refine itemsCost_le (fun item hmem hitem => ih _ ?_ hitem _ rfl) hwithin
          have := List.sizeOf_lt_of_mem hmem
          simp only [Json.array.sizeOf_spec]
          omega
        cases items with
        | nil => simp [Json.cost, itemsCost, Json.pretty]
        | cons first rest =>
            simp only [prettyItems, List.cons_append, List.length_append, List.length_cons]
              at hitems
            simp only [Json.cost, Json.pretty, List.cons_append, List.length_append,
              List.length_cons]
            omega
    | object fields =>
      cases levels with
      | zero => cases hwithin
      | succ levels =>
        have hfields : fieldsCost fields ≤ 2 * (prettyFields (depth + 1) fields).length := by
          refine fieldsCost_le (fun field hmem hfield => ih _ ?_ hfield _ rfl) hwithin
          have hlt := List.sizeOf_lt_of_mem hmem
          obtain ⟨key, value⟩ := field
          simp only [Json.object.sizeOf_spec, Prod.mk.sizeOf_spec] at hlt ⊢
          omega
        cases fields with
        | nil => simp [Json.cost, fieldsCost, Json.pretty]
        | cons first rest =>
            simp only [prettyFields, List.cons_append, List.length_append, List.length_cons]
              at hfields
            simp only [Json.cost, Json.pretty, List.cons_append, List.length_append,
              List.length_cons]
            omega
    | _ =>
        rw [hpretty, List.length_cons]
        simp only [Json.cost]
        omega

/-- What is printed is read back, as long as the reader can hold it. -/
theorem readJson_pretty {value : Json} (hwithin : value.within 127 = true) :
    readJson (value.pretty 0) = some value := by
  have hcost := cost_le hwithin 0
  have hread := readValue_pretty value 0 127 (2 * (value.pretty 0).length + 2) [] hwithin
    (by omega) (by simp [Stops])
  rw [List.append_nil] at hread
  rw [readJson, hread, Option.bind_some]
  exact if_pos rfl

end Zicade.Schema
