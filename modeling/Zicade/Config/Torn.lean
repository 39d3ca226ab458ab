import Zicade.Config.Load
import Zicade.Config.Validate

/-! # Files that break off

Reading a value does not depend on what follows it, except that a number may go on. So a
text that breaks off before the end of a saved config reads as no config: what was read of
it would be read of the whole text too, and something would be left over.
-/

namespace Zicade.Schema

open Zicade.Foundation

/-! ## What a reader has read stays read -/

theorem skipSpace_append {t : Text} (hne : skipSpace t ≠ []) (more : Text) :
    skipSpace (t ++ more) = skipSpace t ++ more := by
  rw [skipSpace, List.dropWhile_append, if_neg (by simpa [skipSpace] using hne), ← skipSpace]

theorem skipSpace_ne_nil_of_next {mark : Char} {t rest : Text} (hnext : next mark t = some rest) :
    skipSpace t ≠ [] := by
  intro hnil
  rw [next, hnil] at hnext
  cases hnext

theorem ne_nil_of_next {mark : Char} {t rest : Text} (hnext : next mark t = some rest) :
    t ≠ [] := by
  rintro rfl
  exact skipSpace_ne_nil_of_next hnext rfl

theorem next_append {mark : Char} {t : Text} (hne : skipSpace t ≠ []) (more : Text) :
    next mark (t ++ more) = (next mark t).map (· ++ more) := by
  rw [next, next, skipSpace_append hne]
  cases hskip : skipSpace t with
  | nil => exact absurd hskip hne
  | cons c rest =>
      rw [List.cons_append]
      dsimp only
      split <;> rfl

theorem next_append_some {mark : Char} {t rest : Text} (hnext : next mark t = some rest)
    (more : Text) : next mark (t ++ more) = some (rest ++ more) := by
  rw [next_append (skipSpace_ne_nil_of_next hnext), hnext, Option.map_some]

theorem readUnits_append {t rest : Text} {units : List StringUnit}
    (hread : readUnits t = some (units, rest)) (more : Text) :
    readUnits (t ++ more) = some (units, rest ++ more) := by
  fun_induction readUnits t generalizing units with
  | case1 => cases hread
  | case2 t =>
      obtain ⟨rfl, rfl⟩ := Prod.mk.inj (Option.some.inj hread)
      rw [List.cons_append, readUnits.eq_def]
      rfl
  | case3 => cases hread
  | case4 h₁ h₂ h₃ h₄ t n hcode _ ih =>
      obtain ⟨⟨later, _⟩, hlater, heq⟩ := Option.map_eq_some_iff.mp hread
      obtain ⟨rfl, rfl⟩ := Prod.mk.inj heq
      simp only [List.cons_append]
      rw [readUnits_code hcode, ih hlater, Option.map_some]
  | case5 => cases hread
  | case6 => cases hread
  | case7 e t hcode c hshort _ ih =>
      obtain ⟨⟨later, _⟩, hlater, heq⟩ := Option.map_eq_some_iff.mp hread
      obtain ⟨rfl, rfl⟩ := Prod.mk.inj heq
      simp only [List.cons_append]
      rw [readUnits_short hcode hshort, ih hlater, Option.map_some]
  | case8 => cases hread
  | case9 => cases hread
  | case10 c t hquote hslash hplain ih =>
      obtain ⟨⟨later, _⟩, hlater, heq⟩ := Option.map_eq_some_iff.mp hread
      obtain ⟨rfl, rfl⟩ := Prod.mk.inj heq
      rw [List.cons_append, readUnits_plain hquote hslash hplain, ih hlater, Option.map_some]

theorem readString_append {t text rest : Text} (hread : readString t = some (text, rest))
    (more : Text) : readString (t ++ more) = some (text, rest ++ more) := by
  obtain ⟨⟨units, _⟩, hunits, htext⟩ := Option.bind_eq_some_iff.mp hread
  obtain ⟨_, hjoin, heq⟩ := Option.map_eq_some_iff.mp htext
  obtain ⟨rfl, rfl⟩ := Prod.mk.inj heq
  rw [readString, readUnits_append hunits, Option.bind_some]
  dsimp only
  rw [hjoin, Option.map_some]

/-- The digits at the front are the same if something that is no digit follows them. -/
theorem frontDigits_more {t : Text} (hne : afterDigits t ≠ []) (more : Text) :
    frontDigits (t ++ more) = frontDigits t ∧ afterDigits (t ++ more) = afterDigits t ++ more := by
  have hshort : (t.takeWhile Char.isDigit).length ≠ t.length := by
    intro hlength
    have hall := List.takeWhile_append_dropWhile (p := Char.isDigit) (l := t)
    have hsum := congrArg List.length hall
    rw [List.length_append, hlength] at hsum
    exact hne (List.eq_nil_of_length_eq_zero (Nat.add_eq_left.mp hsum))
  rw [frontDigits, afterDigits, List.takeWhile_append, List.dropWhile_append, if_neg hshort,
    if_neg (by simpa [afterDigits] using hne)]
  exact ⟨rfl, rfl⟩

theorem readFraction_append {t fraction rest : Text}
    (hread : readFraction t = some (fraction, rest))
    (hne : rest ≠ []) (more : Text) :
    readFraction (t ++ more) = some (fraction, rest ++ more) := by
  unfold readFraction at hread
  split at hread
  next t =>
    split at hread
    next => cases hread
    next hdigits =>
      obtain ⟨rfl, rfl⟩ := Prod.mk.inj (Option.some.inj hread)
      obtain ⟨hfront, hafter⟩ := frontDigits_more hne more
      rw [List.cons_append, readFraction, hfront, hafter, if_neg hdigits]
  next hpoint =>
    obtain ⟨rfl, rfl⟩ := Prod.mk.inj (Option.some.inj hread)
    cases t with
    | nil => exact absurd rfl hne
    | cons c rest =>
        unfold readFraction
        split
        next heq => exact absurd (List.cons_eq_cons.mp heq).1 fun hc => hpoint rest (by rw [hc])
        next => rfl

theorem frontSign_append {t : Text} (hne : t ≠ []) (more : Text) :
    frontSign (t ++ more) = ((frontSign t).1, (frontSign t).2 ++ more) := by
  cases t with
  | nil => exact absurd rfl hne
  | cons c rest =>
      rw [List.cons_append]
      unfold frontSign
      split <;> split <;> simp_all

theorem readExponent_append {t exponent rest : Text}
    (hread : readExponent t = some (exponent, rest)) (hne : rest ≠ []) (more : Text) :
    readExponent (t ++ more) = some (exponent, rest ++ more) := by
  cases t with
  | nil =>
      obtain ⟨rfl, rfl⟩ := Prod.mk.inj (Option.some.inj hread)
      exact absurd rfl hne
  | cons c t =>
    rw [readExponent] at hread
    rw [List.cons_append, readExponent]
    split at hread
    next hmark =>
      dsimp only at hread
      split at hread
      next => cases hread
      next hdigits =>
        obtain ⟨rfl, rfl⟩ := Prod.mk.inj (Option.some.inj hread)
        have ht : t ≠ [] := by
          rintro rfl
          exact hdigits rfl
        obtain ⟨hfront, hafter⟩ := frontDigits_more hne more
        rw [if_pos hmark, frontSign_append ht]
        dsimp only
        rw [hfront, hafter, if_neg hdigits]
    next hmark =>
      obtain ⟨rfl, rfl⟩ := Prod.mk.inj (Option.some.inj hread)
      rw [if_neg hmark]
      rfl

theorem frontMinus_append {t : Text} (hne : t ≠ []) (more : Text) :
    frontMinus (t ++ more) = ((frontMinus t).1, (frontMinus t).2 ++ more) := by
  cases t with
  | nil => exact absurd rfl hne
  | cons c rest =>
      rw [List.cons_append]
      unfold frontMinus
      split <;> split <;> simp_all

/-- A fraction or an exponent takes nothing off the end of a text. -/
theorem ne_nil_of_readExponent {t exponent rest : Text}
    (hread : readExponent t = some (exponent, rest)) (hne : rest ≠ []) : t ≠ [] := by
  rintro rfl
  obtain ⟨-, rfl⟩ := Prod.mk.inj (Option.some.inj hread)
  exact hne rfl

theorem ne_nil_of_readFraction {t fraction rest : Text}
    (hread : readFraction t = some (fraction, rest)) (hne : rest ≠ []) : t ≠ [] := by
  rintro rfl
  obtain ⟨-, rfl⟩ := Prod.mk.inj (Option.some.inj hread)
  exact hne rfl

theorem readNumber_append {t rest : Text} {value : Json}
    (hread : readNumber t = some (value, rest)) (hne : rest ≠ []) (more : Text) :
    readNumber (t ++ more) = some (value, rest ++ more) := by
  have ht : t ≠ [] := by
    rintro rfl
    cases hread
  unfold readNumber at hread ⊢
  dsimp only at hread
  split at hread
  next => cases hread
  next hdigits =>
    obtain ⟨⟨fraction, afterFraction⟩, hfraction, hread⟩ := Option.bind_eq_some_iff.mp hread
    obtain ⟨⟨exponent, _⟩, hexponent, heq⟩ := Option.map_eq_some_iff.mp hread
    obtain ⟨rfl, rfl⟩ := Prod.mk.inj heq
    have hafter := ne_nil_of_readExponent hexponent hne
    obtain ⟨hfront, hmore⟩ := frontDigits_more (ne_nil_of_readFraction hfraction hafter) more
    rw [frontMinus_append ht]
    dsimp only
    rw [hfront, hmore, if_neg hdigits, readFraction_append hfraction hafter, Option.bind_some]
    dsimp only
    rw [readExponent_append hexponent hne, Option.map_some]

theorem readWord_append {word t rest : Text} {value read : Json}
    (hread : readWord word value t = some (read, rest)) (more : Text) :
    readWord word value (t ++ more) = some (read, rest ++ more) := by
  unfold readWord at hread
  split at hread
  next hfront =>
    obtain ⟨rfl, rfl⟩ := Prod.mk.inj (Option.some.inj hread)
    obtain ⟨back, rfl⟩ := List.isPrefixOf_iff_prefix.mp hfront
    have hlonger : word.isPrefixOf (word ++ back ++ more) = true :=
      List.isPrefixOf_iff_prefix.mpr ⟨back ++ more, (List.append_assoc ..).symm⟩
    rw [readWord, if_pos hlonger, List.append_assoc, List.drop_left, List.drop_left]
  next => cases hread

/-! ## Values -/

def Json.isNumber : Json → Bool
  | .number _ | .otherNumber _ => true
  | _ => false

theorem readNumber_isNumber {t rest : Text} {value : Json}
    (hread : readNumber t = some (value, rest)) : value.isNumber = true := by
  unfold readNumber at hread
  dsimp only at hread
  split at hread
  next => cases hread
  next =>
    obtain ⟨⟨fraction, _⟩, -, hread⟩ := Option.bind_eq_some_iff.mp hread
    obtain ⟨⟨exponent, _⟩, -, heq⟩ := Option.map_eq_some_iff.mp hread
    obtain ⟨rfl, -⟩ := Prod.mk.inj heq
    unfold numberOf
    split
    next => split <;> rfl
    next => rfl

/-- Nothing is read of nothing. -/
theorem skipSpace_ne_nil_of_readValue {fuel levels : Nat} {t rest : Text} {value : Json}
    (hread : readValue fuel levels t = some (value, rest)) : skipSpace t ≠ [] := by
  intro hnil
  cases fuel with
  | zero => cases hread
  | succ fuel =>
      rw [readValue, hnil] at hread
      cases hread

theorem skipSpace_ne_nil_of_readItems {fuel levels : Nat} {t rest : Text} {items : List Json}
    (hread : readItems fuel levels t = some (items, rest)) : skipSpace t ≠ [] := by
  cases fuel with
  | zero => cases hread
  | succ fuel =>
      rw [readItems] at hread
      obtain ⟨⟨item, t⟩, hitem, -⟩ := Option.bind_eq_some_iff.mp hread
      exact skipSpace_ne_nil_of_readValue hitem

theorem skipSpace_ne_nil_of_readFields {fuel levels : Nat} {t rest : Text}
    {fields : List (Text × Json)} (hread : readFields fuel levels t = some (fields, rest)) :
    skipSpace t ≠ [] := by
  cases fuel with
  | zero => cases hread
  | succ fuel =>
      rw [readFields] at hread
      obtain ⟨t, hquote, -⟩ := Option.bind_eq_some_iff.mp hread
      exact skipSpace_ne_nil_of_next hquote

mutual

/-- A value that was read is read again if more text follows, unless it is a number
that ends where the text did. -/
theorem readValue_append {fuel more levels : Nat} {t rest : Text} {value : Json}
    (hread : readValue fuel levels t = some (value, rest))
    (hends : value.isNumber = true → rest ≠ []) (hfuel : fuel ≤ more) (back : Text) :
    readValue more levels (t ++ back) = some (value, rest ++ back) := by
  cases fuel with
  | zero => cases hread
  | succ fuel =>
    obtain ⟨more, rfl⟩ : ∃ rounds, more = rounds + 1 := ⟨more - 1, by omega⟩
    have hne := skipSpace_ne_nil_of_readValue hread
    rw [readValue, skipSpace_append hne]
    rw [readValue] at hread
    cases hskip : skipSpace t with
    | nil => exact absurd hskip hne
    | cons c after =>
      rw [hskip] at hread
      rw [List.cons_append]
      dsimp only at hread ⊢
      split_ifs at hread ⊢ with hquote hbracket hbrace hnull htrue hfalse
      · obtain ⟨⟨text, _⟩, hstring, heq⟩ := Option.map_eq_some_iff.mp hread
        obtain ⟨rfl, rfl⟩ := Prod.mk.inj heq
        rw [readString_append hstring, Option.map_some]
      · cases levels with
        | zero => cases hread
        | succ levels =>
          dsimp only at hread ⊢
          cases hend : next ']' after with
          | some after =>
              rw [hend] at hread
              obtain ⟨rfl, rfl⟩ := Prod.mk.inj (Option.some.inj hread)
              rw [next_append_some hend]
          | none =>
              rw [hend] at hread
              obtain ⟨⟨items, _⟩, hitems, heq⟩ := Option.map_eq_some_iff.mp hread
              obtain ⟨rfl, rfl⟩ := Prod.mk.inj heq
              -- the text goes on with its first item, so more text closes no array here
              rw [next_append (skipSpace_ne_nil_of_readItems hitems), hend, Option.map_none]
              dsimp only
              rw [readItems_append hitems (by omega), Option.map_some]
      · cases levels with
        | zero => cases hread
        | succ levels =>
          dsimp only at hread ⊢
          cases hend : next '\x7d' after with
          | some after =>
              rw [hend] at hread
              obtain ⟨rfl, rfl⟩ := Prod.mk.inj (Option.some.inj hread)
              rw [next_append_some hend]
          | none =>
              rw [hend] at hread
              obtain ⟨⟨fields, _⟩, hfields, heq⟩ := Option.map_eq_some_iff.mp hread
              obtain ⟨rfl, rfl⟩ := Prod.mk.inj heq
              rw [next_append (skipSpace_ne_nil_of_readFields hfields), hend, Option.map_none]
              dsimp only
              rw [readFields_append hfields (by omega), Option.map_some]
      · exact readWord_append hread back
      · exact readWord_append hread back
      · exact readWord_append hread back
      · exact readNumber_append hread (hends (readNumber_isNumber hread)) back
termination_by fuel

theorem readItems_append {fuel more levels : Nat} {t rest : Text} {items : List Json}
    (hread : readItems fuel levels t = some (items, rest)) (hfuel : fuel ≤ more) (back : Text) :
    readItems more levels (t ++ back) = some (items, rest ++ back) := by
  cases fuel with
  | zero => cases hread
  | succ fuel =>
    obtain ⟨more, rfl⟩ : ∃ rounds, more = rounds + 1 := ⟨more - 1, by omega⟩
    rw [readItems] at hread ⊢
    obtain ⟨⟨item, afterItem⟩, hitem, hread⟩ := Option.bind_eq_some_iff.mp hread
    dsimp only at hread
    cases hcomma : next ',' afterItem with
    | some after =>
        rw [hcomma] at hread
        obtain ⟨⟨others, _⟩, hothers, heq⟩ := Option.map_eq_some_iff.mp hread
        obtain ⟨rfl, rfl⟩ := Prod.mk.inj heq
        rw [readValue_append hitem (fun _ => ne_nil_of_next hcomma) (by omega), Option.bind_some]
        dsimp only
        rw [next_append_some hcomma]
        dsimp only
        rw [readItems_append hothers (by omega), Option.map_some]
    | none =>
        rw [hcomma] at hread
        obtain ⟨_, hend, heq⟩ := Option.map_eq_some_iff.mp hread
        obtain ⟨rfl, rfl⟩ := Prod.mk.inj heq
        rw [readValue_append hitem (fun _ => ne_nil_of_next hend) (by omega), Option.bind_some]
        dsimp only
        rw [next_append (skipSpace_ne_nil_of_next hend), hcomma, Option.map_none]
        dsimp only
        rw [next_append_some hend, Option.map_some]
termination_by fuel

theorem readFields_append {fuel more levels : Nat} {t rest : Text}
    {fields : List (Text × Json)} (hread : readFields fuel levels t = some (fields, rest))
    (hfuel : fuel ≤ more) (back : Text) :
    readFields more levels (t ++ back) = some (fields, rest ++ back) := by
  cases fuel with
  | zero => cases hread
  | succ fuel =>
    obtain ⟨more, rfl⟩ : ∃ rounds, more = rounds + 1 := ⟨more - 1, by omega⟩
    rw [readFields] at hread ⊢
    obtain ⟨afterQuote, hquote, hread⟩ := Option.bind_eq_some_iff.mp hread
    obtain ⟨⟨key, afterKey⟩, hkey, hread⟩ := Option.bind_eq_some_iff.mp hread
    obtain ⟨afterColon, hcolon, hread⟩ := Option.bind_eq_some_iff.mp hread
    obtain ⟨⟨value, afterValue⟩, hvalue, hread⟩ := Option.bind_eq_some_iff.mp hread
    dsimp only at hread
    rw [next_append_some hquote, Option.bind_some, readString_append hkey, Option.bind_some]
    dsimp only
    rw [next_append_some hcolon, Option.bind_some]
    cases hcomma : next ',' afterValue with
    | some after =>
        rw [hcomma] at hread
        obtain ⟨⟨others, _⟩, hothers, heq⟩ := Option.map_eq_some_iff.mp hread
        obtain ⟨rfl, rfl⟩ := Prod.mk.inj heq
        rw [readValue_append hvalue (fun _ => ne_nil_of_next hcomma) (by omega), Option.bind_some]
        dsimp only
        rw [next_append_some hcomma]
        dsimp only
        rw [readFields_append hothers (by omega), Option.map_some]
    | none =>
        rw [hcomma] at hread
        obtain ⟨_, hend, heq⟩ := Option.map_eq_some_iff.mp hread
        obtain ⟨rfl, rfl⟩ := Prod.mk.inj heq
        rw [readValue_append hvalue (fun _ => ne_nil_of_next hend) (by omega), Option.bind_some]
        dsimp only
        rw [next_append (skipSpace_ne_nil_of_next hend), hcomma, Option.map_none]
        dsimp only
        rw [next_append_some hend, Option.map_some]
termination_by fuel

end

/-! ## A saved config that breaks off -/

/-- No text that breaks off before the end of a printed object is a JSON text. -/
theorem readJson_torn {fields : List (Text × Json)} {front back : Text}
    (hwithin : (Json.object fields).within 127 = true)
    (htext : (Json.object fields).pretty 0 = front ++ back) (hback : back ≠ []) :
    readJson front = none := by
  cases hread : readJson front with
  | none => rfl
  | some value =>
    exfalso
    obtain ⟨⟨value, rest⟩, hvalue, -⟩ := Option.bind_eq_some_iff.mp hread
    have hobject : value.isNumber = false := by
      cases front with
      | nil => cases hvalue
      | cons c after =>
          obtain rfl : c = '\x7b' := by
            cases fields <;> exact (List.cons_eq_cons.mp htext).1.symm
          rw [readValue_object] at hvalue
          split at hvalue
          next => rw [← (Prod.mk.inj (Option.some.inj hvalue)).1]; rfl
          next =>
            obtain ⟨⟨_, _⟩, -, heq⟩ := Option.map_eq_some_iff.mp hvalue
            rw [← (Prod.mk.inj heq).1]
            rfl
    have hcost := cost_le hwithin 0
    have hwhole := readValue_pretty (.object fields) 0 127
      (2 * ((Json.object fields).pretty 0).length + 2) [] hwithin (by omega) (by simp [Stops])
    have hfuel : 2 * front.length + 2 ≤ 2 * ((Json.object fields).pretty 0).length + 2 := by
      rw [htext, List.length_append]
      omega
    have hlonger := readValue_append hvalue (by simp [hobject]) hfuel back
    rw [List.append_nil, htext] at hwhole
    rw [htext, hwhole] at hlonger
    have hrest := (Prod.mk.inj (Option.some.inj hlonger)).2
    exact hback (List.append_eq_nil_iff.mp hrest.symm).2

/-- Of what a saved text breaks off to, the reader takes nothing but JSON texts. -/
def SerdeJson.RefusesTorn (serde : SerdeJson) : Prop :=
  ∀ (config : Config) (front : Text), front <+: toJsonString config →
    readJson front = none → serde.fromStr front = none

theorem fromJsonStr_torn {serde : SerdeJson} (hserde : serde.RefusesTorn) {config : Config}
    {front back : Text} (htext : toJsonString config = front ++ back) (hback : back ≠ []) :
    fromJsonStr serde front = .error .malformed := by
  have hnone : readJson front = none := readJson_torn (config.within_toJson 123) htext hback
  rw [fromJsonStr, hserde config front ⟨back, htext.symm⟩ hnone]

/-! ## The file -/

/-- `load_file` fails on reading the file, or on what is in it. -/
inductive LoadFileError
  | io (path : String) (source : IoError)
  | notUtf8 (path : String)
  | parse (source : LoadError)
  deriving DecidableEq, Repr

def fileNotFound : IoError := ⟨.notFound, "No such file or directory (os error 2)"⟩

/-- The bytes that reading a file gives, unless it fails on its own. -/
def readFile (failure : Option IoError) (disk : Option Bytes) : Except IoError Bytes :=
  match failure with
  | some err => .error err
  | none =>
      match disk with
      | none => .error fileNotFound
      | some bytes => .ok bytes

/-- `load_file` on what reading the file gives. -/
def loadFile (serde : SerdeJson) (path : String) :
    Except IoError Bytes → Except LoadFileError Config
  | .error err => .error (.io path err)
  | .ok bytes =>
      match fromUtf8 bytes with
      | none => .error (.notUtf8 path)
      | some text =>
          match fromJsonStr serde text with
          | .error err => .error (.parse err)
          | .ok config => .ok config

theorem loadFile_saved (serde : SerdeJson) (path : String) (config : Config) :
    loadFile serde path (.ok (asBytes (toJsonString config))) = .ok config := by
  simp only [loadFile, fromUtf8_asBytes, fromJsonStr_saved]

/-- What a write that broke off left of a saved config loads as nothing, whether or not it
broke off inside a character. -/
theorem loadFile_torn {serde : SerdeJson} (hserde : serde.RefusesTorn) (path : String)
    {config : Config} {written : Nat} (htorn : written < (asBytes (toJsonString config)).length) :
    loadFile serde path (.ok ((asBytes (toJsonString config)).take written)) =
        .error (.notUtf8 path) ∨
      loadFile serde path (.ok ((asBytes (toJsonString config)).take written)) =
        .error (.parse .malformed) := by
  cases hread : fromUtf8 ((asBytes (toJsonString config)).take written) with
  | none =>
      left
      simp only [loadFile, hread]
  | some front =>
      right
      have hbytes := asBytes_of_fromUtf8 hread
      obtain ⟨back, htext⟩ := prefix_of_asBytes_prefix (hbytes ▸ List.take_prefix _ _)
      have hback : back ≠ [] := by
        rintro rfl
        rw [List.append_nil] at htext
        have hlength := congrArg List.length hbytes
        rw [htext, List.length_take] at hlength
        omega
      simp only [loadFile, hread, fromJsonStr_torn hserde htext.symm hback]

/-- The reader of this development takes nothing but JSON texts. -/
theorem serdeJson_refusesTorn : serdeJson.RefusesTorn := fun _ _ _ => id

/-- The write broke off between the two bytes of the user name's last character. -/
theorem loadFile_torn_insideChar :
    (asBytes (toJsonString accentedConfig))[266]? = some 0xC3 ∧
      (loadFile serdeJson "config.json"
          (.ok ((asBytes (toJsonString accentedConfig)).take 267)) =
            .error (.notUtf8 "config.json") ∨
        loadFile serdeJson "config.json"
          (.ok ((asBytes (toJsonString accentedConfig)).take 267)) =
            .error (.parse .malformed)) :=
  ⟨by decide +kernel, loadFile_torn serdeJson_refusesTorn "config.json" (by decide +kernel)⟩

end Zicade.Schema
