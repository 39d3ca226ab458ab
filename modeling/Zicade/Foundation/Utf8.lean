import Zicade.Foundation.Text

/-! # UTF-8 encoding and lossy decoding

`String::from_utf8_lossy` as a machine fed one byte at a time. An ill-formed
sequence becomes one replacement character per maximal ill-formed prefix. The
decoder is synchronized by every ASCII byte, so it commutes with splitting at
ASCII delimiters, and it never produces an ASCII character of its own.
-/

namespace Zicade.Foundation

/-- `str::as_bytes`. -/
def asBytes (t : Text) : Bytes := t.flatMap String.utf8EncodeChar

theorem asBytes_append (front back : Text) :
    asBytes (front ++ back) = asBytes front ++ asBytes back :=
  List.flatMap_append

/-- A byte of a character is the character itself, or beyond ASCII. -/
theorem toNat_of_mem_utf8EncodeChar {c : Char} {b : UInt8} (hb : b ∈ String.utf8EncodeChar c) :
    b.toNat = c.toNat ∨ 0x80 ≤ b.toNat := by
  have hbyte (n : Nat) : (UInt8.ofNat n).toNat = n % 256 := UInt8.toNat_ofNat'
  have htoNat : c.val.toNat = c.toNat := rfl
  unfold String.utf8EncodeChar at hb
  dsimp only at hb
  split_ifs at hb
  · rw [List.mem_singleton.mp hb, hbyte]
    omega
  · simp only [List.mem_cons, List.not_mem_nil, or_false] at hb
    right
    rcases hb with rfl | rfl <;> rw [hbyte] <;> omega
  · simp only [List.mem_cons, List.not_mem_nil, or_false] at hb
    right
    rcases hb with rfl | rfl | rfl <;> rw [hbyte] <;> omega
  · simp only [List.mem_cons, List.not_mem_nil, or_false] at hb
    right
    rcases hb with rfl | rfl | rfl | rfl <;> rw [hbyte] <;> omega

/-- `String::from_utf8`. -/
def fromUtf8 (bytes : Bytes) : Option Text := bytes.toByteArray.utf8Decode?.map Array.toList

/-- A text is read back from its bytes. -/
theorem fromUtf8_asBytes (t : Text) : fromUtf8 (asBytes t) = some t := by
  have hdecode : (asBytes t).toByteArray.utf8Decode? = some t.toArray :=
    List.utf8Decode?_utf8Encode
  rw [fromUtf8, hdecode, Option.map_some]

/-- Bytes that are read as a text are the bytes of that text. -/
theorem asBytes_of_fromUtf8 {bytes : Bytes} {t : Text} (hread : fromUtf8 bytes = some t) :
    asBytes t = bytes := by
  obtain ⟨chars, hchars, rfl⟩ := Option.map_eq_some_iff.mp hread
  have hsome : bytes.toByteArray.utf8Decode?.isSome := by rw [hchars, Option.isSome_some]
  have hencode := ByteArray.utf8Encode_get_utf8Decode? (h := hsome)
  simp only [hchars, Option.get_some] at hencode
  have hbytes := congrArg (fun array => array.data.toList) hencode
  simpa [List.utf8Encode, asBytes] using hbytes

/-- The text of the front is read first. -/
theorem fromUtf8_append (t : Text) (bytes : Bytes) :
    fromUtf8 (asBytes t ++ bytes) = (fromUtf8 bytes).map (t ++ ·) := by
  induction t with
  | nil => simp [asBytes]
  | cons c rest ih =>
      have hbytes : (asBytes (c :: rest) ++ bytes).toByteArray =
          [c].utf8Encode ++ (asBytes rest ++ bytes).toByteArray := by
        simp [asBytes, List.utf8Encode_singleton]
      have hstep : fromUtf8 (asBytes (c :: rest) ++ bytes) =
          (fromUtf8 (asBytes rest ++ bytes)).map (c :: ·) := by
        rw [fromUtf8, hbytes, ByteArray.utf8Decode?_utf8Encode_singleton_append, fromUtf8,
          Option.map_map, Option.map_map]
        exact congrArg (Option.map · _) (funext fun chars => by simp)
      rw [hstep, ih, Option.map_map]
      rfl

/-- A text whose bytes are the front of the bytes of another is the front of it. -/
theorem prefix_of_asBytes_prefix {front text : Text} (hfront : asBytes front <+: asBytes text) :
    front <+: text := by
  obtain ⟨more, hmore⟩ := hfront
  have hread := fromUtf8_asBytes text
  rw [← hmore, fromUtf8_append] at hread
  obtain ⟨back, -, hback⟩ := Option.map_eq_some_iff.mp hread
  exact ⟨back, hback⟩

theorem asBytes_inj {s t : Text} (heq : asBytes s = asBytes t) : s = t := by
  have hread := congrArg fromUtf8 heq
  rw [fromUtf8_asBytes, fromUtf8_asBytes] at hread
  exact Option.some.inj hread

/-- The bytes of an ASCII text. -/
def ascii (t : Text) : Bytes := t.map fun c => UInt8.ofNat c.toNat

def isAscii (b : UInt8) : Bool := b.toNat < 0x80

/-- The character of an ASCII byte. -/
def asciiChar (b : UInt8) : Char := Char.ofNat b.toNat

def replacement : Char := '\uFFFD'

/-- A multi-byte sequence under way: the bits so far, how many bytes are still
to come, and the range the next one must lie in. Only continuation bytes can
continue it. -/
structure PendingChar where
  bits : Nat
  more : Nat
  low : Nat
  high : Nat
  continuation : 0x80 ≤ low

/-- What a leading byte announces, with the ranges of the second byte that
exclude overlong forms, surrogates, and values past the last scalar. -/
def leadByte (b : UInt8) : Option PendingChar :=
  let n := b.toNat
  if 0xC2 ≤ n ∧ n ≤ 0xDF then some ⟨n % 32, 1, 0x80, 0xBF, by decide⟩
  else if n = 0xE0 then some ⟨n % 16, 2, 0xA0, 0xBF, by decide⟩
  else if n = 0xED then some ⟨n % 16, 2, 0x80, 0x9F, by decide⟩
  else if 0xE1 ≤ n ∧ n ≤ 0xEF then some ⟨n % 16, 2, 0x80, 0xBF, by decide⟩
  else if n = 0xF0 then some ⟨n % 8, 3, 0x90, 0xBF, by decide⟩
  else if 0xF1 ≤ n ∧ n ≤ 0xF3 then some ⟨n % 8, 3, 0x80, 0xBF, by decide⟩
  else if n = 0xF4 then some ⟨n % 8, 3, 0x80, 0x8F, by decide⟩
  else none

/-- The character with a multi-byte code point. -/
def scalar (n : Nat) : Char := if 0x80 ≤ n ∧ n.isValidChar then Char.ofNat n else replacement

def feedFresh (b : UInt8) : Text × Option PendingChar :=
  if isAscii b then ([asciiChar b], none)
  else match leadByte b with
    | some pending => ([], some pending)
    | none => ([replacement], none)

/-- One byte: the characters it completes and the sequence then under way. -/
def feedByte (pending : Option PendingChar) (b : UInt8) : Text × Option PendingChar :=
  match pending with
  | none => feedFresh b
  | some p =>
      if p.low ≤ b.toNat ∧ b.toNat ≤ p.high then
        let bits := p.bits * 64 + b.toNat % 64
        if p.more ≤ 1 then ([scalar bits], none)
        else ([], some ⟨bits, p.more - 1, 0x80, 0xBF, by decide⟩)
      else (replacement :: (feedFresh b).1, (feedFresh b).2)

def decodeFrom : Option PendingChar → Bytes → Text
  | none, [] => []
  | some _, [] => [replacement]
  | pending, b :: rest => (feedByte pending b).1 ++ decodeFrom (feedByte pending b).2 rest

/-- `String::from_utf8_lossy`. -/
def fromUtf8Lossy (bytes : Bytes) : Text := decodeFrom none bytes

@[simp] theorem fromUtf8Lossy_nil : fromUtf8Lossy [] = [] := rfl

theorem toNat_charOfNat {n : Nat} (hvalid : n.isValidChar) : (Char.ofNat n).toNat = n := by
  rw [Char.ofNat, dif_pos hvalid]
  rfl

theorem asciiChar_toNat {b : UInt8} (hb : isAscii b) : (asciiChar b).toNat = b.toNat := by
  have hlt : b.toNat < 0x80 := by simpa [isAscii] using hb
  exact toNat_charOfNat (Or.inl (by omega))

/-- An ASCII byte ends whatever sequence was under way. -/
theorem decodeFrom_ascii (pending : Option PendingChar) {b : UInt8} (rest : Bytes)
    (hb : isAscii b) :
    decodeFrom pending (b :: rest) =
      decodeFrom pending [] ++ asciiChar b :: fromUtf8Lossy rest := by
  have hfresh : feedFresh b = ([asciiChar b], none) := by rw [feedFresh, if_pos hb]
  cases pending with
  | none => simp [decodeFrom, feedByte, hfresh, fromUtf8Lossy]
  | some p =>
      have hlow : ¬(p.low ≤ b.toNat ∧ b.toNat ≤ p.high) := by
        have := p.continuation
        have hlt : b.toNat < 0x80 := by simpa [isAscii] using hb
        omega
      simp [decodeFrom, feedByte, hfresh, hlow, fromUtf8Lossy]

theorem decodeFrom_append_ascii (pending : Option PendingChar) (before : Bytes) {b : UInt8}
    (after : Bytes) (hb : isAscii b) :
    decodeFrom pending (before ++ b :: after) =
      decodeFrom pending before ++ asciiChar b :: fromUtf8Lossy after := by
  induction before generalizing pending with
  | nil => exact decodeFrom_ascii pending after hb
  | cons c rest ih => simp only [List.cons_append, decodeFrom, ih, List.append_assoc]

/-- Decoding commutes with splitting at an ASCII byte. -/
theorem fromUtf8Lossy_append_cons (before : Bytes) {b : UInt8} (after : Bytes) (hb : isAscii b) :
    fromUtf8Lossy (before ++ b :: after) =
      fromUtf8Lossy before ++ asciiChar b :: fromUtf8Lossy after :=
  decodeFrom_append_ascii none before after hb

theorem fromUtf8Lossy_cons {b : UInt8} (after : Bytes) (hb : isAscii b) :
    fromUtf8Lossy (b :: after) = asciiChar b :: fromUtf8Lossy after :=
  fromUtf8Lossy_append_cons [] after hb

theorem fromUtf8Lossy_ascii_append {before : Bytes} (after : Bytes)
    (hbefore : ∀ b ∈ before, isAscii b) :
    fromUtf8Lossy (before ++ after) = before.map asciiChar ++ fromUtf8Lossy after := by
  induction before with
  | nil => rfl
  | cons b rest ih =>
      rw [List.cons_append, fromUtf8Lossy_cons _ (hbefore b List.mem_cons_self),
        ih fun c hc => hbefore c (List.mem_cons_of_mem b hc)]
      rfl

theorem fromUtf8Lossy_of_ascii {bytes : Bytes} (hbytes : ∀ b ∈ bytes, isAscii b) :
    fromUtf8Lossy bytes = bytes.map asciiChar := by
  simpa using fromUtf8Lossy_ascii_append [] hbytes

/-! ## No ASCII character out of nothing -/

theorem replacement_not_ascii : ¬replacement.toNat < 0x80 := by decide

theorem scalar_not_ascii (n : Nat) : ¬(scalar n).toNat < 0x80 := by
  unfold scalar
  split
  next hvalid => rw [toNat_charOfNat hvalid.2]; omega
  next => exact replacement_not_ascii

theorem feedFresh_ascii {b : UInt8} {c : Char} (hc : c ∈ (feedFresh b).1)
    (hascii : c.toNat < 0x80) : c = asciiChar b ∧ isAscii b := by
  unfold feedFresh at hc
  split at hc
  next hb => exact ⟨by simpa using hc, hb⟩
  next =>
    split at hc
    next => simp at hc
    next =>
      rw [List.mem_singleton] at hc
      exact absurd hascii (hc ▸ replacement_not_ascii)

theorem feedByte_ascii {pending : Option PendingChar} {b : UInt8} {c : Char}
    (hc : c ∈ (feedByte pending b).1) (hascii : c.toNat < 0x80) :
    c = asciiChar b ∧ isAscii b := by
  unfold feedByte at hc
  split at hc
  next => exact feedFresh_ascii hc hascii
  next p =>
    split at hc
    next =>
      dsimp only at hc
      split at hc
      next =>
        rw [List.mem_singleton] at hc
        exact absurd hascii (hc ▸ scalar_not_ascii _)
      next => simp at hc
    next =>
      rcases List.mem_cons.mp hc with rfl | hc
      · exact absurd hascii replacement_not_ascii
      · exact feedFresh_ascii hc hascii

/-- Every ASCII character of a decoding is an ASCII byte of its input. -/
theorem exists_byte_of_mem_decodeFrom {pending : Option PendingChar} {bytes : Bytes} {c : Char}
    (hc : c ∈ decodeFrom pending bytes) (hascii : c.toNat < 0x80) :
    ∃ b ∈ bytes, c = asciiChar b ∧ isAscii b := by
  induction bytes generalizing pending with
  | nil =>
      cases pending with
      | none => simp [decodeFrom] at hc
      | some p =>
          rw [decodeFrom, List.mem_singleton] at hc
          exact absurd hascii (hc ▸ replacement_not_ascii)
  | cons b rest ih =>
      rw [decodeFrom, List.mem_append] at hc
      rcases hc with hc | hc
      · exact ⟨b, List.mem_cons_self, feedByte_ascii hc hascii⟩
      · obtain ⟨d, hd, heq⟩ := ih hc
        exact ⟨d, List.mem_cons_of_mem b hd, heq⟩

/-- A decoding holds an ASCII character only where the input holds its byte. -/
theorem not_mem_fromUtf8Lossy {bytes : Bytes} {c : Char} (hascii : c.toNat < 0x80)
    (hnot : UInt8.ofNat c.toNat ∉ bytes) : c ∉ fromUtf8Lossy bytes := by
  intro hc
  obtain ⟨b, hb, rfl, hb'⟩ := exists_byte_of_mem_decodeFrom hc hascii
  rw [asciiChar_toNat hb', UInt8.ofNat_toNat] at hnot
  exact hnot hb

/-! ## Round trip of ASCII text -/

theorem asciiChar_ofNat {c : Char} (hc : c.toNat < 0x80) :
    asciiChar (UInt8.ofNat c.toNat) = c := by
  rw [asciiChar, UInt8.toNat_ofNat_of_lt' (by simpa using (by omega : c.toNat < 256)),
    Char.ofNat_toNat]

theorem isAscii_ofNat {c : Char} (hc : c.toNat < 0x80) : isAscii (UInt8.ofNat c.toNat) := by
  rw [isAscii, UInt8.toNat_ofNat_of_lt' (by simpa using (by omega : c.toNat < 256))]
  exact decide_eq_true hc

theorem isAscii_of_mem_ascii {t : Text} (ht : ∀ c ∈ t, c.toNat < 0x80) :
    ∀ b ∈ ascii t, isAscii b := by
  intro b hb
  obtain ⟨c, hc, rfl⟩ := List.mem_map.mp hb
  exact isAscii_ofNat (ht c hc)

theorem map_asciiChar_ascii {t : Text} (ht : ∀ c ∈ t, c.toNat < 0x80) :
    (ascii t).map asciiChar = t := by
  rw [ascii, List.map_map]
  conv_rhs => rw [← List.map_id t]
  exact List.map_congr_left fun c hc => asciiChar_ofNat (ht c hc)

/-- An ASCII text has one byte for each character. -/
theorem asBytes_of_ascii {t : Text} (ht : ∀ c ∈ t, c.toNat < 0x80) : asBytes t = ascii t := by
  induction t with
  | nil => rfl
  | cons c rest ih =>
      have hc : String.utf8EncodeChar c = [UInt8.ofNat c.toNat] :=
        if_pos (Nat.le_of_lt_succ (ht c List.mem_cons_self))
      rw [asBytes, List.flatMap_cons, hc, ← asBytes,
        ih fun d hd => ht d (List.mem_cons_of_mem c hd)]
      rfl

/-- Decoding the bytes of an ASCII text gives the text back. -/
theorem fromUtf8Lossy_ascii_text {t : Text} (after : Bytes) (ht : ∀ c ∈ t, c.toNat < 0x80) :
    fromUtf8Lossy (ascii t ++ after) = t ++ fromUtf8Lossy after := by
  rw [fromUtf8Lossy_ascii_append after (isAscii_of_mem_ascii ht), map_asciiChar_ascii ht]

end Zicade.Foundation
