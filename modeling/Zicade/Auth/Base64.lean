import Zicade.Auth.Header

/-! # The standard base64 alphabet

The codec the header functions are given: the RFC 4648 alphabet with required
padding, and no stray bits under the padding.
-/

namespace Zicade.Auth

open Zicade.Foundation

def sextetAlphabet : Text :=
  "ABCDEFGHIJKLMNOPQRSTUVWXYZabcdefghijklmnopqrstuvwxyz0123456789+/".toList

def sextetChar (n : Nat) : Char := sextetAlphabet.getD n '='

def sextetValue (c : Char) : Option Nat :=
  if sextetAlphabet.contains c then some (sextetAlphabet.idxOf c) else none

def encodeStandard : Bytes → Text
  | [] => []
  | [a] => [sextetChar (a.toNat / 4), sextetChar (a.toNat % 4 * 16), '=', '=']
  | [a, b] =>
      [sextetChar (a.toNat / 4), sextetChar (a.toNat % 4 * 16 + b.toNat / 16),
        sextetChar (b.toNat % 16 * 4), '=']
  | a :: b :: c :: rest =>
      sextetChar (a.toNat / 4) :: sextetChar (a.toNat % 4 * 16 + b.toNat / 16) ::
        sextetChar (b.toNat % 16 * 4 + c.toNat / 64) :: sextetChar (c.toNat % 64) ::
        encodeStandard rest

/-- A group of four characters: its bytes, and whether it is a padded last one. -/
def decodeGroup (c₁ c₂ c₃ c₄ : Char) : Option (Bytes × Bool) := do
  let s₁ ← sextetValue c₁
  let s₂ ← sextetValue c₂
  let a := UInt8.ofNat (s₁ * 4 + s₂ / 16)
  if c₃ = '=' then
    if c₄ = '=' ∧ s₂ % 16 = 0 then some ([a], true) else none
  else do
    let s₃ ← sextetValue c₃
    let b := UInt8.ofNat (s₂ % 16 * 16 + s₃ / 4)
    if c₄ = '=' then
      if s₃ % 4 = 0 then some ([a, b], true) else none
    else do
      let s₄ ← sextetValue c₄
      some ([a, b, UInt8.ofNat (s₃ % 4 * 64 + s₄)], false)

def decodeStandard : Text → Option Bytes
  | [] => some []
  | c₁ :: c₂ :: c₃ :: c₄ :: rest =>
      match decodeGroup c₁ c₂ c₃ c₄ with
      | none => none
      | some (bytes, true) => if rest = [] then some bytes else none
      | some (bytes, false) => (decodeStandard rest).map (bytes ++ ·)
  | _ => none

theorem sextetValue_sextetChar {n : Nat} (hn : n < 64) :
    sextetValue (sextetChar n) = some n ∧ sextetChar n ≠ '=' := by
  have hall : ∀ n < 64, sextetValue (sextetChar n) = some n ∧ sextetChar n ≠ '=' := by
    decide +kernel
  exact hall n hn

theorem ofNat_eq {b : UInt8} {n : Nat} (hn : n = b.toNat) : UInt8.ofNat n = b := by
  rw [hn, UInt8.ofNat_toNat]

/-- Decoding inverts encoding. -/
theorem decodeStandard_encodeStandard (bytes : Bytes) :
    decodeStandard (encodeStandard bytes) = some bytes := by
  induction bytes using encodeStandard.induct with
  | case1 => rfl
  | case2 a =>
      have ha := a.toNat_lt
      have h₁ := sextetValue_sextetChar (n := a.toNat / 4) (by omega)
      have h₂ := sextetValue_sextetChar (n := a.toNat % 4 * 16) (by omega)
      have hbyte : UInt8.ofNat (a.toNat / 4 * 4 + a.toNat % 4 * 16 / 16) = a :=
        ofNat_eq (by omega)
      have hbits : a.toNat % 4 * 16 % 16 = 0 := by omega
      simp only [encodeStandard, decodeStandard, decodeGroup, h₁.1, h₂.1, hbyte, hbits,
        Option.bind_eq_bind, Option.bind_some, and_self, if_true]
  | case3 a b =>
      have ha := a.toNat_lt
      have hb := b.toNat_lt
      have h₁ := sextetValue_sextetChar (n := a.toNat / 4) (by omega)
      have h₂ := sextetValue_sextetChar (n := a.toNat % 4 * 16 + b.toNat / 16) (by omega)
      have h₃ := sextetValue_sextetChar (n := b.toNat % 16 * 4) (by omega)
      have hfirst : UInt8.ofNat (a.toNat / 4 * 4 + (a.toNat % 4 * 16 + b.toNat / 16) / 16) = a :=
        ofNat_eq (by omega)
      have hsecond : UInt8.ofNat ((a.toNat % 4 * 16 + b.toNat / 16) % 16 * 16 +
          b.toNat % 16 * 4 / 4) = b := ofNat_eq (by omega)
      have hbits : b.toNat % 16 * 4 % 4 = 0 := by omega
      simp only [encodeStandard, decodeStandard, decodeGroup, h₁.1, h₂.1, h₃.1, if_neg h₃.2, hfirst,
        hsecond, hbits, Option.bind_eq_bind, Option.bind_some, if_true]
  | case4 a b c rest ih =>
      have ha := a.toNat_lt
      have hb := b.toNat_lt
      have hc := c.toNat_lt
      have h₁ := sextetValue_sextetChar (n := a.toNat / 4) (by omega)
      have h₂ := sextetValue_sextetChar (n := a.toNat % 4 * 16 + b.toNat / 16) (by omega)
      have h₃ := sextetValue_sextetChar (n := b.toNat % 16 * 4 + c.toNat / 64) (by omega)
      have h₄ := sextetValue_sextetChar (n := c.toNat % 64) (by omega)
      have hfirst : UInt8.ofNat (a.toNat / 4 * 4 + (a.toNat % 4 * 16 + b.toNat / 16) / 16) = a :=
        ofNat_eq (by omega)
      have hsecond : UInt8.ofNat ((a.toNat % 4 * 16 + b.toNat / 16) % 16 * 16 +
          (b.toNat % 16 * 4 + c.toNat / 64) / 4) = b := ofNat_eq (by omega)
      have hthird : UInt8.ofNat ((b.toNat % 16 * 4 + c.toNat / 64) % 4 * 64 + c.toNat % 64) = c :=
        ofNat_eq (by omega)
      simp only [encodeStandard, decodeStandard, decodeGroup, h₁.1, h₂.1, h₃.1, if_neg h₃.2, h₄.1,
        if_neg h₄.2, hfirst, hsecond, hthird, ih, Option.bind_eq_bind, Option.bind_some,
        Option.map_some, List.cons_append, List.nil_append]

theorem base64Alphabet_eq : base64Alphabet = sextetAlphabet ++ ['='] := by decide +kernel

theorem sextetChar_mem (n : Nat) : sextetChar n ∈ base64Alphabet := by
  rw [base64Alphabet_eq, sextetChar, List.getD_eq_getElem?_getD]
  cases hget : sextetAlphabet[n]? with
  | none => exact List.mem_append_right _ (List.mem_singleton_self _)
  | some c => exact List.mem_append_left _ (List.mem_of_getElem? hget)

theorem mem_encodeStandard (bytes : Bytes) : ∀ c ∈ encodeStandard bytes, c ∈ base64Alphabet := by
  have hpad : '=' ∈ base64Alphabet := by
    rw [base64Alphabet_eq]
    exact List.mem_append_right _ (List.mem_singleton_self _)
  have hcons (n : Nat) {rest : Text} (hrest : ∀ c ∈ rest, c ∈ base64Alphabet) :
      ∀ c ∈ sextetChar n :: rest, c ∈ base64Alphabet :=
    List.forall_mem_cons.mpr ⟨sextetChar_mem n, hrest⟩
  have hpads (count : Nat) : ∀ c ∈ List.replicate count '=', c ∈ base64Alphabet := by
    intro c hc
    rw [List.eq_of_mem_replicate hc]
    exact hpad
  induction bytes using encodeStandard.induct with
  | case1 => nofun
  | case2 a => exact hcons _ (hcons _ (hpads 2))
  | case3 a b => exact hcons _ (hcons _ (hcons _ (hpads 1)))
  | case4 a b c rest ih => exact hcons _ (hcons _ (hcons _ (hcons _ ih)))

/-- `base64::engine::general_purpose::STANDARD`. -/
def standardBase64 : Base64 where
  encode := encodeStandard
  decode := decodeStandard
  decode_encode := decodeStandard_encodeStandard
  encode_alphabet := mem_encodeStandard

end Zicade.Auth
