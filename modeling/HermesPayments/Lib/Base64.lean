import Mathlib.Data.List.Basic

/-!
# `Lib.Base64` — the standard Base64 alphabet

Three bytes are written as four characters, and a shorter group at the end is padded with `=`. The reader is the strict
one of Python: a character outside the alphabet, padding before other characters, a shorter group with other padding
than its own and an incomplete group are refused. Bits that the padding stands for are not looked at, and padding after
a full group at the end is passed over. What was written is read back (`decode_encode`).
-/

namespace Lib
namespace Base64

/-! ## The alphabet -/

/-- The character of a value below 64. -/
def digit (n : Nat) : Char :=
  if n < 26 then Char.ofNat (65 + n)
  else if n < 52 then Char.ofNat (71 + n)
  else if n < 62 then Char.ofNat (n - 4)
  else if n = 62 then '+'
  else '/'

/-- The value of a character of the alphabet. -/
def digitValue (c : Char) : Option Nat :=
  if 65 ≤ c.toNat ∧ c.toNat ≤ 90 then some (c.toNat - 65)
  else if 97 ≤ c.toNat ∧ c.toNat ≤ 122 then some (c.toNat - 71)
  else if 48 ≤ c.toNat ∧ c.toNat ≤ 57 then some (c.toNat + 4)
  else if c = '+' then some 62
  else if c = '/' then some 63
  else none

theorem digitValue_digit {n : Nat} (h : n < 64) : digitValue (digit n) = some n := by
  have hall : ∀ n < 64, digitValue (digit n) = some n := by decide
  exact hall n h

theorem digit_ne_pad {n : Nat} (h : n < 64) : digit n ≠ '=' := by
  have hall : ∀ n < 64, digit n ≠ '=' := by decide
  exact hall n h

/-! ## Writing -/

def encodeChars : List UInt8 → List Char
  | [] => []
  | [a] => [digit (a.toNat / 4), digit (a.toNat % 4 * 16), '=', '=']
  | [a, b] =>
      [digit (a.toNat / 4), digit (a.toNat % 4 * 16 + b.toNat / 16), digit (b.toNat % 16 * 4), '=']
  | a :: b :: c :: rest =>
      digit (a.toNat / 4) :: digit (a.toNat % 4 * 16 + b.toNat / 16) ::
        digit (b.toNat % 16 * 4 + c.toNat / 64) :: digit (c.toNat % 64) :: encodeChars rest

def encode (bytes : List UInt8) : String := String.ofList (encodeChars bytes)

/-! ## Reading -/

def decodeChars : List Char → Option (List UInt8)
  | [] => some []
  | w :: x :: y :: z :: rest => do
      let a ← digitValue w
      let b ← digitValue x
      if y = '=' ∧ z = '=' ∧ rest = [] then
        some [UInt8.ofNat (a * 4 + b / 16)]
      else
        let c ← digitValue y
        if z = '=' ∧ rest = [] then
          some [UInt8.ofNat (a * 4 + b / 16), UInt8.ofNat (b % 16 * 16 + c / 4)]
        else
          let d ← digitValue z
          -- Padding after a full group ends the text, however long it is.
          let bytes ← if rest.all (· == '=') then some [] else decodeChars rest
          some (UInt8.ofNat (a * 4 + b / 16) :: UInt8.ofNat (b % 16 * 16 + c / 4) :: UInt8.ofNat (c % 4 * 64 + d) :: bytes)
  | _ => none

def decode (text : String) : Option (List UInt8) := decodeChars text.toList

/-! ## The round trip -/

/-- A byte is put together again from two groups of its bits. -/
theorem ofNat_eq {a : UInt8} {n : Nat} (h : n = a.toNat) : UInt8.ofNat n = a := by
  rw [h, UInt8.ofNat_toNat]

/-- No bytes are written as padding alone. -/
theorem all_pad_encodeChars {bytes : List UInt8} (h : (encodeChars bytes).all (· == '=') = true) : bytes = [] := by
  fun_cases encodeChars bytes with
  | case1 => rfl
  | case2 a | case3 a b | case4 a b c rest =>
      have hpad := digit_ne_pad (n := a.toNat / 4) (by have := a.toNat_lt; omega)
      simp [encodeChars, hpad] at h

theorem decodeChars_encodeChars (bytes : List UInt8) : decodeChars (encodeChars bytes) = some bytes := by
  induction bytes using encodeChars.induct with
  | case1 => rfl
  | case2 a =>
      have ha := a.toNat_lt
      rw [encodeChars, decodeChars, digitValue_digit (by omega), digitValue_digit (by omega)]
      simp only [Option.bind_eq_bind, Option.bind_some, and_self, if_true]
      rw [ofNat_eq (a := a) (by omega)]
  | case3 a b =>
      have ha := a.toNat_lt
      have hb := b.toNat_lt
      have hy : digit (b.toNat % 16 * 4) ≠ '=' := digit_ne_pad (by omega)
      rw [encodeChars, decodeChars, digitValue_digit (by omega), digitValue_digit (by omega), digitValue_digit (by omega)]
      simp only [Option.bind_eq_bind, Option.bind_some, hy, false_and, if_false, and_self, if_true]
      rw [ofNat_eq (a := a) (by omega), ofNat_eq (a := b) (by omega)]
  | case4 a b c rest ih =>
      have ha := a.toNat_lt
      have hb := b.toNat_lt
      have hc := c.toNat_lt
      have hy : digit (b.toNat % 16 * 4 + c.toNat / 64) ≠ '=' := digit_ne_pad (by omega)
      have hz : digit (c.toNat % 64) ≠ '=' := digit_ne_pad (by omega)
      rw [encodeChars, decodeChars, digitValue_digit (by omega), digitValue_digit (by omega), digitValue_digit (by omega),
        digitValue_digit (by omega)]
      simp only [Option.bind_eq_bind, Option.bind_some, hy, hz, false_and, if_false]
      rw [ofNat_eq (a := a) (by omega), ofNat_eq (a := b) (by omega), ofNat_eq (a := c) (by omega)]
      -- The rest is read to its end, also where it is nothing and passes for padding.
      split
      · next hpads => rw [all_pad_encodeChars hpads]
      · simp [ih]

/-- **What was written is read back.** -/
@[simp] theorem decode_encode (bytes : List UInt8) : decode (encode bytes) = some bytes := by
  rw [decode, encode, String.toList_ofList]
  exact decodeChars_encodeChars bytes

example : encode [72, 101, 108, 108, 111] = "SGVsbG8=" := by decide

/-- Surplus padding is passed over after a full group only. -/
example : decode "AQID=" = some [1, 2, 3] ∧ decode "AQI==" = none ∧ decode "=" = none := by decide

end Base64
end Lib
