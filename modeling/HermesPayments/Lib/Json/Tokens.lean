import Mathlib.Data.List.TakeWhile
import HermesPayments.Lib.Json.Loads

/-!
# `Lib.Json.Tokens` — reading back one written token

A scanner of number literals leaves the text after its literal alone, provided that text starts with nothing a
number could go on with (`scanNumber_append`), and finds the sign and the digits of a printed integer
(`scanNumber_int`). A string literal is read up to its closing quote, each code point back from its escape, the two
halves of one that the writer splits joined again (`readString_quoted`). Nothing is assumed of the string or of the
number.
-/

namespace Lib

/-! ## Numbers -/

namespace Literal

/-- A character that may stand in a number literal. -/
def numberChar (c : Char) : Bool := c.isDigit || ['.', 'e', 'E', '+', '-'].contains c

/-- The text goes on with something that is no part of a number. -/
def Stops (rest : List Char) : Prop := ∀ c ∈ rest.head?, numberChar c = false

section

variable {rest : List Char}

theorem Stops.nil : Stops [] := nofun

theorem Stops.cons {c : Char} (h : numberChar c = false) : Stops (c :: rest) := by
  rintro d ⟨⟩
  exact h

theorem Stops.ne {c d : Char} {cs : List Char} (h : Stops (c :: cs)) (hd : numberChar d = true) : c ≠ d := by
  rintro rfl
  rw [h c rfl] at hd
  cases hd

theorem scanDigits_append (text : List Char) (h : Stops rest) :
    scanDigits (text ++ rest) = ((scanDigits text).1, (scanDigits text).2 ++ rest) := by
  induction text with
  | nil =>
      cases rest with
      | nil => rfl
      | cons c cs =>
          have hc : c.isDigit = false := by
            have := h c rfl
            simp only [numberChar, Bool.or_eq_false_iff] at this
            exact this.1
          simp [scanDigits, hc]
  | cons d ds ih =>
      simp only [scanDigits, Prod.mk.injEq] at ih ⊢
      cases hd : d.isDigit with
      | true => simpa [hd] using ih
      | false => simp [hd]

theorem scanSign_append (text : List Char) (h : Stops rest) :
    scanSign (text ++ rest) = ((scanSign text).1, (scanSign text).2 ++ rest) := by
  cases text with
  | nil =>
      cases rest with
      | nil => rfl
      | cons c cs => simp [scanSign, h.ne (d := '+') rfl, h.ne (d := '-') rfl]
  | cons d ds =>
      rw [List.cons_append]
      unfold scanSign
      split <;> simp_all

theorem scanMinus_append (text : List Char) (h : Stops rest) :
    scanMinus (text ++ rest) = ((scanMinus text).1, (scanMinus text).2 ++ rest) := by
  cases text with
  | nil =>
      cases rest with
      | nil => rfl
      | cons c cs => simp [scanMinus, h.ne (d := '-') rfl]
  | cons d ds =>
      rw [List.cons_append]
      unfold scanMinus
      split <;> simp_all

theorem scanWhole_of_ne {c : Char} {cs : List Char} (hc : c ≠ '0') :
    scanWhole (c :: cs) = if (scanDigits (c :: cs)).1 = [] then none else some (scanDigits (c :: cs)) := by
  unfold scanWhole
  split
  · next heq =>
    injection heq with heq _
    exact absurd heq hc
  · generalize scanDigits (c :: cs) = found
    obtain ⟨_ | ⟨d, digits⟩, left⟩ := found <;> rfl

theorem scanWhole_append {text whole left : List Char} (h : Stops rest)
    (hw : scanWhole text = some (whole, left)) : scanWhole (text ++ rest) = some (whole, left ++ rest) := by
  cases text with
  | nil => cases hw
  | cons d ds =>
      by_cases hd : d = '0'
      · subst hd
        cases hw
        rfl
      · have happend := scanDigits_append (d :: ds) h
        rw [scanWhole_of_ne hd] at hw
        rw [List.cons_append] at happend ⊢
        rw [scanWhole_of_ne hd, happend]
        split at hw
        · cases hw
        · next hne =>
          rw [if_neg hne, Option.some.inj hw]

theorem scanFraction_append (text : List Char) (h : Stops rest) :
    scanFraction (text ++ rest) = ((scanFraction text).1, (scanFraction text).2 ++ rest) := by
  cases text with
  | nil =>
      cases rest with
      | nil => rfl
      | cons c cs => simp [scanFraction, h.ne (d := '.') rfl]
  | cons d ds =>
      by_cases hd : d = '.'
      · subst hd
        simp only [List.cons_append, scanFraction, scanDigits_append ds h]
        generalize scanDigits ds = found
        obtain ⟨_ | ⟨d, digits⟩, left⟩ := found <;> rfl
      · simp [scanFraction, hd]

theorem scanExponent_append (text : List Char) (h : Stops rest) :
    scanExponent (text ++ rest) = ((scanExponent text).1, (scanExponent text).2 ++ rest) := by
  cases text with
  | nil =>
      cases rest with
      | nil => rfl
      | cons c cs => simp [scanExponent, h.ne (d := 'e') rfl, h.ne (d := 'E') rfl]
  | cons d ds =>
      simp only [List.cons_append, scanExponent, scanSign_append ds h, scanDigits_append _ h]
      split
      · generalize scanDigits (scanSign ds).2 = found
        obtain ⟨_ | ⟨d, digits⟩, left⟩ := found <;> rfl
      · rfl

theorem scanNumber_eq (text : List Char) : scanNumber text = (scanWhole (scanMinus text).2).map fun found =>
    (((scanMinus text).1, found.1, (scanFraction found.2).1 ++ (scanExponent (scanFraction found.2).2).1),
      (scanExponent (scanFraction found.2).2).2) := rfl

/-- A number literal is read up to the text after it. -/
theorem scanNumber_append {text left : List Char} {parts : List Char × List Char × List Char} (h : Stops rest)
    (hn : scanNumber text = some (parts, left)) : scanNumber (text ++ rest) = some (parts, left ++ rest) := by
  rw [scanNumber_eq] at hn ⊢
  obtain ⟨⟨whole, r⟩, hw, heq⟩ := Option.map_eq_some_iff.mp hn
  obtain ⟨rfl, rfl⟩ := Prod.mk.inj heq
  rw [scanMinus_append text h, scanWhole_append h hw, Option.map_some]
  simp only [scanFraction_append _ h, scanExponent_append _ h]

/-! ### Printed integers -/

theorem toDigits_head {n : Nat} (h : n ≠ 0) : ∃ d ds, Nat.toDigits 10 n = d :: ds ∧ d ≠ '0' := by
  induction n using Nat.strong_induction_on with
  | _ n ih =>
      by_cases hlt : n < 10
      · refine ⟨_, [], Nat.toDigits_of_lt_base hlt, ?_⟩
        rwa [ne_eq, Nat.digitChar_eq_zero]
      · obtain ⟨d, ds, heq, hd⟩ := ih (n / 10) (by omega) (by omega)
        refine ⟨d, ds ++ [(n % 10).digitChar], ?_, hd⟩
        rw [Nat.toDigits_of_base_le (by omega) (by omega), heq, List.cons_append]

theorem scanDigits_toDigits (n : Nat) : scanDigits (Nat.toDigits 10 n) = (Nat.toDigits 10 n, []) := by
  have hall : ∀ c ∈ Nat.toDigits 10 n, c.isDigit = true :=
    fun c hc => Nat.isDigit_of_mem_toDigits (by omega) (by omega) hc
  unfold scanDigits
  rw [List.takeWhile_eq_self_iff.mpr hall, List.dropWhile_eq_nil_iff.mpr hall]

theorem scanWhole_toDigits (n : Nat) : scanWhole (Nat.toDigits 10 n) = some (Nat.toDigits 10 n, []) := by
  by_cases h : n = 0
  · subst h
    rfl
  · have hscan := scanDigits_toDigits n
    obtain ⟨d, ds, heq, hd⟩ := toDigits_head h
    rw [heq] at hscan ⊢
    rw [scanWhole_of_ne hd, hscan]
    rfl

/-- The text of an integer is a sign and digits. -/
theorem toList_toString (n : Int) :
    (toString n).toList = (if n < 0 then ['-'] else []) ++ Nat.toDigits 10 n.natAbs := by
  cases n with
  | ofNat m =>
      show (Nat.repr m).toList = _
      rw [Nat.toList_repr, if_neg (by simp)]
      rfl
  | negSucc m =>
      show ("-" ++ Nat.repr (m + 1)).toList = _
      rw [String.toList_append, Nat.toList_repr, if_pos (Int.negSucc_lt_zero m)]
      rfl

theorem digit_ne_minus {c : Char} (h : c.isDigit = true) : c ≠ '-' := by
  rintro rfl
  cases h

theorem scanNumber_int (n : Int) : scanNumber (toString n).toList
    = some ((if n < 0 then ['-'] else [], Nat.toDigits 10 n.natAbs, []), []) := by
  have hminus : scanMinus (toString n).toList = (if n < 0 then ['-'] else [], Nat.toDigits 10 n.natAbs) := by
    rw [toList_toString]
    by_cases hn : n < 0
    · rw [if_pos hn]
      rfl
    · rw [if_neg hn]
      -- the first digit is not a sign
      cases hds : Nat.toDigits 10 n.natAbs with
      | nil => rfl
      | cons d ds =>
          have hd : d.isDigit = true :=
            Nat.isDigit_of_mem_toDigits (b := 10) (by omega) (by omega) (hds ▸ List.mem_cons_self)
          simp [scanMinus, digit_ne_minus hd]
  rw [scanNumber_eq, hminus, scanWhole_toDigits]
  rfl

end

end Literal
namespace Json

open Literal

section

variable {readFloat : String → PyFloat} {rest : List Char}

theorem readNumber_int (n : Int) (h : Stops rest) :
    readNumber readFloat ((toString n).toList ++ rest) = some (.int n, rest) := by
  unfold readNumber
  rw [scanNumber_append h (scanNumber_int n)]
  simp only [Option.bind_eq_bind, Option.bind_some, if_true, Nat.ofDigitChars_ten_toDigits, List.nil_append]
  by_cases hn : n < 0
  · rw [if_pos hn, if_neg (by simp)]
    congr 3
    omega
  · rw [if_neg hn, if_pos rfl]
    congr 3
    omega

theorem readNumber_float {text : String} (hlit : isFloat text.toList = true) (h : Stops rest) :
    readNumber readFloat (text.toList ++ rest) = some (.float (readFloat text), rest) := by
  unfold isFloat at hlit
  split at hlit
  · next sign whole tail hscan =>
    simp only [Bool.and_eq_true, decide_eq_true_eq] at hlit
    obtain ⟨htext, htail⟩ := hlit
    unfold readNumber
    rw [scanNumber_append h hscan]
    simp only [Option.bind_eq_bind, Option.bind_some, List.nil_append]
    rw [if_neg htail, htext, String.ofList_toList]
  · cases hlit

/-! ## Strings -/

theorem hexValue_hexDigit : ∀ n < 16, hexValue (hexDigit n) = some n := by decide

/-- The digits of a 16-bit code unit. -/
def hexDigits4 (n : Nat) : List Char :=
  [hexDigit (n / 4096 % 16), hexDigit (n / 256 % 16), hexDigit (n / 16 % 16), hexDigit (n % 16)]

theorem readHex4_digits {n : Nat} (hn : n < 65536) (text : List Char) :
    readHex4 (hexDigits4 n ++ text) = some (n, text) := by
  have hlt (m : Nat) : m % 16 < 16 := Nat.mod_lt _ (by omega)
  simp only [hexDigits4, List.cons_append, List.nil_append, readHex4, hexValue_hexDigit _ (hlt _),
    Option.bind_eq_bind, Option.bind_some, Option.some.injEq, Prod.mk.injEq, and_true]
  omega

/-- A character is not half of a surrogate pair. -/
theorem char_valid (c : Char) : c.toNat < 55296 ∨ 57343 < c.toNat ∧ c.toNat < 1114112 := c.valid

theorem ofNat_char (c : Char) : CodePoint.ofNat c.toNat = .char c := by
  have hvalid := char_valid c
  rw [CodePoint.ofNat, dif_neg (by omega), Char.ofNat_toNat]

theorem ofNat_half (s : Surrogate) : CodePoint.ofNat s.code = .half s := by
  rw [CodePoint.ofNat, dif_pos s.range]

/-- The two halves of a surrogate pair, and the code point they stand for. -/
theorem surrogates {n : Nat} (hlow : 65536 ≤ n) (hhigh : n < 1114112) : ∃ high low,
    55296 + (n - 65536) / 1024 = high ∧ 56320 + (n - 65536) % 1024 = low ∧
      (55296 ≤ high ∧ high ≤ 56319) ∧ (56320 ≤ low ∧ low ≤ 57343) ∧
      65536 + (high - 55296) * 1024 + (low - 56320) = n := by
  have hrem : (n - 65536) % 1024 < 1024 := Nat.mod_lt _ (by decide)
  have hdiv := Nat.div_add_mod (n - 65536) 1024
  generalize (n - 65536) / 1024 = q at *
  generalize (n - 65536) % 1024 = r at *
  exact ⟨_, _, rfl, rfl, by omega, by omega, by omega⟩

/-- The high half that the writer escapes for a character outside the basic plane. -/
def highHalf (c : Char) : CodePoint := .ofNat (55296 + (c.toNat - 65536) / 1024)

def lowHalf (c : Char) : CodePoint := .ofNat (56320 + (c.toNat - 65536) % 1024)

theorem join?_halves {c : Char} (hc : ¬ c.toNat < 65536) : CodePoint.join? (highHalf c) (lowHalf c) = some c := by
  have hvalid := char_valid c
  obtain ⟨high, low, hhigh, hlow, hrange, hrange', hcode⟩ := surrogates (n := c.toNat) (by omega) (by omega)
  rw [highHalf, lowHalf, hhigh, hlow, CodePoint.ofNat, CodePoint.ofNat, dif_pos (by omega), dif_pos (by omega)]
  simp only [CodePoint.join?]
  rw [if_pos (by omega), hcode, Char.ofNat_toNat]

/-- A high half makes no pair with what is in front of it. -/
theorem apart_highHalf (p : CodePoint) {c : Char} (hc : ¬ c.toNat < 65536) : CodePoint.Apart p (highHalf c) := by
  have hvalid := char_valid c
  obtain ⟨high, _, hhigh, _, hrange, _⟩ := surrogates (n := c.toNat) (by omega) (by omega)
  rw [highHalf, hhigh, CodePoint.ofNat, dif_pos (by omega)]
  cases p with
  | char d => rfl
  | half s =>
      show CodePoint.join? _ _ = none
      simp only [CodePoint.join?]
      rw [if_neg (by omega)]

/-- The code points that the escape of one is read as: for a character outside the basic plane, two when the writer
    escapes it. -/
def escapedPoints (ascii : Bool) : CodePoint → List CodePoint
  | .char c => if ascii = true ∧ ¬ c.toNat < 65536 then [highHalf c, lowHalf c] else [.char c]
  | .half s => [.half s]

/-- In front of any code point's escape there is a pair only if there was one in front of the code point. -/
theorem apart_head_escapedPoints {ascii : Bool} {p q : CodePoint} (h : CodePoint.Apart p q) (rest : List CodePoint) :
    ∀ r ∈ (escapedPoints ascii q ++ rest).head?, CodePoint.Apart p r := by
  intro r hr
  cases q with
  | half s =>
      cases hr
      exact h
  | char c =>
      by_cases hpair : ascii = true ∧ ¬ c.toNat < 65536
      · rw [escapedPoints, if_pos hpair] at hr
        cases hr
        exact apart_highHalf p hpair.2
      · rw [escapedPoints, if_neg hpair] at hr
        cases hr
        exact h

/-- **Joining undoes escaping** where no pair was left. -/
theorem joinPairs_escaped (ascii : Bool) {ps : List CodePoint} (h : ps.IsChain CodePoint.Apart) :
    joinPairs (ps.flatMap (escapedPoints ascii)) = ps := by
  induction ps with
  | nil => rfl
  | cons p ps ih =>
      obtain ⟨hhead, hchain⟩ : (∀ q ∈ (ps.flatMap (escapedPoints ascii)).head?, CodePoint.Apart p q) ∧
          ps.IsChain CodePoint.Apart := by
        cases h with
        | singleton _ => exact ⟨by simp, .nil⟩
        | cons_cons hapart hrest =>
            rw [List.flatMap_cons]
            exact ⟨apart_head_escapedPoints hapart _, hrest⟩
      have hrest := ih hchain
      rw [List.flatMap_cons]
      cases p with
      | half s =>
          rw [escapedPoints, List.singleton_append, joinPairs_cons hhead, hrest]
      | char c =>
          by_cases hpair : ascii = true ∧ ¬ c.toNat < 65536
          · rw [escapedPoints, if_pos hpair, List.cons_append, List.singleton_append,
              joinPairs_pair (join?_halves hpair.2), hrest]
          · rw [escapedPoints, if_neg hpair, List.singleton_append, joinPairs_cons (by simp), hrest]

/-- A backslash and what follows it. -/
theorem readChars_backslash {n : Nat} {p : CodePoint} {text rest : List Char}
    (h : readEscape text = some (p, rest)) :
    readChars (n + 1) ('\\' :: text) = (readChars n rest).map (fun found => (p :: found.1, found.2)) := by
  rw [readChars, if_neg (by decide), if_pos rfl, h]
  simp only [Option.bind_eq_bind, Option.bind_some]
  cases hread : readChars n rest <;> rfl

theorem readChars_unicode {m : Nat} (hm : m < 65536) (n : Nat) (text : List Char) :
    readChars (n + 1) (unicodeEscape m ++ text)
      = (readChars n text).map (fun found => (CodePoint.ofNat m :: found.1, found.2)) := by
  refine readChars_backslash ?_
  show readEscape ('u' :: (hexDigits4 m ++ text)) = _
  have hunicode : readEscape ('u' :: (hexDigits4 m ++ text)) = readUnicode (hexDigits4 m ++ text) := by
    simp [readEscape, dquote]
  rw [hunicode, readUnicode, readHex4_digits hm]
  rfl

/-- One character of the basic plane, however it is escaped, is read as that character. -/
theorem readChars_escapeChar {ascii : Bool} {c : Char} (hc : ¬ (ascii = true ∧ ¬ c.toNat < 65536)) (n : Nat)
    (text : List Char) : readChars (n + 1) (escapeChar ascii c ++ text)
      = (readChars n text).map (fun found => (.char c :: found.1, found.2)) := by
  unfold escapeChar
  by_cases h₁ : c = '\\'
  · rw [if_pos h₁, h₁]
    exact readChars_backslash rfl
  rw [if_neg h₁]
  by_cases h₂ : c = Char.ofNat 34
  · rw [if_pos h₂, h₂]
    exact readChars_backslash rfl
  rw [if_neg h₂]
  by_cases h₃ : c = '\n'
  · rw [if_pos h₃, h₃]
    exact readChars_backslash rfl
  rw [if_neg h₃]
  by_cases h₄ : c = '\r'
  · rw [if_pos h₄, h₄]
    exact readChars_backslash rfl
  rw [if_neg h₄]
  by_cases h₅ : c = '\t'
  · rw [if_pos h₅, h₅]
    exact readChars_backslash rfl
  rw [if_neg h₅]
  by_cases h₆ : c = Char.ofNat 8
  · rw [if_pos h₆, h₆]
    exact readChars_backslash rfl
  rw [if_neg h₆]
  by_cases h₇ : c = Char.ofNat 12
  · rw [if_pos h₇, h₇]
    exact readChars_backslash rfl
  rw [if_neg h₇]
  by_cases hcontrol : c.toNat < 32
  · rw [if_pos hcontrol, readChars_unicode (by omega), ofNat_char]
  rw [if_neg hcontrol]
  by_cases hascii : ascii = true ∧ 126 < c.toNat
  · have hbasic : c.toNat < 65536 := by
      by_contra hlarge
      exact hc ⟨hascii.1, hlarge⟩
    rw [if_pos hascii, if_pos hbasic, readChars_unicode hbasic, ofNat_char]
  · rw [if_neg hascii]
    show readChars (n + 1) (c :: text) = _
    rw [readChars, if_neg (show ¬ c = dquote from h₂), if_neg h₁, if_neg hcontrol]
    simp only [Option.bind_eq_bind]
    cases hread : readChars n text <;> rfl

/-- The escape of a character outside the basic plane, where the writer has one, is that of its two halves. -/
theorem escapeChar_pair {ascii : Bool} {c : Char} (hc : ascii = true ∧ ¬ c.toNat < 65536) :
    escapeChar ascii c = unicodeEscape (55296 + (c.toNat - 65536) / 1024) ++
      unicodeEscape (56320 + (c.toNat - 65536) % 1024) := by
  obtain ⟨rfl, hc⟩ := hc
  have hne {d : Char} (hd : d.toNat < 65536) : ¬ c = d := by
    rintro rfl
    exact hc hd
  unfold escapeChar
  rw [if_neg (hne (by decide)), if_neg (hne (by decide)), if_neg (hne (by decide)), if_neg (hne (by decide)),
    if_neg (hne (by decide)), if_neg (hne (by decide)), if_neg (hne (by decide)), if_neg (by omega),
    if_pos ⟨rfl, by omega⟩, if_neg hc]

/-- One code point is read from its escape as the code points it stands for. -/
theorem readChars_escapePoint (ascii : Bool) (p : CodePoint) (n : Nat) (text : List Char) :
    readChars (n + (escapedPoints ascii p).length) (escapePoint ascii p ++ text)
      = (readChars n text).map (fun found => (escapedPoints ascii p ++ found.1, found.2)) := by
  cases p with
  | half s =>
      have hcode : s.code < 65536 := by
        have := s.range
        omega
      show readChars (n + 1) (unicodeEscape s.code ++ text) = _
      rw [readChars_unicode hcode, ofNat_half]
      rfl
  | char c =>
      by_cases hpair : ascii = true ∧ ¬ c.toNat < 65536
      · have hvalid := char_valid c
        obtain ⟨high, low, hhigh, hlow, hrange, hrange', _⟩ := surrogates (n := c.toNat) (by omega) (by omega)
        rw [escapedPoints, if_pos hpair, escapePoint, escapeChar_pair hpair, highHalf, lowHalf, hhigh, hlow, List.append_assoc]
        show readChars (n + 1 + 1) _ = _
        rw [readChars_unicode (by omega), readChars_unicode (by omega), Option.map_map]
        rfl
      · rw [escapedPoints, if_neg hpair, escapePoint]
        exact readChars_escapeChar hpair n text

/-- The body of a literal is read up to its closing quote. -/
theorem readChars_quoted (ascii : Bool) (ps : List CodePoint) {n : Nat}
    (hn : (ps.flatMap (escapedPoints ascii)).length < n) :
    readChars n (ps.flatMap (escapePoint ascii) ++ dquote :: rest) = some (ps.flatMap (escapedPoints ascii), rest) := by
  induction ps generalizing n with
  | nil =>
      obtain ⟨m, rfl⟩ : ∃ m, n = m + 1 := ⟨n - 1, by simp at hn; omega⟩
      rw [List.flatMap_nil, List.flatMap_nil, List.nil_append, readChars, if_pos rfl]
  | cons p ps ih =>
      rw [List.flatMap_cons, List.length_append] at hn
      obtain ⟨m, rfl⟩ : ∃ m, n = m + (escapedPoints ascii p).length := ⟨n - (escapedPoints ascii p).length, by omega⟩
      rw [List.flatMap_cons, List.flatMap_cons, List.append_assoc, readChars_escapePoint, ih (by omega)]
      rfl

theorem length_escapeChar (ascii : Bool) (c : Char) : 1 ≤ (escapeChar ascii c).length := by
  have hite {p : Prop} [Decidable p] {a b : List Char} (ha : 1 ≤ a.length) (hb : 1 ≤ b.length) :
      1 ≤ (if p then a else b).length := by
    by_cases hp : p
    · rwa [if_pos hp]
    · rwa [if_neg hp]
  unfold escapeChar
  repeat' apply hite
  all_goals simp [unicodeEscape]

theorem length_escapedPoints (ascii : Bool) (p : CodePoint) :
    (escapedPoints ascii p).length ≤ (escapePoint ascii p).length := by
  cases p with
  | half s => simp [escapedPoints, escapePoint, unicodeEscape]
  | char c =>
      by_cases hpair : ascii = true ∧ ¬ c.toNat < 65536
      · rw [escapedPoints, if_pos hpair, escapePoint, escapeChar_pair hpair]
        simp [unicodeEscape]
      · rw [escapedPoints, if_neg hpair, escapePoint]
        exact length_escapeChar ascii c

theorem length_le_escaped (ascii : Bool) (ps : List CodePoint) :
    (ps.flatMap (escapedPoints ascii)).length ≤ (ps.flatMap (escapePoint ascii)).length := by
  induction ps with
  | nil => exact Nat.le_refl _
  | cons p ps ih =>
      have hp := length_escapedPoints ascii p
      rw [List.flatMap_cons, List.flatMap_cons, List.length_append, List.length_append]
      omega

/-- **A string is read back from its literal**, its unpaired surrogates included. -/
theorem readString_quoted (ascii : Bool) (s : PyStr) :
    readString (s.points.flatMap (escapePoint ascii) ++ dquote :: rest) = some (s, rest) := by
  have hlen := length_le_escaped ascii s.points
  have hroom : (s.points.flatMap (escapedPoints ascii)).length
      < (s.points.flatMap (escapePoint ascii) ++ dquote :: rest).length + 1 := by
    rw [List.length_append, List.length_cons]
    omega
  have hread : readChars _ (s.points.flatMap (escapePoint ascii) ++ dquote :: rest) = _ :=
    readChars_quoted ascii s.points hroom
  have hjoin : joinPairs (s.points.flatMap (escapedPoints ascii)) = s.points :=
    joinPairs_escaped ascii s.isChain_points
  rw [readString, hread]
  simp [PyStr.ofPoints_of_joinPairs hjoin]

/-- A string literal: its opening quote, then what `readString_quoted` reads. -/
theorem toList_quote (ascii : Bool) (s : PyStr) :
    (quote ascii s).toList = dquote :: (s.points.flatMap (escapePoint ascii) ++ [dquote]) := by
  simp [quote, dquote]

end

end Json
end Lib
