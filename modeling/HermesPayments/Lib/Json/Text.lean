import HermesPayments.Lib.Json.RoundTrip
import HermesPayments.Lib.Lines

/-!
# `Lib.Json.Text` — what the text of a value looks like

A number literal is its sign, its digits and its tail, in this order (`scanNumber_parts`). The text of a value has no
control character in it (`printable_dumps`), so an object is written as one line (`line_dumps_obj`).
-/

namespace Lib

/-! ## The parts of a number literal -/

namespace Literal

/-- The text is made of characters that may stand in a number. -/
def Numeric (text : List Char) : Prop := ∀ c ∈ text, numberChar c = true

theorem Numeric.append {s t : List Char} (hs : Numeric s) (ht : Numeric t) : Numeric (s ++ t) := by
  intro c hc
  rcases List.mem_append.mp hc with hc | hc
  · exact hs c hc
  · exact ht c hc

theorem numberChar_of_isDigit {c : Char} (h : c.isDigit = true) : numberChar c = true := by
  simp [numberChar, h]

theorem Numeric.nil : Numeric [] := by
  intro c hc
  cases hc

theorem Numeric.cons {c : Char} {cs : List Char} (hc : numberChar c = true) (hcs : Numeric cs) : Numeric (c :: cs) := by
  intro d hd
  rcases List.mem_cons.mp hd with rfl | hd
  · exact hc
  · exact hcs d hd

theorem scanDigits_parts (text : List Char) :
    (scanDigits text).1 ++ (scanDigits text).2 = text ∧ Numeric (scanDigits text).1 := by
  refine ⟨List.takeWhile_append_dropWhile, ?_⟩
  intro c hc
  exact numberChar_of_isDigit (List.mem_takeWhile_imp hc)

theorem scanSign_parts (text : List Char) :
    (scanSign text).1 ++ (scanSign text).2 = text ∧ Numeric (scanSign text).1 := by
  unfold scanSign
  split
  · exact ⟨rfl, .cons rfl .nil⟩
  · exact ⟨rfl, .cons rfl .nil⟩
  · exact ⟨rfl, .nil⟩

theorem scanMinus_parts (text : List Char) :
    (scanMinus text).1 ++ (scanMinus text).2 = text ∧ Numeric (scanMinus text).1 := by
  unfold scanMinus
  split
  · exact ⟨rfl, .cons rfl .nil⟩
  · exact ⟨rfl, .nil⟩

theorem scanWhole_parts {text whole left : List Char} (h : scanWhole text = some (whole, left)) :
    whole ++ left = text ∧ Numeric whole := by
  cases text with
  | nil => cases h
  | cons c cs =>
      by_cases hc : c = '0'
      · subst hc
        cases h
        exact ⟨rfl, .cons rfl .nil⟩
      · rw [scanWhole_of_ne hc] at h
        split at h
        · cases h
        · have hparts := scanDigits_parts (c :: cs)
          rw [Option.some.inj h] at hparts
          exact hparts

theorem scanFraction_parts (text : List Char) :
    (scanFraction text).1 ++ (scanFraction text).2 = text ∧ Numeric (scanFraction text).1 := by
  unfold scanFraction
  split
  · next rest =>
    have hparts := scanDigits_parts rest
    split
    · exact ⟨rfl, .nil⟩
    · next digits left _ heq =>
      rw [heq] at hparts
      refine ⟨?_, .cons rfl hparts.2⟩
      rw [← hparts.1]
      rfl
  · exact ⟨rfl, .nil⟩

theorem scanExponent_parts (text : List Char) :
    (scanExponent text).1 ++ (scanExponent text).2 = text ∧ Numeric (scanExponent text).1 := by
  cases text with
  | nil => exact ⟨rfl, .nil⟩
  | cons c rest =>
      by_cases hc : c = 'e' ∨ c = 'E'
      · have hcnumber : numberChar c = true := by
          rcases hc with rfl | rfl <;> rfl
        have hsign := scanSign_parts rest
        have hparts := scanDigits_parts (scanSign rest).2
        rw [scanExponent, if_pos hc]
        split
        · exact ⟨rfl, .nil⟩
        · next digits left _ heq =>
          rw [heq] at hparts
          refine ⟨?_, .cons hcnumber (hsign.2.append hparts.2)⟩
          show c :: ((scanSign rest).1 ++ digits ++ left) = c :: rest
          rw [List.append_assoc, hparts.1, hsign.1]
      · rw [scanExponent, if_neg hc]
        exact ⟨rfl, .nil⟩

/-- A number literal at the start of a text is its parts in a row. -/
theorem scanNumber_parts {text sign whole tail left : List Char}
    (h : scanNumber text = some ((sign, whole, tail), left)) :
    sign ++ whole ++ tail ++ left = text ∧ Numeric (sign ++ whole ++ tail) := by
  rw [scanNumber_eq] at h
  obtain ⟨⟨whole', left'⟩, hwhole, heq⟩ := Option.map_eq_some_iff.mp h
  simp only [Prod.mk.injEq] at heq
  obtain ⟨⟨rfl, rfl, rfl⟩, rfl⟩ := heq
  have hminus := scanMinus_parts text
  have hw := scanWhole_parts hwhole
  have hfraction := scanFraction_parts left'
  have hexponent := scanExponent_parts (scanFraction left').2
  refine ⟨?_, (hminus.2.append hw.2).append (hfraction.2.append hexponent.2)⟩
  calc _ = (scanMinus text).1 ++ (whole' ++ ((scanFraction left').1 ++ ((scanExponent (scanFraction left').2).1
        ++ (scanExponent (scanFraction left').2).2))) := by simp only [List.append_assoc]
    _ = text := by rw [hexponent.1, hfraction.1, hw.1, hminus.1]

/-- A text that is one number literal is made of number characters. -/
theorem numeric_of_scanNumber {text : List Char} {parts : List Char × List Char × List Char}
    (h : scanNumber text = some (parts, [])) : Numeric text := by
  obtain ⟨sign, whole, tail⟩ := parts
  obtain ⟨htext, hnumeric⟩ := scanNumber_parts h
  rw [← htext, List.append_nil]
  exact hnumeric

end Literal

namespace Json

open Literal

/-! ## Control characters -/

/-- The text has none of the control characters before the space. -/
def Printable (text : List Char) : Prop := ∀ c ∈ text, 32 ≤ c.toNat

instance (text : List Char) : Decidable (Printable text) :=
  List.decidableBAll (fun c : Char => 32 ≤ c.toNat) text

theorem Printable.append {s t : List Char} (hs : Printable s) (ht : Printable t) : Printable (s ++ t) := by
  intro c hc
  rcases List.mem_append.mp hc with hc | hc
  · exact hs c hc
  · exact ht c hc

theorem Printable.nil : Printable [] := by
  intro c hc
  cases hc

theorem Printable.cons {c : Char} {cs : List Char} (hc : 32 ≤ c.toNat) (hcs : Printable cs) : Printable (c :: cs) := by
  intro d hd
  rcases List.mem_cons.mp hd with rfl | hd
  · exact hc
  · exact hcs d hd

theorem printable_of_numeric {text : List Char} (h : Numeric text) : Printable text := by
  intro c hc
  have hnumber := h c hc
  simp only [numberChar, Bool.or_eq_true, List.contains_iff_mem, List.mem_cons, List.not_mem_nil, or_false] at hnumber
  rcases hnumber with hdigit | rfl | rfl | rfl | rfl | rfl
  · simp only [Char.isDigit, Bool.and_eq_true, decide_eq_true_eq] at hdigit
    have hlow : (48 : UInt32).toNat ≤ c.val.toNat := hdigit.1
    have hvalue : (48 : UInt32).toNat = 48 := rfl
    show 32 ≤ c.val.toNat
    omega
  all_goals decide

theorem printable_intercalate {sep : List Char} (hsep : Printable sep) {texts : List (List Char)}
    (h : ∀ text ∈ texts, Printable text) : Printable (sep.intercalate texts) := by
  induction texts with
  | nil => exact .nil
  | cons text texts ih =>
      obtain ⟨htext, htexts⟩ := List.forall_mem_cons.mp h
      cases texts with
      | nil => simpa using htext
      | cons text' texts =>
          rw [List.intercalate_cons_cons]
          exact (htext.append hsep).append (ih htexts)

theorem printable_unicodeEscape (n : Nat) : Printable (unicodeEscape n) := by
  have hdigit (n : Nat) : 32 ≤ (hexDigit (n % 16)).toNat := by
    have hall : ∀ d < 16, 32 ≤ (hexDigit d).toNat := by decide
    exact hall _ (Nat.mod_lt _ (by omega))
  exact .cons (by decide) (.cons (by decide) (.cons (hdigit _) (.cons (hdigit _) (.cons (hdigit _) (.cons (hdigit _) .nil)))))

theorem Printable.ite {c : Prop} [Decidable c] {text text' : List Char} (h : Printable text)
    (h' : ¬ c → Printable text') : Printable (if c then text else text') := by
  by_cases hc : c
  · rw [if_pos hc]
    exact h
  · rw [if_neg hc]
    exact h' hc

theorem printable_escapeChar (ascii : Bool) (c : Char) : Printable (escapeChar ascii c) := by
  have hpair {d : Char} (hd : 32 ≤ d.toNat) : Printable ['\\', d] := .cons (by decide) (.cons hd .nil)
  unfold escapeChar
  -- the characters with an escape of their own
  refine .ite (hpair (by decide)) fun _ => .ite (hpair (by decide)) fun _ => .ite (hpair (by decide)) fun _ => ?_
  refine .ite (hpair (by decide)) fun _ => .ite (hpair (by decide)) fun _ => .ite (hpair (by decide)) fun _ => ?_
  refine .ite (hpair (by decide)) fun _ => .ite (printable_unicodeEscape _) fun hcontrol => ?_
  refine .ite (.ite (printable_unicodeEscape _) fun _ => ?_) fun _ => .cons (by omega) .nil
  exact (printable_unicodeEscape _).append (printable_unicodeEscape _)

theorem printable_escapePoint (ascii : Bool) (p : CodePoint) : Printable (escapePoint ascii p) := by
  cases p with
  | char c => exact printable_escapeChar ascii c
  | half s => exact printable_unicodeEscape s.code

theorem printable_quote (ascii : Bool) (s : PyStr) : Printable (quote ascii s).toList := by
  rw [toList_quote]
  refine .cons (by decide) (.append ?_ (.cons (by decide) .nil))
  intro c hc
  obtain ⟨p, _, hp⟩ := List.mem_flatMap.mp hc
  exact printable_escapePoint ascii p c hp

/-- The separators have no control characters. -/
structure DumpsOptions.Inline (o : DumpsOptions) : Prop where
  item : Printable o.itemSeparator.toList
  key  : Printable o.keySeparator.toList

variable {o : DumpsOptions}

/-- **The text of a value has no control characters.** -/
theorem printable_dumps (ho : o.Inline) (j : Json) : Printable (dumps o j).toList := by
  induction j using Json.induction with
  | null =>
      rw [dumps]
      decide
  | bool b => cases b <;> rw [dumps] <;> decide
  | int n =>
      rw [dumps]
      exact printable_of_numeric (numeric_of_scanNumber (scanNumber_int n))
  | float x =>
      rw [dumps]
      cases x with
      | finite exact text literal =>
          obtain ⟨parts, hscan⟩ := scanNumber_of_isFloat literal
          exact printable_of_numeric (numeric_of_scanNumber hscan)
      | nan | inf | negInf => decide
  | str s =>
      rw [dumps]
      exact printable_quote _ s
  | arr items ih =>
      rw [toList_dumps_arr (fun _ => .nan)]
      refine .cons (by decide) (.append (printable_intercalate ho.item ?_) (.cons (by decide) .nil))
      intro text htext
      simp only [List.map_map, List.mem_map, Function.comp_apply] at htext
      obtain ⟨x, hx, rfl⟩ := htext
      exact ih x hx
  | obj members ih =>
      rw [toList_dumps_obj (fun _ => .nan)]
      refine .cons (by decide) (.append (printable_intercalate ho.item ?_) (.cons (by decide) .nil))
      intro text htext
      simp only [List.map_map, List.mem_map, Function.comp_apply] at htext
      obtain ⟨m, hm, rfl⟩ := htext
      exact ((printable_quote _ _).append ho.key).append (ih m (o.mem_order.mp hm))

/-! ## Lines -/

theorem Printable.unbroken {text : List Char} (h : Printable text) : ∀ c ∈ text, lineEnd c = false := by
  intro c hc
  have hge := h c hc
  have hnewline : c ≠ '\n' := by
    rintro rfl
    exact absurd hge (by decide)
  have hreturn : c ≠ '\r' := by
    rintro rfl
    exact absurd hge (by decide)
  simp [lineEnd, hnewline, hreturn]

/-- An object starts with its brace. -/
theorem dumps_obj_cons (members : List (PyStr × Json)) : ∃ cs, (dumps o (.obj members)).toList = '\x7b' :: (cs ++ ['\x7d']) :=
  ⟨_, toList_dumps_obj (fun _ => .nan) members⟩

/-- **An object is written as one line.** -/
theorem line_dumps_obj (ho : o.Inline) (members : List (PyStr × Json)) : Line (dumps o (.obj members)).toList := by
  obtain ⟨cs, hcs⟩ := dumps_obj_cons (o := o) members
  refine ⟨?_, (printable_dumps ho _).unbroken, ?_⟩
  · rw [hcs]
    simp
  · rw [hcs]
    exact stripWhere_of_ends (by decide) (by decide)

end Json
end Lib
