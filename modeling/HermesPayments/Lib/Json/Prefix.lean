import HermesPayments.Lib.Json.Text
import Mathlib.Data.List.Find

/-!
# `Lib.Json.Prefix` — a document cut short is no document

The reader looks no further than the end of what it reads: text behind a value does not change how the value is read,
provided that a number is followed by something that ends it (`readValue_extend`). So an object that was written and then
cut short cannot be read (`loads_cut`), and neither can one with more text behind it (`loads_trailing`).
-/

namespace Lib

/-! ## Numbers -/

namespace Literal

/-- The text starts with something that ends a number. -/
def Closed (text : List Char) : Prop := ∃ c cs, text = c :: cs ∧ numberChar c = false

theorem Closed.stops {text : List Char} (h : Closed text) (more : List Char) : Stops (text ++ more) := by
  obtain ⟨c, cs, rfl, hc⟩ := h
  exact .cons hc

/-- A text that starts like a number literal is one, up to some point. -/
theorem scanNumber_isSome {c : Char} {cs : List Char}
    (h : c.isDigit = true ∨ c = '-' ∧ ∃ d ds, cs = d :: ds ∧ d.isDigit = true) :
    ∃ found, scanNumber (c :: cs) = some found := by
  have hwhole {d : Char} (ds : List Char) (hd : d.isDigit = true) : ∃ found, scanWhole (d :: ds) = some found := by
    by_cases hzero : d = '0'
    · subst hzero
      exact ⟨_, rfl⟩
    · rw [scanWhole_of_ne hzero, scanDigits, List.takeWhile_cons_of_pos hd, if_neg (by simp)]
      exact ⟨_, rfl⟩
  rw [scanNumber_eq]
  rcases h with hc | ⟨rfl, d, ds, rfl, hd⟩
  · obtain ⟨found, hfound⟩ := hwhole cs hc
    have hminus : scanMinus (c :: cs) = ([], c :: cs) := by simp [scanMinus, digit_ne_minus hc]
    rw [hminus, hfound]
    exact ⟨_, rfl⟩
  · obtain ⟨found, hfound⟩ := hwhole ds hd
    show ∃ found, Option.map _ (scanWhole (d :: ds)) = some found
    rw [hfound]
    exact ⟨_, rfl⟩

/-- What ends a number does not start one, so the literal in front of it starts like one. -/
theorem scanNumber_isSome_of_closed {text left : List Char} (hleft : Closed left)
    (h : ∃ c cs, text ++ left = c :: cs ∧ (c.isDigit = true ∨ c = '-' ∧ ∃ d ds, cs = d :: ds ∧ d.isDigit = true)) :
    ∃ found, scanNumber text = some found := by
  obtain ⟨c', cs', rfl, hc'⟩ := hleft
  obtain ⟨c, cs, htext, hc⟩ := h
  have hne {d : Char} (hd : numberChar d = true) : c' ≠ d := by
    rintro rfl
    rw [hc'] at hd
    cases hd
  cases text with
  | nil =>
      obtain ⟨rfl, rfl⟩ := List.cons.inj htext
      rcases hc with hc | ⟨rfl, -⟩
      · exact absurd rfl (hne (numberChar_of_isDigit hc))
      · exact absurd rfl (hne rfl)
  | cons b text =>
      rw [List.cons_append, List.cons.injEq] at htext
      obtain ⟨rfl, rfl⟩ := htext
      refine scanNumber_isSome ?_
      rcases hc with hc | ⟨rfl, d, ds, hds, hd⟩
      · exact .inl hc
      · refine .inr ⟨rfl, ?_⟩
        cases text with
        | nil =>
            obtain ⟨rfl, rfl⟩ := List.cons.inj hds
            exact absurd rfl (hne (numberChar_of_isDigit hd))
        | cons b text =>
            rw [List.cons_append, List.cons.injEq] at hds
            obtain ⟨rfl, -⟩ := hds
            exact ⟨_, _, rfl, hd⟩

/-- The literal alone is read as it is in front of what ends it. -/
theorem scanNumber_extend {text left : List Char} {parts : List Char × List Char × List Char}
    (h : scanNumber text = some (parts, left)) (hleft : Closed left) (more : List Char) :
    scanNumber (text ++ more) = some (parts, left ++ more) := by
  obtain ⟨sign, whole, tail⟩ := parts
  obtain ⟨htext, -⟩ := scanNumber_parts h
  have hstops : Stops left := by simpa using hleft.stops []
  have halone : scanNumber (sign ++ whole ++ tail) = some ((sign, whole, tail), []) := by
    obtain ⟨found, hfound⟩ := scanNumber_isSome_of_closed hleft (by rw [htext]; exact Json.scanNumber_head h)
    obtain ⟨parts', left'⟩ := found
    have happend := scanNumber_append hstops hfound
    rw [htext, h] at happend
    simp only [Option.some.injEq, Prod.mk.injEq] at happend
    obtain ⟨hparts, hrest⟩ := happend
    have hnil : left' = [] := by
      have hlength := congrArg List.length hrest
      rw [List.length_append] at hlength
      exact List.eq_nil_of_length_eq_zero (by omega)
    rw [hfound, ← hparts, hnil]
  rw [← htext, List.append_assoc, scanNumber_append (hleft.stops more) halone, List.nil_append]

end Literal

namespace Json

open Literal

/-! ## Strings -/

section

variable {text rest : List Char} {n m : Nat}

theorem readHex4_extend (h : readHex4 text = some (n, rest)) (more : List Char) :
    readHex4 (text ++ more) = some (n, rest ++ more) := by
  unfold readHex4 at h
  split at h
  · next a b c d rest' =>
    show readHex4 (a :: b :: c :: d :: (rest' ++ more)) = _
    unfold readHex4
    cases ha : hexValue a <;> cases hb : hexValue b <;> cases hc : hexValue c <;> cases hd : hexValue d <;> simp_all
  · cases h

theorem readUnicode_extend {p : CodePoint} (h : readUnicode text = some (p, rest)) (more : List Char) :
    readUnicode (text ++ more) = some (p, rest ++ more) := by
  obtain ⟨⟨n, left⟩, hn, h⟩ := Option.bind_eq_some_iff.mp h
  cases h
  rw [readUnicode, readHex4_extend hn more]
  rfl

theorem readEscape_extend {p : CodePoint} (h : readEscape text = some (p, rest)) (more : List Char) :
    readEscape (text ++ more) = some (p, rest ++ more) := by
  cases text with
  | nil => cases h
  | cons d text =>
      rw [List.cons_append]
      simp only [readEscape] at h ⊢
      split_ifs at h ⊢
      all_goals first | exact readUnicode_extend h more | (cases h; rfl)

/-- More room and more text behind a string literal change nothing. -/
theorem readChars_extend {cs : List CodePoint} (h : readChars n text = some (cs, rest)) (hn : n ≤ m) (more : List Char) :
    readChars m (text ++ more) = some (cs, rest ++ more) := by
  induction n generalizing m text cs with
  | zero => cases h
  | succ n ih =>
      obtain ⟨m, rfl⟩ : ∃ k, m = k + 1 := ⟨m - 1, by omega⟩
      cases text with
      | nil => cases h
      | cons c text =>
          rw [List.cons_append]
          simp only [readChars] at h ⊢
          split_ifs at h ⊢ with hquote hescape
          · cases h
            rfl
          · obtain ⟨⟨d, left⟩, hd, h⟩ := Option.bind_eq_some_iff.mp h
            obtain ⟨⟨ds, left⟩, hds, h⟩ := Option.bind_eq_some_iff.mp h
            obtain ⟨rfl, rfl⟩ := Prod.mk.inj (Option.some.inj h)
            rw [readEscape_extend hd more]
            simp only [Option.bind_eq_bind, Option.bind_some]
            rw [ih hds (by omega)]
            rfl
          · obtain ⟨⟨ds, left⟩, hds, h⟩ := Option.bind_eq_some_iff.mp h
            obtain ⟨rfl, rfl⟩ := Prod.mk.inj (Option.some.inj h)
            rw [ih hds (by omega)]
            rfl

theorem readString_extend {s : PyStr} (h : readString text = some (s, rest)) (more : List Char) :
    readString (text ++ more) = some (s, rest ++ more) := by
  unfold readString at h ⊢
  cases hchars : readChars (text.length + 1) text with
  | none => simp [hchars] at h
  | some found =>
      obtain ⟨cs, rest'⟩ := found
      rw [hchars] at h
      rw [readChars_extend hchars (by simp) more]
      simp only [Option.bind_eq_bind, Option.bind_some, Option.some.injEq, Prod.mk.injEq] at h ⊢
      obtain ⟨rfl, rfl⟩ := h
      exact ⟨rfl, rfl⟩

end

/-! ## Arrays and objects -/

section

variable {readFloat : String → PyFloat} {text rest : List Char} {n m : Nat}

/-- The second reader reads what the first reads, whatever is behind it, where something ends it; the first reads nothing
    of an empty text. -/
structure Extends (value value' : List Char → Option (Json × List Char)) : Prop where
  nil    : value [] = none
  extend : ∀ {text j rest}, value text = some (j, rest) → Closed rest → ∀ more,
    value' (text ++ more) = some (j, rest ++ more)

theorem skipSpace_extend (h : skipSpace text ≠ []) (more : List Char) :
    skipSpace (text ++ more) = skipSpace text ++ more := by
  have hne : ¬ text.dropWhile isSpace = [] := h
  rw [skipSpace, List.dropWhile_append, if_neg (by simpa using hne)]
  rfl

/-- What is behind a mark is behind it in the longer text. -/
theorem skipSpace_extend_cons {c : Char} (h : skipSpace text = c :: rest) (more : List Char) :
    skipSpace (text ++ more) = c :: (rest ++ more) := by
  rw [skipSpace_extend (by rw [h]; simp), h]
  rfl

/-- Punctuation, with or without space before it, ends a number. -/
theorem closed_of_skipSpace {c : Char} (h : skipSpace text = c :: rest) (hc : numberChar c = false) : Closed text := by
  cases text with
  | nil => cases h
  | cons d text =>
      refine ⟨d, text, rfl, ?_⟩
      by_cases hd : isSpace d = true
      · simp only [isSpace, Bool.or_eq_true, decide_eq_true_eq] at hd
        rcases hd with ((rfl | rfl) | rfl) | rfl <;> rfl
      · rw [skipSpace, List.dropWhile_cons_of_neg hd] at h
        obtain ⟨rfl, -⟩ := List.cons.inj h
        exact hc

variable {value value' : List Char → Option (Json × List Char)}

theorem readItems_nil (hvalue : Extends value value') (n : Nat) : readItems value n [] = none := by
  cases n with
  | zero => rfl
  | succ n =>
      rw [readItems, hvalue.nil]
      rfl

theorem readItems_extend (hvalue : Extends value value') {xs : List Json}
    (h : readItems value n text = some (xs, rest)) (hn : n ≤ m) (more : List Char) :
    readItems value' m (text ++ more) = some (xs, rest ++ more) := by
  induction n generalizing m text xs with
  | zero => cases h
  | succ n ih =>
      obtain ⟨m, rfl⟩ : ∃ k, m = k + 1 := ⟨m - 1, by omega⟩
      obtain ⟨⟨x, left⟩, hx, h⟩ := Option.bind_eq_some_iff.mp h
      unfold readItems
      simp only at h
      split at h
      · next left' hclose =>
        obtain ⟨rfl, rfl⟩ := Prod.mk.inj (Option.some.inj h)
        rw [hvalue.extend hx (closed_of_skipSpace hclose rfl) more]
        simp only [Option.bind_eq_bind, Option.bind_some]
        rw [skipSpace_extend_cons hclose more]
        rfl
      · next left' hcomma =>
        obtain ⟨⟨ys, left''⟩, hys, h⟩ := Option.bind_eq_some_iff.mp h
        obtain ⟨rfl, rfl⟩ := Prod.mk.inj (Option.some.inj h)
        have hne : skipSpace left' ≠ [] := by
          intro hnil
          rw [hnil, readItems_nil hvalue] at hys
          cases hys
        rw [hvalue.extend hx (closed_of_skipSpace hcomma rfl) more]
        simp only [Option.bind_eq_bind, Option.bind_some]
        rw [skipSpace_extend_cons hcomma more]
        show (readItems value' m (skipSpace (left' ++ more))).bind _ = _
        rw [skipSpace_extend hne more, ih hys (by omega)]
        rfl
      · cases h

theorem readMembers_extend (hvalue : Extends value value') {ms : List (PyStr × Json)}
    (h : readMembers value n text = some (ms, rest)) (hn : n ≤ m) (more : List Char) :
    readMembers value' m (text ++ more) = some (ms, rest ++ more) := by
  induction n generalizing m text ms with
  | zero => cases h
  | succ n ih =>
      obtain ⟨m, rfl⟩ : ∃ k, m = k + 1 := ⟨m - 1, by omega⟩
      cases text with
      | nil => cases h
      | cons c text =>
          rw [List.cons_append]
          simp only [readMembers] at h ⊢
          split_ifs at h ⊢ with hquote
          obtain ⟨⟨k, afterKey⟩, hk, h⟩ := Option.bind_eq_some_iff.mp h
          rw [readString_extend hk more]
          simp only [Option.bind_eq_bind, Option.bind_some] at h ⊢
          split at h
          · next afterColon hcolon =>
            rw [skipSpace_extend_cons hcolon more]
            obtain ⟨⟨v, afterValue⟩, hv, h⟩ := Option.bind_eq_some_iff.mp h
            have hne : skipSpace afterColon ≠ [] := by
              intro hnil
              rw [hnil, hvalue.nil] at hv
              cases hv
            show (value' (skipSpace (afterColon ++ more))).bind _ = _
            rw [skipSpace_extend hne more]
            simp only at h
            split at h
            · next left hclose =>
              obtain ⟨rfl, rfl⟩ := Prod.mk.inj (Option.some.inj h)
              rw [hvalue.extend hv (closed_of_skipSpace hclose rfl) more, Option.bind_some]
              simp only
              rw [skipSpace_extend_cons hclose more]
              rfl
            · next left hcomma =>
              obtain ⟨⟨ms', left'⟩, hms, h⟩ := Option.bind_eq_some_iff.mp h
              obtain ⟨rfl, rfl⟩ := Prod.mk.inj (Option.some.inj h)
              have hne' : skipSpace left ≠ [] := by
                intro hnil
                rw [hnil] at hms
                cases n <;> cases hms
              rw [hvalue.extend hv (closed_of_skipSpace hcomma rfl) more, Option.bind_some]
              simp only
              rw [skipSpace_extend_cons hcomma more]
              show (readMembers value' m (skipSpace (left ++ more))).bind _ = _
              rw [skipSpace_extend hne' more, ih hms (by omega)]
              rfl
            · cases h
          · cases h

/-! ## Values -/

theorem readNumber_extend {j : Json} (h : readNumber readFloat text = some (j, rest)) (hclosed : Closed rest)
    (more : List Char) : readConstant (text ++ more) = none ∧
      readNumber readFloat (text ++ more) = some (j, rest ++ more) := by
  obtain ⟨⟨⟨sign, whole, tail⟩, left⟩, hscan, h⟩ := Option.bind_eq_some_iff.mp h
  refine ⟨readConstant_number hscan, ?_⟩
  unfold readNumber
  simp only at h
  by_cases htail : tail = []
  · rw [if_pos htail] at h
    obtain ⟨rfl, rfl⟩ := Prod.mk.inj (Option.some.inj h)
    rw [scanNumber_extend hscan hclosed more]
    simp only [Option.bind_eq_bind, Option.bind_some, if_pos htail]
  · rw [if_neg htail] at h
    obtain ⟨rfl, rfl⟩ := Prod.mk.inj (Option.some.inj h)
    rw [scanNumber_extend hscan hclosed more]
    simp only [Option.bind_eq_bind, Option.bind_some, if_neg htail]

/-- A constant is found again in the longer text: none of them starts another. -/
theorem readConstant_extend {j : Json} (h : readConstant text = some (j, rest)) (more : List Char) :
    readConstant (text ++ more) = some (j, rest ++ more) := by
  obtain ⟨e, he, heq⟩ := Option.map_eq_some_iff.mp h
  obtain ⟨rfl, rfl⟩ := Prod.mk.inj heq
  have hprefix : e.1 <+: text := by simpa using List.find?_some he
  have hapart : ∀ e ∈ constants, ∀ e' ∈ constants, e.1 <+: e'.1 → e.1 = e'.1 := by decide
  have hsame : ∀ e' ∈ constants, e'.1.isPrefixOf (text ++ more) = e'.1.isPrefixOf text := by
    intro e' he'
    rw [Bool.eq_iff_iff, List.isPrefixOf_iff_prefix, List.isPrefixOf_iff_prefix]
    constructor
    · intro h'
      have hlonger : e.1 <+: text ++ more := hprefix.trans (List.prefix_append _ _)
      have hmem := List.mem_of_find?_eq_some he
      have hequal : e'.1 = e.1 := by
        rcases Nat.le_total e'.1.length e.1.length with hle | hle
        · exact hapart _ he' _ hmem (List.prefix_of_prefix_length_le h' hlonger hle)
        · exact (hapart _ hmem _ he' (List.prefix_of_prefix_length_le hlonger h' hle)).symm
      rw [hequal]
      exact hprefix
    · intro h'
      exact h'.trans (List.prefix_append _ _)
  have hfind : constants.find? (fun e => e.1.isPrefixOf (text ++ more)) = some e := by
    rw [← he]
    exact List.find?_congr hsame
  rw [readConstant, hfind, Option.map_some, List.drop_append_of_le_length hprefix.length_le]

/-- The longer text does not start with a mark that the text, which is not empty, does not start with. -/
theorem not_head_of_append {c : Char} {more left : List Char} (hne : text ≠ [])
    (hhead : ∀ left, text = c :: left → False) : text ++ more ≠ c :: left := by
  cases text with
  | nil => exact absurd rfl hne
  | cons d text =>
      intro h
      obtain ⟨rfl, -⟩ := List.cons.inj h
      exact hhead _ rfl

/-- An array with more text behind it. -/
theorem readArr_extend (hvalue : Extends (readValue readFloat n) (readValue readFloat m)) {j : Json}
    (h : readValue readFloat (n + 1) ('[' :: text) = some (j, rest)) (more : List Char) :
    readValue readFloat (m + 1) ('[' :: (text ++ more)) = some (j, rest ++ more) := by
  simp only [readValue] at h ⊢
  rw [if_neg (by decide), if_pos trivial] at h ⊢
  split at h
  · next left hclose =>
    obtain ⟨rfl, rfl⟩ := Prod.mk.inj (Option.some.inj h)
    rw [skipSpace_extend_cons hclose more]
    rfl
  · next hopen =>
    obtain ⟨⟨xs, left⟩, hxs, h⟩ := Option.bind_eq_some_iff.mp h
    obtain ⟨rfl, rfl⟩ := Prod.mk.inj (Option.some.inj h)
    have hne : skipSpace text ≠ [] := by
      intro hnil
      rw [hnil, readItems_nil hvalue] at hxs
      cases hxs
    rw [skipSpace_extend hne more]
    split
    · next left' hclose => exact (not_head_of_append hne hopen hclose).elim
    · rw [readItems_extend hvalue hxs (by simp) more]
      rfl

/-- … an object … -/
theorem readObj_extend (hvalue : Extends (readValue readFloat n) (readValue readFloat m)) {j : Json}
    (h : readValue readFloat (n + 1) ('\x7b' :: text) = some (j, rest)) (more : List Char) :
    readValue readFloat (m + 1) ('\x7b' :: (text ++ more)) = some (j, rest ++ more) := by
  simp only [readValue] at h ⊢
  rw [if_neg (by decide), if_neg (by decide), if_pos trivial] at h ⊢
  split at h
  · next left hclose =>
    obtain ⟨rfl, rfl⟩ := Prod.mk.inj (Option.some.inj h)
    rw [skipSpace_extend_cons hclose more]
    rfl
  · next hopen =>
    obtain ⟨⟨ms, left⟩, hms, h⟩ := Option.bind_eq_some_iff.mp h
    obtain ⟨rfl, rfl⟩ := Prod.mk.inj (Option.some.inj h)
    have hne : skipSpace text ≠ [] := by
      intro hnil
      rw [hnil] at hms
      cases hms
    rw [skipSpace_extend hne more]
    split
    · next left' hclose => exact (not_head_of_append hne hopen hclose).elim
    · rw [readMembers_extend hvalue hms (by simp) more]
      rfl

/-- … and a constant or a number, which something has to end. -/
theorem readScalar_extend {j : Json} (h : (readConstant text <|> readNumber readFloat text) = some (j, rest))
    (hclosed : Closed rest) (more : List Char) :
    (readConstant (text ++ more) <|> readNumber readFloat (text ++ more)) = some (j, rest ++ more) := by
  cases hconstant : readConstant text with
  | some found =>
      rw [hconstant] at h
      obtain rfl := Option.some.inj h
      rw [readConstant_extend hconstant more]
      rfl
  | none =>
      rw [hconstant] at h
      have hnumber : readNumber readFloat text = some (j, rest) := h
      obtain ⟨hnone, hmore⟩ := readNumber_extend hnumber hclosed more
      rw [hnone, hmore]
      rfl

/-- **Text behind a value changes nothing**, if something ends a number in front of it. -/
theorem readValue_extend {j : Json} (h : readValue readFloat n text = some (j, rest)) (hn : n ≤ m)
    (hends : Closed rest ∨ ∃ cs, text = '\x7b' :: cs) (more : List Char) :
    readValue readFloat m (text ++ more) = some (j, rest ++ more) := by
  induction n generalizing m text rest j more with
  | zero => cases h
  | succ n ih =>
      obtain ⟨m, rfl⟩ : ∃ k, m = k + 1 := ⟨m - 1, by omega⟩
      have hvalue : Extends (readValue readFloat n) (readValue readFloat m) := by
        refine ⟨by cases n <;> rfl, ?_⟩
        intro text j rest h hclosed more
        exact ih h (by omega) (.inl hclosed) more
      cases text with
      | nil => cases h
      | cons c text =>
          rw [List.cons_append]
          by_cases harray : c = '['
          · subst harray
            exact readArr_extend hvalue h more
          by_cases hobject : c = '\x7b'
          · subst hobject
            exact readObj_extend hvalue h more
          simp only [readValue] at h ⊢
          by_cases hquote : c = dquote
          · rw [if_pos hquote] at h ⊢
            obtain ⟨⟨s, left⟩, hs, h⟩ := Option.bind_eq_some_iff.mp h
            obtain ⟨rfl, rfl⟩ := Prod.mk.inj (Option.some.inj h)
            rw [readString_extend hs more]
            rfl
          · rw [if_neg hquote, if_neg harray, if_neg hobject] at h ⊢
            have hclosed : Closed rest := by
              rcases hends with hclosed | ⟨cs, hcs⟩
              · exact hclosed
              · exact absurd (List.cons.inj hcs).1 hobject
            exact readScalar_extend h hclosed more

end

/-! ## Documents -/

section

variable {readFloat : String → PyFloat} {o : DumpsOptions} {members : List (PyStr × Json)} {text more : List Char}

/-- A document that cannot be read from its first brace on cannot be read. -/
theorem loads_eq_none {cs : List Char} (h : ∀ j rest, readValue readFloat (cs.length + 2) ('\x7b' :: cs) = some (j, rest) →
    skipSpace rest ≠ []) : loads readFloat (String.ofList ('\x7b' :: cs)) = none := by
  have hstart : skipSpace ('\x7b' :: cs) = '\x7b' :: cs := skipSpace_cons (by decide)
  rw [loads, String.toList_ofList, hstart]
  simp only [List.length_cons]
  cases hread : readValue readFloat (cs.length + 1 + 1) ('\x7b' :: cs) with
  | none => rfl
  | some found =>
      simp only [Option.bind_eq_bind, Option.bind_some]
      exact if_neg (h _ _ hread)

/-- **An object that was written and then cut short cannot be read.** -/
theorem loads_cut (ho : o.Standard) (htext : text ++ more = (dumps o (.obj members)).toList) (hne : more ≠ []) :
    loads readFloat (String.ofList text) = none := by
  obtain ⟨cs, hcs⟩ := dumps_obj_cons (o := o) members
  cases text with
  | nil => rfl
  | cons c text =>
      obtain rfl : c = '\x7b' := by
        rw [hcs] at htext
        exact (List.cons.inj htext).1
      refine loads_eq_none ?_
      intro j rest hread _
      have hlength := congrArg List.length htext
      rw [List.length_append, List.length_cons] at hlength
      have hlonger : readValue readFloat (dumps o (.obj members)).toList.length.succ ('\x7b' :: text ++ more)
          = some (j, rest ++ more) := readValue_extend hread (by omega) (.inr ⟨text, rfl⟩) more
      have hreads : Reads (readValue readFloat (dumps o (.obj members)).toList.length.succ) _ _ :=
        reads_dumps ho (.obj members) _ (Nat.le_succ _)
      have hwhole := hreads [] .nil
      rw [List.append_nil, ← htext] at hwhole
      rw [← htext, hwhole] at hlonger
      have hnil : [] = rest ++ more := (Prod.mk.inj (Option.some.inj hlonger)).2
      exact hne (List.append_eq_nil_iff.mp hnil.symm).2

/-- **An object with more text behind it cannot be read.** -/
theorem loads_trailing (ho : o.Standard) (hstops : Stops more) (hne : skipSpace more ≠ []) :
    loads readFloat (String.ofList ((dumps o (.obj members)).toList ++ more)) = none := by
  obtain ⟨cs, hcs⟩ := dumps_obj_cons (o := o) members
  rw [hcs, List.cons_append]
  refine loads_eq_none ?_
  intro j rest hread
  have hreads : Reads (readValue readFloat ((cs ++ ['\x7d'] ++ more).length + 2)) _ _ :=
    reads_dumps ho (.obj members) _ (by rw [hcs]; simp)
  have hwhole := hreads more hstops
  rw [hcs, List.cons_append, hread] at hwhole
  rw [(Prod.mk.inj (Option.some.inj hwhole)).2]
  exact hne

end

end Json
end Lib
