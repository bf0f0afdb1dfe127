import HermesPayments.Redact.Clean

/-!
# `HermesPayments.Redact.Correctness.Leaks` — which hex digits a redaction leaves

The hash pattern asks for a word of its own and for lower case, so 64 hex digits stay in the text when they are longer
than that, glued to a word or in upper case, unless an invoice or a macaroon path takes them. `Leaks` says so of a place
of the text, `redacted_iff` that this is all: invoices never stay, and redacting again changes nothing.
-/

namespace HermesPayments
namespace Redact

open Lib

/-! ## What may not stay -/

/-- `[0-9a-fA-F]`. -/
def hexDigit (c : Char) : Bool := hexChar c || ('A' ≤ c && c ≤ 'F')

/-- 64 hex digits, in either letter case. -/
structure HexRun (w : List Char) : Prop where
  length : w.length = 64
  digits : ∀ c ∈ w, hexDigit c = true

/-- A Lightning invoice at the head of a text: a tag in any letter case, then a letter or digit. -/
def Invoice (s : List Char) : Prop :=
  ∃ tag ∈ ["lnbc", "lntb", "lnbcrt"], ∃ m c s', s = m ++ c :: s' ∧ m.map Char.toLower = tag.toList ∧
    c.isAlphanum = true

/-- The path characters at the end of a text reach back to a slash. -/
def PathOpen (a : List Char) : Prop := ∃ x z, a = x ++ '/' :: z ∧ ∀ c ∈ z, pathChar c = true

/-- … with one between them at least. -/
def PathGoing (a : List Char) : Prop := ∃ x z, a = x ++ '/' :: z ∧ z ≠ [] ∧ ∀ c ∈ z, pathChar c = true

/-- A text ends with a macaroon path. -/
def EndsPath (a : List Char) : Prop := ∃ a', a = a' ++ macaroonSuffix ∧ PathGoing a'

/-- An invoice that starts in `a` goes on in `s`. -/
def InInvoice (a s : List Char) : Prop :=
  ∃ x y, a = x ++ y ∧ y ≠ [] ∧ (∀ c ∈ y, invoiceChar c = true) ∧ tagged (y ++ s) = true

/-- The hex digits `w`, between `a` and `b`, stay in the text: no invoice and no macaroon path takes them, and they are
    no lower-case hash with a word boundary, an invoice or a macaroon path on either side. -/
structure Leaks (isAlnum : Char → Bool) (a w b : List Char) : Prop where
  run     : HexRun w
  invoice : ¬ InInvoice a (w ++ b)
  path    : ¬ (PathOpen a ∧ HasPath b)
  hash    : ¬ ((∀ c ∈ w, hexChar c = true) ∧ (Bounded isAlnum a.getLast? ∨ EndsPath a) ∧
    (Bounded isAlnum b.head? ∨ tagged b = true))

/-! ## Hex digits and the other patterns -/

theorem hexDigit_range {c : Char} (h : hexDigit c = true) : (48 ≤ c.toNat ∧ c.toNat ≤ 57) ∨
    (65 ≤ c.toNat ∧ c.toNat ≤ 70) ∨ (97 ≤ c.toNat ∧ c.toNat ≤ 102) := by
  rcases Bool.or_eq_true _ _ ▸ h with h | h
  · have hrange := hexChar_range h
    omega
  · simp only [Bool.and_eq_true, decide_eq_true_eq, Char.le_def, UInt32.le_iff_toNat_le] at h
    exact .inr (.inl h)

theorem isAlphanum_of_hexDigit {c : Char} (h : hexDigit c = true) : c.isAlphanum = true := by
  have hrange := hexDigit_range h
  rw [isAlphanum_iff]
  omega

theorem invoiceChar_of_hexDigit {c : Char} (h : hexDigit c = true) : invoiceChar c = true := by
  rw [invoiceChar, isAlphanum_of_hexDigit h, Bool.true_or]

theorem toLower_of_hexDigit {c : Char} (h : hexDigit c = true) : c.toLower ≠ 'l' := by
  intro hl
  have hvalue := toNat_of_toLower hl
  have hrange := hexDigit_range h
  omega

theorem HexRun.not_mem {w : List Char} (h : HexRun w) {c : Char} (hc : hexDigit c = false) : c ∉ w := by
  intro hmem
  rw [h.digits c hmem] at hc
  cases hc

theorem HexRun.ne_nil {w : List Char} (h : HexRun w) : w ≠ [] := by
  rintro rfl
  cases h.length

/-- An invoice starts with the letter l. -/
theorem invoicePattern_spares {c : Char} (hc : c.toLower ≠ 'l') (prev : Option Char) (s : List Char) :
    invoicePattern prev (c :: s) = none := by
  rw [invoicePattern_eq, if_neg]
  intro htag
  obtain ⟨m, s', hs, hlen, -, ⟨d, hd, hl⟩, -⟩ := tagged_split htag
  cases m with
  | nil => cases hlen
  | cons e m =>
      obtain ⟨rfl, -⟩ := List.cons_eq_cons.mp hs
      obtain rfl := Option.some.inj hd
      exact hc hl

/-- A macaroon path starts with a slash. -/
theorem macaroonPattern_spares {c : Char} (hc : c ≠ '/') (prev : Option Char) (s : List Char) :
    macaroonPattern prev (c :: s) = none := by
  by_contra hmatch
  obtain ⟨⟨n, r⟩, hfound⟩ := Option.ne_none_iff_exists'.mp hmatch
  obtain ⟨t, _, _, hs, -⟩ := macaroonPattern_some hfound
  exact hc (List.cons_eq_cons.mp hs).1

/-! ## Path characters up to a place -/

theorem pathOpen_concat {a : List Char} {c : Char} :
    PathOpen (a ++ [c]) ↔ c = '/' ∨ (pathChar c = true ∧ PathOpen a) := by
  constructor
  · rintro ⟨x, z, hsplit, hz⟩
    rcases List.eq_nil_or_concat z with rfl | ⟨z, d, rfl⟩
    · obtain ⟨-, hc⟩ := List.append_inj' hsplit rfl
      exact .inl (by simpa using hc)
    · rw [List.concat_eq_append] at hsplit hz
      rw [show x ++ '/' :: (z ++ [d]) = (x ++ '/' :: z) ++ [d] by simp] at hsplit
      obtain ⟨rfl, hc⟩ := List.append_inj' hsplit rfl
      obtain rfl : c = d := by simpa using hc
      exact .inr ⟨hz c (by simp), x, z, rfl, fun e he => hz e (by simp [he])⟩
  · rintro (rfl | ⟨hc, x, z, rfl, hz⟩)
    · exact ⟨a, [], rfl, by simp⟩
    · refine ⟨x, z ++ [c], by simp, ?_⟩
      intro e he
      rcases List.mem_append.mp he with he | he
      · exact hz e he
      · obtain rfl := List.mem_singleton.mp he
        exact hc

theorem pathGoing_concat {a : List Char} {c : Char} : PathGoing (a ++ [c]) ↔ pathChar c = true ∧ PathOpen a := by
  constructor
  · rintro ⟨x, z, hsplit, hne, hz⟩
    rcases List.eq_nil_or_concat z with rfl | ⟨z, d, rfl⟩
    · exact absurd rfl hne
    · rw [List.concat_eq_append] at hsplit hz
      rw [show x ++ '/' :: (z ++ [d]) = (x ++ '/' :: z) ++ [d] by simp] at hsplit
      obtain ⟨rfl, hc⟩ := List.append_inj' hsplit rfl
      obtain rfl : c = d := by simpa using hc
      exact ⟨hz c (by simp), x, z, rfl, fun e he => hz e (by simp [he])⟩
  · rintro ⟨hc, x, z, rfl, hz⟩
    refine ⟨x, z ++ [c], by simp, by simp, ?_⟩
    intro e he
    rcases List.mem_append.mp he with he | he
    · exact hz e he
    · obtain rfl := List.mem_singleton.mp he
      exact hc

/-- A stretch of path characters without a slash, nonempty. -/
structure Plain (m : List Char) : Prop where
  ne_nil : m ≠ []
  chars  : ∀ c ∈ m, pathChar c = true ∧ c ≠ '/'

/-- … leaves a path open or not. -/
theorem Plain.pathOpen {m : List Char} (hm : Plain m) (a : List Char) :
    (PathOpen (a ++ m) ↔ PathOpen a) ∧ (PathGoing (a ++ m) ↔ PathOpen a) := by
  obtain ⟨hne, hchars⟩ := hm
  have hopen : ∀ m : List Char, (∀ c ∈ m, pathChar c = true ∧ c ≠ '/') → (PathOpen (a ++ m) ↔ PathOpen a) := by
    intro m
    induction m using List.reverseRecOn with
    | nil => simp
    | append_singleton m c ih =>
        intro hchars
        obtain ⟨hpath, hslash⟩ := hchars c (by simp)
        rw [← List.append_assoc, pathOpen_concat, ih fun d hd => hchars d (by simp [hd])]
        exact ⟨fun h => (h.resolve_left hslash).2, fun h => .inr ⟨hpath, h⟩⟩
  refine ⟨hopen m hchars, ?_⟩
  rcases List.eq_nil_or_concat m with rfl | ⟨m, c, rfl⟩
  · exact absurd rfl hne
  · rw [List.concat_eq_append] at hchars ⊢
    rw [← List.append_assoc, pathGoing_concat, hopen m fun d hd => hchars d (by simp [hd])]
    exact ⟨fun h => h.2, fun h => ⟨(hchars c (by simp)).1, h⟩⟩

/-! ## Invoices and what stays -/

/-- An invoice takes all letters and digits from its tag on. -/
theorem invoice_match {prev : Option Char} {m s r : List Char}
    (h : invoicePattern prev (m ++ s) = some (m.length, r)) :
    tagged (m ++ s) = true ∧ (∀ c ∈ m, invoiceChar c = true) ∧ (∀ c ∈ s.head?, invoiceChar c = false) ∧
      r = invoiceText := by
  obtain ⟨htag, hlen, rfl⟩ := invoicePattern_some h
  have hrun : (m ++ s).takeWhile invoiceChar = m := by
    have hpre := List.takeWhile_prefix invoiceChar (l := m ++ s)
    exact (List.prefix_of_prefix_length_le hpre (List.prefix_append m s) (by omega)).eq_of_length hlen.symm
  have hall : ∀ c ∈ m, invoiceChar c = true := by
    intro c hc
    rw [← hrun] at hc
    exact List.mem_takeWhile_imp hc
  refine ⟨htag, hall, ?_, rfl⟩
  intro c hc
  rw [List.takeWhile_append_of_pos hall, List.append_right_eq_self] at hrun
  cases s with
  | nil => cases hc
  | cons d s =>
      obtain rfl := Option.some.inj hc
      by_contra hd
      rw [List.takeWhile_cons_of_pos (by simpa using hd)] at hrun
      cases hrun

theorem plain_of_invoiceChar {m : List Char} (hm : m ≠ []) (h : ∀ c ∈ m, invoiceChar c = true) : Plain m := by
  refine ⟨hm, fun c hc => ⟨pathChar_of_invoiceChar (h c hc), ?_⟩⟩
  rintro rfl
  exact absurd (h _ hc) (by decide)

theorem plain_invoiceText : Plain invoiceText := ⟨by decide, forall_mem_of_all (by decide)⟩

/-- Replacing invoices neither opens nor closes a path. -/
theorem Visits.paths {a A s : List Char} (h : Visits invoicePattern a A s) :
    (PathOpen A ↔ PathOpen a) ∧ (PathGoing A ↔ PathGoing a) := by
  induction h with
  | start => exact ⟨Iff.rfl, Iff.rfl⟩
  | keep _ _ ih =>
      obtain ⟨hopen, -⟩ := ih
      rw [pathOpen_concat, pathOpen_concat, pathGoing_concat, pathGoing_concat, hopen]
      exact ⟨Iff.rfl, Iff.rfl⟩
  | @cut a A m s r _ hm hmatch ih =>
      obtain ⟨hopen, -⟩ := ih
      obtain ⟨-, hall, -, rfl⟩ := invoice_match hmatch
      obtain ⟨h₁, h₂⟩ := plain_invoiceText.pathOpen A
      obtain ⟨h₃, h₄⟩ := (plain_of_invoiceChar hm hall).pathOpen a
      rw [h₁, h₂, h₃, h₄, hopen]
      exact ⟨Iff.rfl, Iff.rfl⟩

/-- **Letters and digits that the scan comes to are in no invoice.** -/
theorem Visits.not_inInvoice {a A s : List Char} (h : Visits invoicePattern a A s)
    (hs : ∃ c ∈ s.head?, invoiceChar c = true) : ¬ InInvoice a s := by
  induction h with
  | start =>
      rintro ⟨x, y, hsplit, hy, -⟩
      exact hy (List.append_eq_nil_iff.mp hsplit.symm).2
  | @keep a A s c hvisit hno ih =>
      rintro ⟨x, y, hsplit, hy, hall, htag⟩
      rcases List.eq_nil_or_concat y with rfl | ⟨y, d, rfl⟩
      · exact hy rfl
      rw [List.concat_eq_append] at *
      rw [← List.append_assoc] at hsplit
      obtain ⟨rfl, hc⟩ := List.append_inj' hsplit rfl
      obtain rfl : c = d := by simpa using hc
      by_cases hone : y = []
      · -- the tag starts at this very character
        subst hone
        have htag : tagged (c :: s) = true := htag
        rw [invoicePattern_eq, if_pos htag] at hno
        cases hno
      · refine ih ⟨c, rfl, hall c (by simp)⟩ ⟨x, y, rfl, hone, fun e he => hall e (by simp [he]), ?_⟩
        rwa [List.append_assoc] at htag
  | cut _ _ hmatch _ =>
      -- the invoice before this place went on as far as it could
      obtain ⟨-, -, hend, -⟩ := invoice_match hmatch
      obtain ⟨c, hc, hchar⟩ := hs
      rw [hend c hc] at hchar
      cases hchar

/-- … and the scan comes to those that are in none. -/
theorem visited_of_not_inInvoice {a s : List Char} (h : ¬ InInvoice a s) : ∃ A, Visits invoicePattern a A s := by
  rcases visited_or_inside invoicePattern_valid a s with hvisit | ⟨a₀, out, m₁, m₂, s', r, rfl, rfl, hm₁, -, -, hmatch⟩
  · exact hvisit
  · obtain ⟨htag, hall, -⟩ := invoice_match hmatch
    refine absurd ⟨a₀, m₁, rfl, hm₁, fun c hc => hall c (by simp [hc]), ?_⟩ h
    rwa [List.append_assoc] at htag

/-- It comes to what is no letter or digit, too. -/
theorem visited_before (a : List Char) {c : Char} {s : List Char} (hc : invoiceChar c = false) :
    ∃ A, Visits invoicePattern a A (c :: s) := by
  rcases visited_or_inside invoicePattern_valid a (c :: s) with
    hvisit | ⟨a₀, out, m₁, m₂, s', r, rfl, hs, -, hm₂, -, hmatch⟩
  · exact hvisit
  · obtain ⟨-, hall, -⟩ := invoice_match hmatch
    obtain ⟨d, m₂, rfl⟩ := List.exists_cons_of_ne_nil hm₂
    obtain ⟨rfl, -⟩ := List.cons_eq_cons.mp hs
    rw [hall c (by simp)] at hc
    cases hc

/-- Replacing invoices leaves the way to `.macaroon`. -/
theorem hasPath_invoice {prev : Option Char} {s : List Char} :
    HasPath (substitute invoicePattern 0 prev s) ↔ HasPath s := by
  induction hn : s.length using Nat.strong_induction_on generalizing s prev with
  | _ n ih =>
      subst hn
      cases s with
      | nil => exact Iff.rfl
      | cons c s =>
          cases hcase : invoicePattern prev (c :: s) with
          | none =>
              have hrest := @ih s.length (by simp) (some c) s rfl
              rw [substitute_keep hcase]
              constructor
              · exact hasPath_keep invoicePattern_valid (Pattern.marked_of_head invoice_mark) (by decide) hrest.mp
              · rw [hasPath_cons, hasPath_cons]
                rintro (⟨hc, z, rfl⟩ | ⟨hc, hpath⟩)
                · -- no letter of `macaroon` starts an invoice
                  refine .inl ⟨hc, ?_⟩
                  have hletters : ∀ d ∈ "macaroon".toList, d.toLower ≠ 'l' := forall_mem_of_all (by decide)
                  rw [substitute_spared fun d hd => invoicePattern_spares (hletters d hd)]
                  exact List.prefix_append _ _
                · exact .inr ⟨hc, hrest.mpr hpath⟩
          | some found =>
              obtain ⟨n, r⟩ := found
              obtain ⟨m, s', hs, hm, rfl⟩ := invoicePattern_valid.split hcase
              have hlt : s'.length < (c :: s).length := by
                rw [hs, List.length_append]
                have := List.length_pos_iff.mpr hm
                omega
              rw [hs] at hcase ⊢
              obtain ⟨-, hall, -, rfl⟩ := invoice_match hcase
              have hrest := @ih s'.length hlt m.getLast? s' rfl
              have hplain : ∀ d ∈ m, pathChar d = true := fun d hd => pathChar_of_invoiceChar (hall d hd)
              have hdot : '.' ∉ m := fun hmem => absurd (hall _ hmem) (by decide)
              rw [substitute_cut hm hcase]
              constructor
              · intro h
                exact (hrest.mp (h.of_append (by decide))).append hplain
              · intro h
                exact (hrest.mpr (h.of_append hdot)).append fun d hd => (plain_invoiceText.chars d hd).1

/-! ## Macaroon paths and what stays -/

/-- A macaroon path that starts in `a` ends in `s`. -/
def InPath (a s : List Char) : Prop :=
  ∃ x z y r, a = x ++ '/' :: z ∧ (∀ c ∈ z, pathChar c = true) ∧ PathTo y r s ∧ z ++ y ≠ []

/-- A macaroon path takes the last `.macaroon` it comes to. -/
theorem macaroon_match {prev : Option Char} {m s r : List Char}
    (h : macaroonPattern prev (m ++ s) = some (m.length, r)) :
    (∃ y, m = '/' :: (y ++ macaroonSuffix) ∧ y ≠ [] ∧ ∀ c ∈ y, pathChar c = true) ∧ r = macaroonText ∧
      ¬ HasPath s := by
  obtain ⟨t, y, z, hs, ⟨rfl, hy⟩, hne, hlen, rfl, hmost⟩ := macaroonPattern_some h
  have hsplit : m ++ s = '/' :: (y ++ macaroonSuffix) ++ z := by
    rw [hs, List.cons_append, List.append_assoc]
  obtain ⟨rfl, rfl⟩ := List.append_inj hsplit hlen
  refine ⟨⟨y, rfl, hne, hy⟩, rfl, ?_⟩
  rintro ⟨y', z', rfl, hy'⟩
  have hlonger : PathTo (y ++ (macaroonSuffix ++ y')) z' (y ++ (macaroonSuffix ++ (y' ++ (macaroonSuffix ++ z')))) := by
    refine ⟨by simp, ?_⟩
    intro c hc
    rcases List.mem_append.mp hc with hc | hc
    · exact hy c hc
    rcases List.mem_append.mp hc with hc | hc
    · exact pathChar_macaroonSuffix c hc
    · exact hy' c hc
  have hle := hmost _ _ hlonger
  have hsuffix : macaroonSuffix.length = 9 := rfl
  simp only [List.length_append] at hle
  omega

/-- **The scan comes to no place inside a path.** -/
theorem Visits.not_inPath {a A s : List Char} (h : Visits macaroonPattern a A s) : ¬ InPath a s := by
  induction h with
  | start =>
      rintro ⟨x, z, y, r, hsplit, -⟩
      simp at hsplit
  | @keep a A s c hvisit hno ih =>
      rintro ⟨x, z, y, r, hsplit, hz, hpath, hne⟩
      rcases List.eq_nil_or_concat z with rfl | ⟨z, d, rfl⟩
      · -- the slash is this very character
        obtain ⟨-, hc⟩ := List.append_inj' hsplit rfl
        obtain rfl : c = '/' := by simpa using hc
        exact hne (macaroonPattern_none hno y r hpath)
      · rw [List.concat_eq_append] at hsplit hz
        rw [show x ++ '/' :: (z ++ [d]) = (x ++ '/' :: z) ++ [d] by simp] at hsplit
        obtain ⟨rfl, hc⟩ := List.append_inj' hsplit rfl
        obtain rfl : c = d := by simpa using hc
        obtain ⟨rfl, hy⟩ := hpath
        refine ih ⟨x, z, c :: y, r, rfl, fun e he => hz e (by simp [he]), ⟨rfl, ?_⟩, by simp⟩
        intro e he
        rcases List.mem_cons.mp he with rfl | he
        · exact hz e (by simp)
        · exact hy e he
  | cut _ _ hmatch _ =>
      rintro ⟨x, z, y, r, -, -, hpath, -⟩
      exact (macaroon_match hmatch).2.2 ⟨y, r, hpath⟩

variable {w : List Char}

theorem HexRun.pathChar (h : HexRun w) : ∀ c ∈ w, pathChar c = true :=
  fun c hc => pathChar_of_invoiceChar (invoiceChar_of_hexDigit (h.digits c hc))

/-- Hex digits in front make no path and break none. -/
theorem HexRun.hasPath (h : HexRun w) (s : List Char) : HasPath (w ++ s) ↔ HasPath s :=
  ⟨HasPath.of_append (h.not_mem (by decide)), HasPath.append h.pathChar⟩

/-- The end of a path that goes on into 64 hex digits goes on past them. -/
theorem HexRun.hasPath_of_tail (hw : HexRun w) {m x y s B : List Char} (hm : m ≠ [])
    (h : m ++ x = '/' :: (y ++ macaroonSuffix)) (hy : ∀ c ∈ y, Redact.pathChar c = true) (hx : x ≠ [])
    (hs : x ++ s = w ++ B) : (∃ m', m = '/' :: m' ∧ ∀ c ∈ m', Redact.pathChar c = true) ∧ HasPath (w ++ B) := by
  obtain ⟨d, m, rfl⟩ := List.exists_cons_of_ne_nil hm
  obtain ⟨rfl, hrest⟩ := List.cons_eq_cons.mp h
  rcases List.append_eq_append_iff.mp hrest with ⟨v, rfl, rfl⟩ | ⟨v, rfl, hv⟩
  · refine ⟨⟨m, rfl, fun c hc => hy c (by simp [hc])⟩, ?_⟩
    rw [← hs, List.append_assoc]
    exact ⟨v, s, rfl, fun c hc => hy c (by simp [hc])⟩
  · -- only a piece of `.macaroon` is left, whose last letter is no hex digit
    have hlast : x.getLast? = some 'n' := by
      rw [← getLast?_append_of_ne_nil hx (a := v), ← hv]
      rfl
    have hlen : x.length ≤ 9 := by
      have := congrArg List.length hv
      rw [List.length_append] at this
      have hsuffix : macaroonSuffix.length = 9 := rfl
      omega
    have hpre : x <+: w := by
      refine @List.prefix_of_prefix_length_le _ _ _ (w ++ B) ⟨s, hs⟩ (List.prefix_append w B) ?_
      rw [hw.length]
      omega
    exact absurd (hpre.subset (List.mem_of_getLast? hlast)) (hw.not_mem (by decide))

/-- **The scan comes to 64 hex digits unless they are in a path.** -/
theorem HexRun.visited_macaroon (hw : HexRun w) (a B : List Char) :
    (∃ A, Visits macaroonPattern a A (w ++ B)) ↔ ¬ (PathOpen a ∧ HasPath B) := by
  constructor
  · rintro ⟨A, hvisit⟩ ⟨⟨x, z, rfl, hz⟩, hpath⟩
    obtain ⟨y, r, rfl, hy⟩ := hpath
    refine hvisit.not_inPath ⟨x, z, w ++ y, r, rfl, hz, ⟨by simp, ?_⟩, ?_⟩
    · intro c hc
      rcases List.mem_append.mp hc with hc | hc
      · exact hw.pathChar c hc
      · exact hy c hc
    · simp [hw.ne_nil]
  · intro h
    rcases visited_or_inside macaroonPattern_valid a (w ++ B) with
      hvisit | ⟨a₀, out, m₁, m₂, s', r, rfl, hs, hm₁, hm₂, -, hmatch⟩
    · exact hvisit
    · obtain ⟨⟨y, hm, -, hy⟩, -⟩ := macaroon_match hmatch
      obtain ⟨⟨m', rfl, hm'⟩, hpath⟩ := hw.hasPath_of_tail hm₁ hm hy hm₂ hs.symm
      exact absurd ⟨⟨a₀, m', rfl, hm'⟩, (hw.hasPath B).mp hpath⟩ h

/-! ## The characters on either side -/

section Sides

variable {isAlnum : Char → Bool}

theorem bounded_of_ascii (hclass : AsciiClass isAlnum) {c : Char} (hc : c.toNat < 128)
    (hword : (c.isAlphanum || c == '_') = false) : Bounded isAlnum (some c) := by
  rw [Bounded, Option.any_some, wordChar, hclass c hc, hword]

/-- After the digits, invoices and paths replaced, a word ends where it did, or where an invoice starts. -/
theorem bounded_right (hclass : AsciiClass isAlnum) (prev prev' : Option Char) (b : List Char) :
    Bounded isAlnum (substitute macaroonPattern 0 prev (substitute invoicePattern 0 prev' b)).head? ↔
      (Bounded isAlnum b.head? ∨ tagged b = true) := by
  have hopen : Bounded isAlnum (some '<') := bounded_of_ascii hclass (by decide) (by decide)
  have hslash : Bounded isAlnum (some '/') := bounded_of_ascii hclass (by decide) (by decide)
  cases b with
  | nil => exact ⟨.inl, fun _ => rfl⟩
  | cons c b =>
      cases hcase : invoicePattern prev' (c :: b) with
      | some found =>
          obtain ⟨n, r⟩ := found
          obtain ⟨m, s, hs, hm, rfl⟩ := invoicePattern_valid.split hcase
          rw [hs] at hcase ⊢
          obtain ⟨htag, -, -, rfl⟩ := invoice_match hcase
          rw [substitute_cut hm hcase, show invoiceText = '<' :: "INVOICE>".toList from rfl, List.cons_append,
            substitute_keep (macaroonPattern_spares (by decide) _ _)]
          exact ⟨fun _ => .inr htag, fun _ => hopen⟩
      | none =>
          have huntagged : ¬ tagged (c :: b) = true := by
            intro htag
            rw [invoicePattern_eq, if_pos htag] at hcase
            cases hcase
          rw [substitute_keep hcase]
          have hleft : Bounded isAlnum
              (substitute macaroonPattern 0 prev (c :: substitute invoicePattern 0 (some c) b)).head? ↔
                Bounded isAlnum (some c) := by
            generalize substitute invoicePattern 0 (some c) b = X
            cases hpath : macaroonPattern prev (c :: X) with
            | none =>
                rw [substitute_keep hpath]
                exact Iff.rfl
            | some found =>
                obtain ⟨n, r⟩ := found
                obtain ⟨m, s, hs, hm, rfl⟩ := macaroonPattern_valid.split hpath
                obtain ⟨t, _, _, ht, -⟩ := macaroonPattern_some hpath
                obtain ⟨rfl, -⟩ := List.cons_eq_cons.mp ht
                rw [hs] at hpath ⊢
                obtain ⟨-, rfl, -⟩ := macaroon_match hpath
                rw [substitute_cut hm hpath]
                exact ⟨fun _ => hslash, fun _ => hopen⟩
          rw [hleft]
          exact ⟨.inl, fun h => h.resolve_right huntagged⟩

/-- `.macaroon` at the end of a text stays when the invoices are replaced, and comes from nothing else. -/
theorem Visits.endsPath {a A s : List Char} (h : Visits invoicePattern a A s) : EndsPath A ↔ EndsPath a := by
  have hletters : ∀ c ∈ macaroonSuffix, c.toLower ≠ 'l' := forall_mem_of_all (by decide)
  constructor
  · rintro ⟨A', rfl, hgoing⟩
    have hlast : ∀ prev s n r, invoicePattern prev s = some (n, r) → r.getLast? = some '>' := by
      intro prev s n r hmatch
      obtain ⟨-, -, rfl⟩ := invoicePattern_some hmatch
      rfl
    obtain ⟨a', rfl, hvisit⟩ := h.peel hlast (by decide)
    exact ⟨a', rfl, hvisit.paths.2.mp hgoing⟩
  · rintro ⟨a', rfl, hgoing⟩
    obtain ⟨A', hvisit⟩ := visited_before a' (c := '.') (s := "macaroon".toList ++ s) (by decide)
    have hnext := hvisit.spared fun c hc => invoicePattern_spares (hletters c hc)
    obtain rfl := h.unique hnext
    exact ⟨A', rfl, hvisit.paths.2.mpr hgoing⟩

/-- The scan for macaroon paths has just written one, where the text read ends with one. -/
theorem HexRun.written_path {w a A B : List Char} (hw : HexRun w) (h : Visits macaroonPattern a A (w ++ B))
    (hends : EndsPath a) : A.getLast? = some '>' := by
  obtain ⟨a', rfl, x, z, rfl, hne, hz⟩ := hends
  have hpath : HasPath (macaroonSuffix ++ (w ++ B)) := ⟨[], w ++ B, rfl, by simp⟩
  rcases visited_or_inside macaroonPattern_valid (x ++ '/' :: z) (macaroonSuffix ++ (w ++ B)) with
    ⟨out, hvisit⟩ | ⟨a₀, out, m₁, m₂, s', r, ha, hs, hm₁, hm₂, hvisit, hmatch⟩
  · -- the path would have been found at its slash
    exact absurd ⟨x, z, [], w ++ B, rfl, hz, ⟨rfl, by simp⟩, by simpa using hne⟩ hvisit.not_inPath
  · obtain ⟨⟨y, hm, -, hy⟩, rfl, -⟩ := macaroon_match hmatch
    rw [ha] at h
    -- the match ends here …
    have hends : m₂ = macaroonSuffix → A.getLast? = some '>' := by
      rintro rfl
      obtain rfl := List.append_cancel_left hs
      have hcut := hvisit.cut (by simp [hm₁]) hmatch
      rw [← List.append_assoc] at hcut
      obtain rfl := h.unique hcut
      rw [getLast?_append_of_ne_nil (by decide)]
      rfl
    rcases List.append_eq_append_iff.mp hs with ⟨u, rfl, hu⟩ | ⟨u, hu, rfl⟩
    · by_cases hnil : u = []
      · exact hends (by rw [hnil, List.append_nil])
      · -- … or goes on past the digits, which it does not
        rw [← List.append_assoc] at hm
        obtain ⟨⟨m', hm', hchars⟩, hrest⟩ := hw.hasPath_of_tail (by simp [hm₁]) hm hy hnil hu.symm
        refine absurd ⟨⟨a₀, m', ?_, hchars⟩, (hw.hasPath B).mp hrest⟩ ((hw.visited_macaroon _ B).mp ⟨A, h⟩)
        rw [List.append_assoc, hm']
    · by_cases hnil : u = []
      · exact hends (by rw [hu, hnil, List.append_nil])
      · -- … since it ends with an n
        have hlast : m₂.getLast? = some 'n' := by
          rw [← getLast?_append_of_ne_nil hm₂ (a := m₁), hm, ← List.cons_append, getLast?_append_of_ne_nil (by decide)]
          rfl
        have hinit : m₂ ++ u.dropLast = ".macaroo".toList := by
          rw [← List.dropLast_append_of_ne_nil hnil, ← hu]
          rfl
        have hmem : 'n' ∈ ".macaroo".toList := by
          rw [← hinit]
          exact List.mem_append_left _ (List.mem_of_getLast? hlast)
        exact absurd hmem (by decide)

/-- Before letters and digits the last character is the one that was read. -/
theorem Visits.getLast?_invoice {a A s : List Char} {c : Char} (h : Visits invoicePattern a A (c :: s))
    (hc : invoiceChar c = true) : A.getLast? = a.getLast? := by
  cases h with
  | start => rfl
  | keep _ _ => rw [List.getLast?_concat, List.getLast?_concat]
  | cut _ _ hmatch =>
      obtain ⟨-, -, hend, -⟩ := invoice_match hmatch
      rw [hend c rfl] at hc
      cases hc

/-- Before the digits, invoices and paths replaced, a word starts where it did, or where a path ends. -/
theorem bounded_left (hclass : AsciiClass isAlnum) {w a A₁ A₂ b B : List Char} (hw : HexRun w)
    (hinvoice : Visits invoicePattern a A₁ (w ++ b)) (hmacaroon : Visits macaroonPattern A₁ A₂ (w ++ B)) :
    Bounded isAlnum A₂.getLast? ↔ (Bounded isAlnum a.getLast? ∨ EndsPath a) := by
  have hclose : Bounded isAlnum (some '>') := bounded_of_ascii hclass (by decide) (by decide)
  have hsame : A₁.getLast? = a.getLast? := by
    obtain ⟨c, w', rfl⟩ := List.exists_cons_of_ne_nil hw.ne_nil
    exact hinvoice.getLast?_invoice (invoiceChar_of_hexDigit (hw.digits c (by simp)))
  rw [← hsame, ← hinvoice.endsPath]
  constructor
  · intro h
    generalize w ++ B = s at hmacaroon
    cases hmacaroon with
    | start => exact .inl h
    | keep _ _ =>
        rw [List.getLast?_concat] at h ⊢
        exact .inl h
    | @cut x out m s r hvisit hm hmatch =>
        obtain ⟨⟨y, rfl, hne, hy⟩, -⟩ := macaroon_match hmatch
        exact .inr ⟨x ++ '/' :: y, by simp, x, y, rfl, hne, hy⟩
  · rintro (h | hends)
    · generalize w ++ B = s at hmacaroon
      cases hmacaroon with
      | start => exact h
      | keep _ _ =>
          rw [List.getLast?_concat] at h ⊢
          exact h
      | @cut x out m s r hvisit hm hmatch =>
          obtain ⟨-, rfl, -⟩ := macaroon_match hmatch
          rw [getLast?_append_of_ne_nil (by decide)]
          exact hclose
    · rw [hw.written_path hmacaroon hends]
      exact hclose

/-! ## Hashes and what stays -/

/-- **A word of 64 characters that is no hash is copied.** -/
theorem word_kept {w a b : List Char} (hlen : w.length = 64) (hw : ∀ c ∈ w, wordChar isAlnum c = true)
    (hno : hashPattern isAlnum a.getLast? (w ++ b) = none) :
    ∃ A B, substitute (hashPattern isAlnum) 0 none (a ++ (w ++ b)) = A ++ (w ++ B) := by
  rcases visited_or_inside (hashPattern_valid isAlnum) a (w ++ b) with
    ⟨A, hvisit⟩ | ⟨a₀, out, m₁, m₂, s', r, rfl, hs, hm₁, hm₂, -, hmatch⟩
  · obtain ⟨c, w, rfl⟩ := List.exists_cons_of_ne_nil (l := w) (by
      rintro rfl
      cases hlen)
    have hcopy := @substitute_word _ c (hw c (by simp)) w (fun d hd => hw d (by simp [hd])) b
    have hkeep : substitute (hashPattern isAlnum) 0 a.getLast? (c :: (w ++ b)) = _ := substitute_keep hno
    rw [hvisit.written, List.cons_append, hkeep, hcopy]
    exact ⟨A, _, rfl⟩
  · -- a hash that starts before the word would end in it
    obtain ⟨v, b', hv, hvlen, hn, -, -, -, hbound⟩ := hashPattern_some hmatch
    obtain ⟨-, rfl⟩ := List.append_inj hv (by omega)
    have hshort : m₂.length < w.length := by
      have := List.length_pos_iff.mpr hm₁
      rw [List.length_append] at hn
      omega
    obtain ⟨u, rfl, hu⟩ : ∃ u, w = m₂ ++ u ∧ s' = u ++ b := by
      rcases List.append_eq_append_iff.mp hs with ⟨u, rfl, -⟩ | ⟨u, rfl, hu⟩
      · rw [List.length_append] at hshort
        omega
      · exact ⟨u, rfl, hu⟩
    obtain ⟨d, u, rfl⟩ := List.exists_cons_of_ne_nil (l := u) (by
      rintro rfl
      rw [List.append_nil] at hshort
      omega)
    rw [hu, List.cons_append, List.head?_cons, Bounded, Option.any_some, hw d (by simp)] at hbound
    cases hbound

/-- Once invoices and paths are replaced, the hash pattern passes over digits as `Leaks` says. -/
theorem hashPattern_none (hclass : AsciiClass isAlnum) {w a A₁ A₂ b B : List Char} (hw : HexRun w)
    (prev prev' : Option Char) (hinvoice : Visits invoicePattern a A₁ (w ++ b))
    (hmacaroon : Visits macaroonPattern A₁ A₂ (w ++ B)) :
    hashPattern isAlnum A₂.getLast?
        (w ++ substitute macaroonPattern 0 prev (substitute invoicePattern 0 prev' b)) = none ↔
      ¬ ((∀ c ∈ w, hexChar c = true) ∧ (Bounded isAlnum a.getLast? ∨ EndsPath a) ∧
        (Bounded isAlnum b.head? ∨ tagged b = true)) := by
  rw [hashPattern_eq hw.length, ite_eq_right_iff, ← bounded_left hclass hw hinvoice hmacaroon,
    ← bounded_right hclass prev prev' b]
  constructor
  · rintro hno ⟨hhex, hleft, hright⟩
    cases hno ⟨hleft, List.all_eq_true.mpr hhex, hright⟩
  · rintro hno ⟨hleft, hhex, hright⟩
    exact absurd ⟨List.all_eq_true.mp hhex, hleft, hright⟩ hno

/-! ## What a redaction leaves -/

theorem invoice_last (prev : Option Char) (s : List Char) (n : Nat) (r : List Char)
    (h : invoicePattern prev s = some (n, r)) : r.getLast? = some '>' ∧ r.length = 9 := by
  obtain ⟨-, -, rfl⟩ := invoicePattern_some h
  exact ⟨rfl, rfl⟩

theorem macaroon_last (prev : Option Char) (s : List Char) (n : Nat) (r : List Char)
    (h : macaroonPattern prev s = some (n, r)) : r.getLast? = some '>' ∧ r.length = 15 := by
  obtain ⟨_, _, _, -, -, -, -, rfl, -⟩ := macaroonPattern_some h
  exact ⟨rfl, rfl⟩

theorem HexRun.word (hclass : AsciiClass isAlnum) {w : List Char} (hw : HexRun w) :
    ∀ c ∈ w, wordChar isAlnum c = true :=
  fun c hc => wordChar_of_isAlphanum hclass (isAlphanum_of_hexDigit (hw.digits c hc))

/-- Digits that come out went in, and leak there. -/
theorem leaks_of_mem (hclass : AsciiClass isAlnum) {t A w B : List Char} (hw : HexRun w)
    (h : afterHashes isAlnum t = A ++ (w ++ B)) : ∃ a b, t = a ++ (w ++ b) ∧ Leaks isAlnum a w b := by
  have hopen : '<' ∉ w := hw.not_mem (by decide)
  have hclose : '>' ∉ w := hw.not_mem (by decide)
  obtain ⟨a₂, b₂, hpaths, -, hno, -⟩ := hash_window hclass h hw.length (hw.word hclass)
  obtain ⟨a₁, b₁, hinvoices, hmacaroon, rfl⟩ := window_written macaroonPattern_valid macaroon_mark
    (fun prev s n r h => (macaroon_last prev s n r h).1)
    (fun prev s n r h => by rw [(macaroon_last prev s n r h).2, hw.length]; omega) hw.ne_nil hopen hclose hpaths
  obtain ⟨a, b, ht, hinvoice, rfl⟩ := window_written invoicePattern_valid invoice_mark
    (fun prev s n r h => (invoice_last prev s n r h).1)
    (fun prev s n r h => by rw [(invoice_last prev s n r h).2, hw.length]; omega) hw.ne_nil hopen hclose hinvoices
  refine ⟨a, b, ht, hw, ?_, ?_, (hashPattern_none hclass hw _ _ hinvoice hmacaroon).mp hno⟩
  · obtain ⟨c, w, rfl⟩ := List.exists_cons_of_ne_nil hw.ne_nil
    exact hinvoice.not_inInvoice ⟨c, rfl, invoiceChar_of_hexDigit (hw.digits c (by simp))⟩
  · rw [← hinvoice.paths.1, ← hasPath_invoice]
    exact (hw.visited_macaroon a₁ _).mp ⟨a₂, hmacaroon⟩

/-- … and digits that leak come out. -/
theorem Leaks.mem (hclass : AsciiClass isAlnum) {a w b : List Char} (h : Leaks isAlnum a w b) :
    ∃ A B, afterHashes isAlnum (a ++ (w ++ b)) = A ++ (w ++ B) := by
  obtain ⟨hw, hinvoice, hpath, hhash⟩ := h
  obtain ⟨A₁, hvisit₁⟩ := visited_of_not_inInvoice hinvoice
  have hspared : ∀ c ∈ w, ∀ prev s, invoicePattern prev (c :: s) = none :=
    fun c hc => invoicePattern_spares (toLower_of_hexDigit (hw.digits c hc))
  have hinvoices : afterInvoices (a ++ (w ++ b)) =
      A₁ ++ (w ++ substitute invoicePattern 0 (w.getLast?.or a.getLast?) b) := by
    rw [afterInvoices, hvisit₁.written, substitute_spared hspared]
  rw [← hvisit₁.paths.1, ← @hasPath_invoice (w.getLast?.or a.getLast?)] at hpath
  obtain ⟨A₂, hvisit₂⟩ := (hw.visited_macaroon A₁ _).mpr hpath
  have hspared' : ∀ c ∈ w, ∀ prev s, macaroonPattern prev (c :: s) = none :=
    fun c hc => macaroonPattern_spares fun hslash => hw.not_mem (by decide) (hslash ▸ hc)
  have hpaths : afterPaths (a ++ (w ++ b)) = A₂ ++ (w ++ substitute macaroonPattern 0 (w.getLast?.or A₁.getLast?)
      (substitute invoicePattern 0 (w.getLast?.or a.getLast?) b)) := by
    rw [afterPaths, hinvoices, hvisit₂.written, substitute_spared hspared']
  rw [afterHashes, hpaths]
  exact word_kept hw.length (hw.word hclass) ((hashPattern_none hclass hw _ _ hvisit₁ hvisit₂).mpr hhash)

/-- An invoice is a tag and a letter or digit. -/
theorem Invoice.tagged {s : List Char} (h : Invoice s) : tagged s = true := by
  obtain ⟨tag, htag, m, c, s', rfl, hm, hc⟩ := h
  have hchar : invoiceChar c = true := by rw [invoiceChar, hc, Bool.true_or]
  have hlen := congrArg List.length hm
  rw [List.length_map] at hlen
  have hfour : ∀ l : List Char, l.length = 4 → (l = "lnbc".toList ∨ l = "lntb".toList) → m.map Char.toLower = l →
      Redact.tagged (m ++ c :: s') = true := by
    intro l hl htag hm
    have hlen : m.length = 4 := by
      rw [← List.length_map Char.toLower, hm, hl]
    simp only [Redact.tagged, List.take_left' hlen, List.drop_left' hlen, Bool.and_eq_true, Bool.or_eq_true,
      decide_eq_true_eq]
    exact ⟨hm ▸ htag, hchar⟩
  simp only [List.mem_cons, List.not_mem_nil, or_false] at htag
  rcases htag with rfl | rfl | rfl
  · exact hfour _ rfl (.inl rfl) hm
  · exact hfour _ rfl (.inr rfl) hm
  · have hsix : m.length = 6 := hlen
    exact tagged_of_bcrt (by rw [List.take_left' hsix, hm])

/-- What the redaction of a text has to be: without hex digits in a row, without invoices, and for good. -/
structure Redacted (isAlnum : Char → Bool) (text : String) : Prop where
  hashes   : ∀ A w B, (redactSensitive isAlnum text).toList = A ++ (w ++ B) → ¬ HexRun w
  invoices : ∀ A B, (redactSensitive isAlnum text).toList = A ++ B → ¬ Invoice B
  again    : redactSensitive isAlnum (redactSensitive isAlnum text) = redactSensitive isAlnum text

/-- **A text is redacted unless 64 of its hex digits leak.** -/
theorem redacted_iff {isAlnum : Char → Bool} (hclass : AsciiClass isAlnum) (text : String) :
    Redacted isAlnum text ↔ ∀ a w b, text.toList = a ++ (w ++ b) → ¬ Leaks isAlnum a w b := by
  constructor
  · intro h a w b htext hleaks
    obtain ⟨A, B, hmem⟩ := hleaks.mem hclass
    rw [← htext, ← toList_redactSensitive] at hmem
    exact h.hashes A w B hmem hleaks.run
  · intro h
    refine ⟨?_, ?_, redactSensitive_idem hclass text⟩
    · intro A w B hmem hw
      rw [toList_redactSensitive] at hmem
      obtain ⟨a, b, htext, hleaks⟩ := leaks_of_mem hclass hw hmem
      exact h a w b htext hleaks
    · intro A B hmem hinvoice
      rw [toList_redactSensitive] at hmem
      have huntagged := untagged_afterHashes A B hmem
      rw [hinvoice.tagged] at huntagged
      cases huntagged

/-- A text too short for a hash is redacted. -/
theorem redacted_short : Redacted Char.isAlphanum "pay LNBC10x" := by
  refine (redacted_iff (fun _ _ => rfl) "pay LNBC10x").mpr ?_
  intro a w b htext hleaks
  have hlen := congrArg List.length htext
  rw [List.length_append, List.length_append, hleaks.run.length] at hlen
  have hshort : "pay LNBC10x".toList.length = 11 := rfl
  omega

/-- A payment hash in upper case is left as it is. -/
theorem not_redacted_upper :
    ¬ ∀ isAlnum : Char → Bool, AsciiClass isAlnum → ∀ text : String, Redacted isAlnum text := by
  intro h
  have hclass : AsciiClass Char.isAlphanum := fun _ _ => rfl
  have hredacted := h Char.isAlphanum hclass (String.ofList (List.replicate 64 'A'))
  have hleaks : Leaks Char.isAlphanum [] (List.replicate 64 'A') [] := by
    refine ⟨⟨List.length_replicate, ?_⟩, ?_, ?_, ?_⟩
    · intro c hc
      obtain rfl := List.eq_of_mem_replicate hc
      decide
    · rintro ⟨x, y, hsplit, hy, -⟩
      exact hy (List.append_eq_nil_iff.mp hsplit.symm).2
    · rintro ⟨⟨x, z, hsplit, -⟩, -⟩
      simp at hsplit
    · rintro ⟨hhex, -⟩
      exact absurd (hhex 'A' (by simp)) (by decide)
  obtain ⟨A, B, hmem⟩ := hleaks.mem hclass
  refine hredacted.hashes A _ B ?_ hleaks.run
  rw [toList_redactSensitive, String.toList_ofList]
  simpa using hmem

end Sides

end Redact
end HermesPayments
