import HermesPayments.Redact.Patterns

/-!
# `HermesPayments.Redact.Clean` — what is redacted stays so

No pattern matches in what the three substitutions have written: each of them leaves no match of its own, and makes
none of an earlier pattern. So redacting a second time changes nothing (`redactSensitive_idem`).
-/

namespace HermesPayments
namespace Redact

open Lib

variable {p : Pattern} {t : List Char}

/-! ## No invoice is left -/

/-- No invoice starts at a place of the text. -/
def Untagged (t : List Char) : Prop := ∀ a s, t = a ++ s → tagged s = false

theorem Untagged.clean (h : Untagged t) : Clean invoicePattern t := by
  intro a s hs
  rw [invoicePattern_eq, h a s hs]
  rfl

/-- A substitution writes no tag unless it keeps one. -/
theorem untagged_written (hp : p.Valid) {mark : Char} (hmark : p.Marked mark) (hmarkChar : invoiceChar mark = false)
    (hreplaced : ∀ prev s n r, p prev s = some (n, r) → ∀ c ∈ r, c.toLower ≠ 'l')
    (hkept : ∀ a s, t = a ++ s → p a.getLast? s = none → tagged s = false) : Untagged (substitute p 0 none t) := by
  intro A B hB
  by_contra htag
  obtain ⟨m, B', rfl, hlen, hall, ⟨c, hhead, hc⟩, hmore⟩ := tagged_split (by simpa using htag)
  obtain ⟨m, rfl⟩ : ∃ m', m = c :: m' := by
    cases m with
    | nil => cases hhead
    | cons d m =>
        obtain rfl := Option.some.inj hhead
        exact ⟨m, rfl⟩
  rw [List.cons_append] at hB
  rcases written_char hp hB with ⟨a, s, ht, -, hno, hs⟩ | ⟨a, out, m', s, r₁, r₂, -, -, hmatch, -, -⟩
  · -- what follows the letter is what was read
    have hmem : mark ∉ m := by
      intro hmem
      rw [hall mark (List.mem_cons_of_mem _ hmem)] at hmarkChar
      cases hmarkChar
    have hread : m <+: substitute p 0 (some c) s := ⟨B', hs.symm⟩
    obtain ⟨s', rfl⟩ : m <+: s := hmark.prefix_read hp hread hmem
    have huntagged := hkept a _ ht hno
    rw [← List.cons_append, hmore] at huntagged
    cases huntagged
  · exact hreplaced _ _ _ _ hmatch c (by simp) hc

theorem untagged_invoice : Untagged (substitute invoicePattern 0 none t) := by
  refine untagged_written invoicePattern_valid (Pattern.marked_of_head invoice_mark) (by decide) ?_ ?_
  · intro prev s n r h
    obtain ⟨-, -, rfl⟩ := invoicePattern_some h
    exact forall_mem_of_all (by decide)
  · intro a s _ hno
    rw [invoicePattern_eq] at hno
    by_contra htag
    rw [if_pos (by simpa using htag)] at hno
    cases hno

theorem untagged_macaroon (h : Untagged t) : Untagged (substitute macaroonPattern 0 none t) := by
  refine untagged_written macaroonPattern_valid (Pattern.marked_of_head macaroon_mark) (by decide) ?_
    fun a s ht _ => h a s ht
  intro prev s n r h
  obtain ⟨_, _, _, -, -, -, -, rfl, -⟩ := macaroonPattern_some h
  exact forall_mem_of_all (by decide)

/-- A hex digit is no letter of a tag. -/
theorem toLower_of_hexChar {c : Char} (h : hexChar c = true) : c.toLower ≠ 'l' := by
  intro hl
  have hvalue := toNat_of_toLower hl
  have hrange := hexChar_range h
  omega

theorem untagged_hash {isAlnum : Char → Bool} (h : Untagged t) :
    Untagged (substitute (hashPattern isAlnum) 0 none t) := by
  refine untagged_written (hashPattern_valid _) (hashPattern_marked _) (by decide) ?_ fun a s ht _ => h a s ht
  intro prev s n r h
  obtain ⟨w, b, -, -, -, rfl, -, hhex, -⟩ := hashPattern_some h
  intro c hc
  rcases List.mem_append.mp hc with hc | hc
  · exact toLower_of_hexChar (hhex c (List.mem_of_mem_take hc))
  · have hdots : ∀ c ∈ "...".toList, c.toLower ≠ 'l' := forall_mem_of_all (by decide)
    exact hdots c hc

/-! ## No macaroon path is left -/

/-- The text is a first path character, and a path to `.macaroon` from there: what a slash in front would match. -/
def HasPath (s : List Char) : Prop := ∃ y z, PathTo y z s

def LongPath (s : List Char) : Prop := ∃ c s', s = c :: s' ∧ pathChar c = true ∧ HasPath s'

/-- No macaroon path starts at a place of the text. -/
def Pathless (t : List Char) : Prop := ∀ a s, t = a ++ '/' :: s → ¬ LongPath s

theorem longPath_iff {s : List Char} : LongPath s ↔ ∃ y z, PathTo y z s ∧ y ≠ [] := by
  constructor
  · rintro ⟨c, s', rfl, hc, y, z, rfl, hy⟩
    exact ⟨c :: y, z, ⟨rfl, by simpa using ⟨hc, hy⟩⟩, by simp⟩
  · rintro ⟨y, z, ⟨rfl, hy⟩, hne⟩
    obtain ⟨c, y, rfl⟩ := List.exists_cons_of_ne_nil hne
    refine ⟨c, y ++ (macaroonSuffix ++ z), rfl, hy c (by simp), y, z, rfl, fun d hd => hy d (by simp [hd])⟩

theorem Pathless.clean (h : Pathless t) : Clean macaroonPattern t := by
  intro a s hs
  by_contra hmatch
  obtain ⟨⟨n, r⟩, hfound⟩ := Option.ne_none_iff_exists'.mp hmatch
  obtain ⟨s', y, z, rfl, hpath, hy, -⟩ := macaroonPattern_some hfound
  exact h a s' hs (longPath_iff.mpr ⟨y, z, hpath, hy⟩)

/-- A path starts with `.macaroon`, or goes on after its first character. -/
theorem hasPath_cons {c : Char} {s : List Char} :
    HasPath (c :: s) ↔ (c = '.' ∧ "macaroon".toList <+: s) ∨ (pathChar c = true ∧ HasPath s) := by
  constructor
  · rintro ⟨y, z, hs, hy⟩
    cases y with
    | nil =>
        have hs : c :: s = '.' :: ("macaroon".toList ++ z) := hs
        obtain ⟨hc, hrest⟩ := List.cons_eq_cons.mp hs
        exact .inl ⟨hc, z, hrest.symm⟩
    | cons d y =>
        obtain ⟨rfl, rfl⟩ := List.cons_eq_cons.mp hs
        exact .inr ⟨hy c (by simp), y, z, rfl, fun e he => hy e (by simp [he])⟩
  · rintro (⟨rfl, z, rfl⟩ | ⟨hc, y, z, rfl, hy⟩)
    · exact ⟨[], z, rfl, by simp⟩
    · exact ⟨c :: y, z, rfl, by simpa using ⟨hc, hy⟩⟩

/-- Path characters in front leave a path. -/
theorem HasPath.append {x s : List Char} (hx : ∀ c ∈ x, pathChar c = true) (h : HasPath s) : HasPath (x ++ s) := by
  obtain ⟨y, z, rfl, hy⟩ := h
  refine ⟨x ++ y, z, by simp, ?_⟩
  intro c hc
  rcases List.mem_append.mp hc with hc | hc
  · exact hx c hc
  · exact hy c hc

/-- … and characters other than the dot make none. -/
theorem HasPath.of_append {x s : List Char} (hx : '.' ∉ x) (h : HasPath (x ++ s)) : HasPath s := by
  induction x with
  | nil => exact h
  | cons c x ih =>
      rcases hasPath_cons.mp h with ⟨rfl, -⟩ | ⟨-, hrest⟩
      · exact absurd (by simp) hx
      · exact ih (fun hmem => hx (List.mem_cons_of_mem _ hmem)) hrest

/-- Where a character is kept, what is written after it has a path only if what is read has one. -/
theorem hasPath_keep {mark : Char} (hp : p.Valid) (hmark : p.Marked mark) (hmem : mark ∉ "macaroon".toList)
    {c : Char} {s : List Char} (ih : HasPath (substitute p 0 (some c) s) → HasPath s)
    (h : HasPath (c :: substitute p 0 (some c) s)) : HasPath (c :: s) := by
  rw [hasPath_cons] at h ⊢
  rcases h with ⟨hc, hpre⟩ | ⟨hc, hrest⟩
  · exact .inl ⟨hc, hmark.prefix_read hp hpre hmem⟩
  · exact .inr ⟨hc, ih hrest⟩

theorem hasPath_of_macaroon {prev : Option Char} {s : List Char}
    (h : HasPath (substitute macaroonPattern 0 prev s)) : HasPath s := by
  induction s generalizing prev with
  | nil => exact h
  | cons c s ih =>
      cases hcase : macaroonPattern prev (c :: s) with
      | none =>
          rw [substitute_keep hcase] at h
          exact hasPath_keep macaroonPattern_valid (Pattern.marked_of_head macaroon_mark) (by decide) ih h
      | some found =>
          obtain ⟨n, r⟩ := found
          obtain ⟨t, y, z, hs, hpath, -⟩ := macaroonPattern_some hcase
          rw [hs]
          exact hasPath_cons.mpr (.inr ⟨by decide, y, z, hpath⟩)

theorem longPath_of_macaroon {prev : Option Char} {s : List Char}
    (h : LongPath (substitute macaroonPattern 0 prev s)) : LongPath s := by
  obtain ⟨d, X, hX, hd, hpath⟩ := h
  cases s with
  | nil => cases hX
  | cons c s =>
      cases hcase : macaroonPattern prev (c :: s) with
      | none =>
          rw [substitute_keep hcase] at hX
          obtain ⟨rfl, rfl⟩ := List.cons_eq_cons.mp hX
          exact ⟨c, s, rfl, hd, hasPath_of_macaroon hpath⟩
      | some found =>
          obtain ⟨n, r⟩ := found
          obtain ⟨t, y, z, hs, hpath, -⟩ := macaroonPattern_some hcase
          rw [hs]
          exact ⟨_, t, rfl, by decide, y, z, hpath⟩

/-- A slash that is kept had no path after it. -/
theorem pathless_macaroon : Pathless (substitute macaroonPattern 0 none t) := by
  intro A B hB hlong
  rcases written_char macaroonPattern_valid hB with ⟨a, s, -, -, hno, rfl⟩ | ⟨a, out, m, s, r₁, r₂, -, -, hmatch, -, -⟩
  · obtain ⟨y, z, hpath, hy⟩ := longPath_iff.mp (longPath_of_macaroon hlong)
    exact hy (macaroonPattern_none hno y z hpath)
  · obtain ⟨_, _, _, -, -, -, -, hr, -⟩ := macaroonPattern_some hmatch
    have hslash : '/' ∈ macaroonText := by
      rw [← hr]
      simp
    exact absurd hslash (by decide)

section Hash

variable {isAlnum : Char → Bool}

theorem wordChar_of_isAlphanum (hclass : AsciiClass isAlnum) {c : Char} (h : c.isAlphanum = true) :
    wordChar isAlnum c = true := by
  have hrange := isAlphanum_iff.mp h
  rw [wordChar, hclass c (by omega), h, Bool.true_or]

theorem wordChar_of_hexChar (hclass : AsciiClass isAlnum) {c : Char} (h : hexChar c = true) :
    wordChar isAlnum c = true :=
  wordChar_of_isAlphanum hclass (isAlphanum_of_hexChar h)

/-- A hash starts with a word character. -/
theorem hashPattern_head (hclass : AsciiClass isAlnum) {prev : Option Char} {c : Char} {s : List Char}
    (hc : wordChar isAlnum c = false) : hashPattern isAlnum prev (c :: s) = none := by
  by_contra hmatch
  obtain ⟨⟨n, r⟩, hfound⟩ := Option.ne_none_iff_exists'.mp hmatch
  obtain ⟨w, b, hs, hw, -, -, -, hhex, -⟩ := hashPattern_some hfound
  cases w with
  | nil => cases hw
  | cons d w =>
      obtain ⟨rfl, -⟩ := List.cons_eq_cons.mp hs
      rw [wordChar_of_hexChar hclass (hhex c (by simp))] at hc
      cases hc

/-- A text that no word leads into is written with its first character kept. -/
theorem head?_written (hclass : AsciiClass isAlnum) (prev : Option Char) {b : List Char} (h : Bounded isAlnum b.head?) :
    (substitute (hashPattern isAlnum) 0 prev b).head? = b.head? := by
  cases b with
  | nil => rfl
  | cons c b =>
      rw [substitute_keep (hashPattern_head hclass h)]
      rfl

/-- The dots of a redacted hash and what follows them start no `.macaroon`. -/
theorem hasPath_of_dots (hclass : AsciiClass isAlnum) {s : List Char} (hs : Bounded isAlnum s.head?)
    (h : HasPath ("...".toList ++ s)) : HasPath s := by
  have hm : wordChar isAlnum 'm' = true := wordChar_of_isAlphanum hclass (by decide)
  rcases hasPath_cons.mp h with ⟨-, hpre⟩ | ⟨-, h⟩
  · exact absurd (List.cons_prefix_cons.mp hpre).1 (by decide)
  rcases hasPath_cons.mp h with ⟨-, hpre⟩ | ⟨-, h⟩
  · exact absurd (List.cons_prefix_cons.mp hpre).1 (by decide)
  rcases hasPath_cons.mp h with ⟨-, z, rfl⟩ | ⟨-, h⟩
  · rw [show ("macaroon".toList ++ z).head? = some 'm' from rfl, Bounded, Option.any_some, hm] at hs
    cases hs
  · exact h

theorem dot_not_hex {w : List Char} (hw : ∀ c ∈ w, hexChar c = true) : '.' ∉ w := by
  intro hmem
  exact absurd (hw '.' hmem) (by decide)

/-- … nor does the hash. -/
theorem hasPath_of_redacted (hclass : AsciiClass isAlnum) {w s : List Char} (hw : ∀ c ∈ w, hexChar c = true)
    (hs : Bounded isAlnum s.head?) (h : HasPath (w.take 8 ++ "...".toList ++ s)) : HasPath s := by
  rw [List.append_assoc] at h
  exact hasPath_of_dots hclass hs (h.of_append (dot_not_hex fun c hc => hw c (List.mem_of_mem_take hc)))

theorem hasPath_of_hash (hclass : AsciiClass isAlnum) {prev : Option Char} {s : List Char}
    (h : HasPath (substitute (hashPattern isAlnum) 0 prev s)) : HasPath s := by
  induction hn : s.length using Nat.strong_induction_on generalizing s prev with
  | _ n ih =>
      subst hn
      cases s with
      | nil => exact h
      | cons c s =>
          cases hcase : hashPattern isAlnum prev (c :: s) with
          | none =>
              rw [substitute_keep hcase] at h
              exact hasPath_keep (hashPattern_valid _) (hashPattern_marked _) (by decide)
                (fun hrest => ih s.length (by simp) hrest rfl) h
          | some found =>
              obtain ⟨n, r⟩ := found
              obtain ⟨w, b, hs, hw, rfl, rfl, -, hhex, hbound⟩ := hashPattern_some hcase
              have hlt : b.length < (c :: s).length := by
                rw [hs, List.length_append]
                omega
              rw [hs] at hcase h ⊢
              rw [← hw] at hcase
              have hne : w ≠ [] := by
                rintro rfl
                cases hw
              rw [substitute_cut hne hcase] at h
              have hrest := hasPath_of_redacted hclass hhex (by rw [head?_written hclass _ hbound]; exact hbound) h
              exact (ih b.length hlt hrest rfl).append fun d hd => pathChar_of_invoiceChar (invoiceChar_of_hexChar (hhex d hd))

theorem longPath_of_hash (hclass : AsciiClass isAlnum) {prev : Option Char} {s : List Char}
    (h : LongPath (substitute (hashPattern isAlnum) 0 prev s)) : LongPath s := by
  obtain ⟨d, X, hX, hd, hpath⟩ := h
  cases s with
  | nil => cases hX
  | cons c s =>
      cases hcase : hashPattern isAlnum prev (c :: s) with
      | none =>
          rw [substitute_keep hcase] at hX
          obtain ⟨rfl, rfl⟩ := List.cons_eq_cons.mp hX
          exact ⟨c, s, rfl, hd, hasPath_of_hash hclass hpath⟩
      | some found =>
          obtain ⟨n, r⟩ := found
          obtain ⟨w, b, hs, hw, rfl, rfl, -, hhex, hbound⟩ := hashPattern_some hcase
          cases w with
          | nil => cases hw
          | cons e w =>
              rw [hs] at hcase hX ⊢
              rw [← hw] at hcase
              rw [substitute_cut (by simp) hcase] at hX
              have hwhole : HasPath (d :: X) := hasPath_cons.mpr (.inr ⟨hd, hpath⟩)
              rw [← hX] at hwhole
              have hrest := hasPath_of_redacted hclass hhex (by rw [head?_written hclass _ hbound]; exact hbound) hwhole
              have hchars : ∀ c ∈ e :: w, pathChar c = true :=
                fun c hc => pathChar_of_invoiceChar (invoiceChar_of_hexChar (hhex c hc))
              exact ⟨e, w ++ b, rfl, hchars e (by simp),
                (hasPath_of_hash hclass hrest).append fun c hc => hchars c (by simp [hc])⟩

theorem pathless_hash (hclass : AsciiClass isAlnum) (h : Pathless t) :
    Pathless (substitute (hashPattern isAlnum) 0 none t) := by
  intro A B hB hlong
  rcases written_char (hashPattern_valid _) hB with ⟨a, s, ht, -, -, rfl⟩ | ⟨a, out, m, s, r₁, r₂, -, -, hmatch, -, -⟩
  · exact h a s ht (longPath_of_hash hclass hlong)
  · obtain ⟨w, b, -, -, -, hr, -, hhex, -⟩ := hashPattern_some hmatch
    have hslash : '/' ∈ w.take 8 ++ "...".toList := by
      rw [← hr]
      simp
    rcases List.mem_append.mp hslash with hmem | hmem
    · exact absurd (hhex _ (List.mem_of_mem_take hmem)) (by decide)
    · exact absurd hmem (by decide)

/-! ## No hash is left -/

/-- After a word character no hash starts. -/
theorem hashPattern_after_word {c : Char} (hc : wordChar isAlnum c = true) (s : List Char) :
    hashPattern isAlnum (some c) s = none := by
  by_contra hmatch
  obtain ⟨⟨n, r⟩, hfound⟩ := Option.ne_none_iff_exists'.mp hmatch
  obtain ⟨w, b, -, -, -, -, hbound, -⟩ := hashPattern_some hfound
  rw [Bounded, Option.any_some, hc] at hbound
  cases hbound

/-- From a word character on, a word is copied. -/
theorem substitute_word {c : Char} (hc : wordChar isAlnum c = true) {w : List Char}
    (hw : ∀ d ∈ w, wordChar isAlnum d = true) (b : List Char) :
    substitute (hashPattern isAlnum) 0 (some c) (w ++ b) =
      w ++ substitute (hashPattern isAlnum) 0 (c :: w).getLast? b := by
  induction w generalizing c with
  | nil => rfl
  | cons d w ih =>
      rw [List.cons_append, substitute_keep (hashPattern_after_word hc _), ih (hw d (by simp)) fun e he => hw e (by simp [he])]
      rfl

/-- **A word in what is written is one of the text that is no hash**, when a redacted hash is shorter than it. -/
theorem hash_window (hclass : AsciiClass isAlnum) {A w B : List Char}
    (h : substitute (hashPattern isAlnum) 0 none t = A ++ (w ++ B)) (hlen : w.length = 64)
    (hw : ∀ c ∈ w, wordChar isAlnum c = true) :
    ∃ a b, t = a ++ (w ++ b) ∧ Visits (hashPattern isAlnum) a A (w ++ b) ∧
      hashPattern isAlnum a.getLast? (w ++ b) = none ∧ substitute (hashPattern isAlnum) 0 w.getLast? b = B := by
  have hdot : '.' ∉ w := by
    intro hmem
    have hword := hw '.' hmem
    rw [wordChar, hclass '.' (by decide)] at hword
    exact absurd hword (by decide)
  cases w with
  | nil => cases hlen
  | cons c w =>
      rw [List.cons_append] at h
      rcases written_char (hashPattern_valid _) h with
        ⟨a, s, rfl, hvisit, hno, hs⟩ | ⟨a, out, m, s, r₁, r₂, -, -, hmatch, -, hs⟩
      · have hread : w <+: substitute (hashPattern isAlnum) 0 (some c) s := ⟨B, hs.symm⟩
        obtain ⟨b, rfl⟩ := (hashPattern_marked _).prefix_read (hashPattern_valid _) hread
          fun hmem => hdot (List.mem_cons_of_mem _ hmem)
        rw [substitute_word (hw c (by simp)) fun d hd => hw d (by simp [hd])] at hs
        exact ⟨a, b, rfl, hvisit, hno, List.append_cancel_left hs⟩
      · obtain ⟨v, b, -, hv, -, hr, -⟩ := hashPattern_some hmatch
        refine absurd (@mem_of_replaced c '.' r₁ r₂ w B _ ?_ ?_ hs.symm) hdot
        · rw [hr, getLast?_append_of_ne_nil (by decide)]
          rfl
        · rw [hr, hlen, List.length_append, List.length_take]
          have hdots : "...".toList.length = 3 := rfl
          omega

/-- Where a word goes on, the character before it is the one that was written last. -/
theorem getLast?_written {a A s : List Char} {c : Char} (hvisit : Visits (hashPattern isAlnum) a A (c :: s))
    (hc : wordChar isAlnum c = true) : A.getLast? = a.getLast? := by
  cases hvisit with
  | start => rfl
  | keep _ _ => rw [List.getLast?_concat, List.getLast?_concat]
  | @cut a' out m s' r _ _ hmatch =>
      -- a hash is not followed by a word character
      obtain ⟨w, b, hs, hw, hn, -, -, -, hbound⟩ := hashPattern_some hmatch
      obtain ⟨-, rfl⟩ := List.append_inj hs (by omega)
      rw [List.head?_cons, Bounded, Option.any_some, hc] at hbound
      cases hbound

theorem clean_hash (hclass : AsciiClass isAlnum) :
    Clean (hashPattern isAlnum) (substitute (hashPattern isAlnum) 0 none t) := by
  intro A B hB
  by_contra hmatch
  obtain ⟨⟨n, r⟩, hfound⟩ := Option.ne_none_iff_exists'.mp hmatch
  obtain ⟨w, B, rfl, hlen, -, -, hleft, hhex, hright⟩ := hashPattern_some hfound
  have hword : ∀ c ∈ w, wordChar isAlnum c = true := fun c hc => wordChar_of_hexChar hclass (hhex c hc)
  obtain ⟨a, b, -, hvisit, hno, hrest⟩ := hash_window hclass hB hlen hword
  have hleft' : Bounded isAlnum a.getLast? := by
    cases w with
    | nil => cases hlen
    | cons c w =>
        rw [← getLast?_written hvisit (hword c (by simp))]
        exact hleft
  have hright' : Bounded isAlnum b.head? := by
    cases b with
    | nil => rfl
    | cons d b =>
        -- what follows the word is kept
        obtain ⟨e, he⟩ : ∃ e, w.getLast? = some e := by
          cases hlast : w.getLast? with
          | none =>
              rw [List.getLast?_eq_none_iff.mp hlast] at hlen
              cases hlen
          | some e => exact ⟨e, rfl⟩
        rw [he, substitute_keep (hashPattern_after_word (hword e (List.mem_of_getLast? he)) _)] at hrest
        rw [← hrest] at hright
        exact hright
  rw [hashPattern_eq hlen, if_pos ⟨hleft', List.all_eq_true.mpr hhex, hright'⟩] at hno
  cases hno

end Hash

/-! ## The three substitutions in a row -/

/-- The text once its invoices are replaced. -/
def afterInvoices (t : List Char) : List Char := substitute invoicePattern 0 none t

/-- … and its macaroon paths. -/
def afterPaths (t : List Char) : List Char := substitute macaroonPattern 0 none (afterInvoices t)

/-- … and its hashes. -/
def afterHashes (isAlnum : Char → Bool) (t : List Char) : List Char :=
  substitute (hashPattern isAlnum) 0 none (afterPaths t)

variable {isAlnum : Char → Bool}

theorem toList_redactSensitive (text : String) :
    (redactSensitive isAlnum text).toList = afterHashes isAlnum text.toList := by
  rw [redactSensitive, String.toList_ofList]
  rfl

theorem untagged_afterHashes : Untagged (afterHashes isAlnum t) :=
  untagged_hash (untagged_macaroon untagged_invoice)

theorem afterHashes_idem (hclass : AsciiClass isAlnum) :
    afterHashes isAlnum (afterHashes isAlnum t) = afterHashes isAlnum t := by
  have hinvoices : afterInvoices (afterHashes isAlnum t) = afterHashes isAlnum t :=
    untagged_afterHashes.clean.substitute_eq
  have hpaths : afterPaths (afterHashes isAlnum t) = afterHashes isAlnum t := by
    rw [afterPaths, hinvoices]
    exact (pathless_hash hclass pathless_macaroon).clean.substitute_eq
  rw [afterHashes, hpaths]
  exact (clean_hash hclass).substitute_eq

end Redact

/-- **Redacting again changes nothing.** -/
theorem redactSensitive_idem {isAlnum : Char → Bool} (hclass : Redact.AsciiClass isAlnum) (text : String) :
    redactSensitive isAlnum (redactSensitive isAlnum text) = redactSensitive isAlnum text := by
  rw [← String.toList_inj, Redact.toList_redactSensitive, Redact.toList_redactSensitive, Redact.afterHashes_idem hclass]

end HermesPayments
