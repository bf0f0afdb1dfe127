import HermesPayments.Redact
import Mathlib.Data.List.Induction

/-!
# `HermesPayments.Redact.Scan` — the places a substitution comes to

`Visits p a out s` says that the left-to-right scan for `p` comes to the place after `a` and before `s`, between two
matches, with `out` written so far. A place of the text is visited or inside a match (`visited_or_inside`), and a place
of the written text comes from a visited place or is inside a replacement (`written_or_inside`).
-/

namespace HermesPayments
namespace Redact

/-- A match takes at least one character, and only characters that are there, and leaves something for them. -/
def Pattern.Valid (p : Pattern) : Prop :=
  ∀ prev s n r, p prev s = some (n, r) → 1 ≤ n ∧ n ≤ s.length ∧ r ≠ []

inductive Visits (p : Pattern) : List Char → List Char → List Char → Prop
  | start (t : List Char) : Visits p [] [] t
  | keep {a out s : List Char} {c : Char} (h : Visits p a out (c :: s)) (hno : p a.getLast? (c :: s) = none) :
      Visits p (a ++ [c]) (out ++ [c]) s
  | cut {a out m s r : List Char} (h : Visits p a out (m ++ s)) (hm : m ≠ [])
      (hmatch : p a.getLast? (m ++ s) = some (m.length, r)) : Visits p (a ++ m) (out ++ r) s

/-- The pattern matches nowhere in the text. -/
def Clean (p : Pattern) (t : List Char) : Prop := ∀ a s, t = a ++ s → p a.getLast? s = none

variable {p : Pattern} {a out s t : List Char}

/-- A property of the characters of a text, looked at one by one. -/
theorem forall_mem_of_all {P : Char → Prop} [DecidablePred P] (h : (t.all fun c => decide (P c)) = true) : ∀ c ∈ t, P c :=
  fun c hc => of_decide_eq_true (List.all_eq_true.mp h c hc)

/-! ## One step of the scan -/

theorem substitute_keep {prev : Option Char} {c : Char} (h : p prev (c :: s) = none) :
    substitute p 0 prev (c :: s) = c :: substitute p 0 (some c) s := by
  rw [substitute, h]

theorem getLast?_cons (c : Char) (m : List Char) : (c :: m).getLast? = m.getLast?.or (some c) := by
  rw [List.getLast?_cons]
  cases m.getLast? <;> rfl

theorem substitute_skip (m : List Char) (prev : Option Char) (s : List Char) :
    substitute p m.length prev (m ++ s) = substitute p 0 (m.getLast?.or prev) s := by
  induction m generalizing prev with
  | nil => rfl
  | cons c m ih =>
      rw [List.length_cons, List.cons_append, substitute, ih, getLast?_cons, Option.or_assoc, Option.some_or]

theorem substitute_cut {prev : Option Char} {m r : List Char} (hm : m ≠ [])
    (h : p prev (m ++ s) = some (m.length, r)) :
    substitute p 0 prev (m ++ s) = r ++ substitute p 0 m.getLast? s := by
  obtain ⟨c, m, rfl⟩ := List.exists_cons_of_ne_nil hm
  rw [List.cons_append] at h ⊢
  rw [substitute, h]
  simp only [List.length_cons, Nat.add_sub_cancel]
  rw [substitute_skip, getLast?_cons]

theorem getLast?_append_of_ne_nil {a m : List Char} (hm : m ≠ []) : (a ++ m).getLast? = m.getLast? := by
  rw [List.getLast?_append]
  cases hlast : m.getLast? with
  | none => exact absurd (List.getLast?_eq_none_iff.mp hlast) hm
  | some c => rfl

/-- What is written when the scan has come to a place, and what is written from there on. -/
theorem Visits.written (h : Visits p a out s) :
    substitute p 0 none (a ++ s) = out ++ substitute p 0 a.getLast? s := by
  induction h with
  | start t => rfl
  | @keep a out s c h hno ih =>
      rw [List.append_assoc, List.singleton_append, ih, substitute_keep hno, List.append_assoc,
        List.getLast?_concat]
      rfl
  | @cut a out m s r h hm hmatch ih =>
      rw [List.append_assoc, ih, substitute_cut hm hmatch, List.append_assoc, getLast?_append_of_ne_nil hm]

/-- A text without a match is written as it is. -/
theorem Clean.substitute_eq (h : Clean p t) : substitute p 0 none t = t := by
  have hall : ∀ s a, t = a ++ s → substitute p 0 a.getLast? s = s := by
    intro s
    induction s with
    | nil =>
        intro a _
        rfl
    | cons c s ih =>
        intro a ha
        have hrest := ih (a ++ [c]) (by rw [ha, List.append_assoc]; rfl)
        rw [List.getLast?_concat] at hrest
        rw [substitute_keep (h a _ ha), hrest]
  exact hall t [] rfl

/-! ## Places of the text -/

/-- The place after `a` and before `s` is inside a match. -/
def Inside (p : Pattern) (a s : List Char) : Prop :=
  ∃ a₀ out m₁ m₂ s' r, a = a₀ ++ m₁ ∧ s = m₂ ++ s' ∧ m₁ ≠ [] ∧ m₂ ≠ [] ∧
    Visits p a₀ out (m₁ ++ m₂ ++ s') ∧ p a₀.getLast? (m₁ ++ m₂ ++ s') = some ((m₁ ++ m₂).length, r)

/-- **The scan comes to every place that is not inside a match.** -/
theorem visited_or_inside (hp : p.Valid) (a s : List Char) : (∃ out, Visits p a out s) ∨ Inside p a s := by
  induction a using List.reverseRecOn generalizing s with
  | nil => exact .inl ⟨[], .start s⟩
  | append_singleton a c ih =>
      rcases ih (c :: s) with ⟨out, hvisit⟩ | ⟨a₀, out, m₁, m₂, s', r, ha, hs, hm₁, hm₂, hvisit, hmatch⟩
      · cases hcase : p a.getLast? (c :: s) with
        | none => exact .inl ⟨_, hvisit.keep hcase⟩
        | some found =>
            obtain ⟨n, r⟩ := found
            obtain ⟨hpos, hlen, -⟩ := hp _ _ _ _ hcase
            obtain ⟨k, rfl⟩ : ∃ k, n = k + 1 := ⟨n - 1, by omega⟩
            have hk : (s.take k).length = k := by
              rw [List.length_cons] at hlen
              rw [List.length_take]
              omega
            have hsplit : [c] ++ s.take k ++ s.drop k = c :: s := by simp
            by_cases hzero : s.take k = []
            · rw [hzero, List.length_nil] at hk
              subst hk
              exact .inl ⟨_, Visits.cut (m := [c]) hvisit (by simp) hcase⟩
            · refine .inr ⟨a, out, [c], s.take k, s.drop k, r, rfl, (List.take_append_drop k s).symm, by simp, hzero,
                ?_, ?_⟩
              · rwa [hsplit]
              · rw [hsplit, hcase]
                simp [hk]
      · obtain ⟨d, m₂, rfl⟩ := List.exists_cons_of_ne_nil hm₂
        obtain ⟨rfl, hrest⟩ := List.cons_eq_cons.mp hs
        have hjoin : m₁ ++ c :: m₂ = m₁ ++ [c] ++ m₂ := by simp
        rw [hjoin] at hvisit hmatch
        by_cases hend : m₂ = []
        · subst hend
          rw [List.append_nil] at hvisit hmatch
          refine .inl ⟨out ++ r, ?_⟩
          rw [ha, List.append_assoc, hrest]
          exact hvisit.cut (by simp) hmatch
        · refine .inr ⟨a₀, out, m₁ ++ [c], m₂, s', r, ?_, hrest, by simp, hend, hvisit, hmatch⟩
          rw [ha, List.append_assoc]

/-! ## Places of what is written -/

/-- The character `c`, written between `A` and `B` for `t`, is one of `t` that the scan comes to and keeps. -/
def Kept (p : Pattern) (t A : List Char) (c : Char) (B : List Char) : Prop :=
  ∃ a s, t = a ++ c :: s ∧ Visits p a A (c :: s) ∧ p a.getLast? (c :: s) = none ∧ substitute p 0 (some c) s = B

/-- … or it is one of a replacement. -/
def Replaced (p : Pattern) (t A : List Char) (c : Char) (B : List Char) : Prop :=
  ∃ a out m s r₁ r₂, t = a ++ (m ++ s) ∧ Visits p a out (m ++ s) ∧
    p a.getLast? (m ++ s) = some (m.length, r₁ ++ c :: r₂) ∧ A = out ++ r₁ ∧ B = r₂ ++ substitute p 0 m.getLast? s

/-- A match at the head of a text takes a first part of it. -/
theorem Pattern.Valid.split (hp : p.Valid) {prev : Option Char} {n : Nat} {r : List Char}
    (h : p prev s = some (n, r)) : ∃ m s', s = m ++ s' ∧ m ≠ [] ∧ n = m.length := by
  obtain ⟨hpos, hlen, -⟩ := hp _ _ _ _ h
  have hn : (s.take n).length = n := by
    rw [List.length_take]
    omega
  refine ⟨s.take n, s.drop n, (List.take_append_drop n s).symm, ?_, hn.symm⟩
  intro hnil
  rw [hnil, List.length_nil] at hn
  omega

theorem Visits.char (hp : p.Valid) {A' B : List Char} {c : Char} (hvisit : Visits p a out s)
    (hB : substitute p 0 a.getLast? s = A' ++ c :: B) :
    Kept p (a ++ s) (out ++ A') c B ∨ Replaced p (a ++ s) (out ++ A') c B := by
  induction hn : s.length using Nat.strong_induction_on generalizing a out s A' with
  | _ n ih =>
      subst hn
      cases s with
      | nil => simp [substitute] at hB
      | cons e s =>
          cases hcase : p a.getLast? (e :: s) with
          | none =>
              rw [substitute_keep hcase] at hB
              cases A' with
              | nil =>
                  obtain ⟨rfl, hrest⟩ := List.cons_eq_cons.mp hB
                  rw [List.append_nil]
                  exact .inl ⟨a, s, rfl, hvisit, hcase, hrest⟩
              | cons d A' =>
                  obtain ⟨rfl, hrest⟩ := List.cons_eq_cons.mp hB
                  have hnext := ih s.length (by simp) (hvisit.keep hcase)
                    (by rw [List.getLast?_concat]; exact hrest) rfl
                  simpa using hnext
          | some found =>
              obtain ⟨n, r⟩ := found
              obtain ⟨m, s', hs, hm, rfl⟩ := hp.split hcase
              have hlt : s'.length < (e :: s).length := by
                rw [hs, List.length_append]
                have := List.length_pos_iff.mpr hm
                omega
              rw [hs] at hcase hvisit hB ⊢
              -- what comes after the replacement
              have hpast : ∀ x, A' = r ++ x → substitute p 0 m.getLast? s' = x ++ c :: B →
                  Kept p (a ++ (m ++ s')) (out ++ A') c B ∨ Replaced p (a ++ (m ++ s')) (out ++ A') c B := by
                intro x hA hx
                have hnext := ih s'.length hlt (hvisit.cut hm hcase)
                  (by rw [getLast?_append_of_ne_nil hm]; exact hx) rfl
                rw [hA]
                simpa using hnext
              rw [substitute_cut hm hcase] at hB
              rcases List.append_eq_append_iff.mp hB with ⟨x, hA, hx⟩ | ⟨x, hr, hx⟩
              · exact hpast x hA hx
              · cases x with
                | nil =>
                    rw [List.append_nil] at hr
                    refine hpast [] ?_ hx.symm
                    rw [hr, List.append_nil]
                | cons d x =>
                    obtain ⟨rfl, hrest⟩ := List.cons_eq_cons.mp hx
                    subst hr
                    exact .inr ⟨a, out, m, s', A', x, rfl, hvisit, hcase, rfl, hrest⟩

/-- **A written character is kept or replaced.** -/
theorem written_char (hp : p.Valid) {A B : List Char} {c : Char} (h : substitute p 0 none t = A ++ c :: B) :
    Kept p t A c B ∨ Replaced p t A c B := by
  simpa using (Visits.start t).char hp h

/-- A text that begins inside a replacement, and is longer than it, holds its last character. -/
theorem mem_of_replaced {c e : Char} {r₁ r₂ w B X : List Char} (hlast : (r₁ ++ c :: r₂).getLast? = some e)
    (hlen : (r₁ ++ c :: r₂).length ≤ (c :: w).length) (h : r₂ ++ X = w ++ B) : e ∈ c :: w := by
  have hmem : e ∈ c :: r₂ := by
    rw [getLast?_append_of_ne_nil (by simp)] at hlast
    exact List.mem_of_getLast? hlast
  have hpre : c :: r₂ <+: c :: w := by
    refine @List.prefix_of_prefix_length_le _ _ _ (c :: (w ++ B)) ⟨X, ?_⟩ (List.prefix_append (c :: w) B) ?_
    · rw [List.cons_append, h]
    · rw [List.length_append] at hlen
      omega
  exact hpre.subset hmem

/-! ## Replacements that can be told from the text -/

/-- What a replacement shows before its first `mark` is what the match began with. -/
def Pattern.Marked (p : Pattern) (mark : Char) : Prop :=
  ∀ prev m s r, p prev (m ++ s) = some (m.length, r) → ∃ y z, r = y ++ mark :: z ∧ y <+: m

theorem prefix_of_prefix_append {mark : Char} {x y z : List Char} (h : x <+: y ++ mark :: z) (hx : mark ∉ x) :
    x <+: y := by
  obtain ⟨t, ht⟩ := h
  rcases List.append_eq_append_iff.mp ht with ⟨u, rfl, _⟩ | ⟨u, rfl, hu⟩
  · exact List.prefix_append _ _
  · cases u with
    | nil => simp
    | cons d u =>
        obtain ⟨rfl, _⟩ := List.cons_eq_cons.mp hu
        exact absurd (by simp) hx

/-- Up to the first mark, what is written is what was read. -/
theorem Pattern.Marked.prefix_read {mark : Char} (hmark : p.Marked mark) (hp : p.Valid) {x : List Char}
    {prev : Option Char} (h : x <+: substitute p 0 prev s) (hx : mark ∉ x) : x <+: s := by
  induction x generalizing s prev with
  | nil => exact List.nil_prefix
  | cons c x ih =>
      cases s with
      | nil => exact h
      | cons d s =>
          cases hcase : p prev (d :: s) with
          | none =>
              rw [substitute_keep hcase, List.cons_prefix_cons] at h
              obtain ⟨rfl, h⟩ := h
              rw [List.cons_prefix_cons]
              exact ⟨rfl, ih h fun hmem => hx (List.mem_cons_of_mem _ hmem)⟩
          | some found =>
              obtain ⟨n, r⟩ := found
              obtain ⟨m, s', hs, hm, rfl⟩ := hp.split hcase
              rw [hs] at hcase h ⊢
              obtain ⟨y, z, rfl, hy⟩ := hmark _ _ _ _ hcase
              rw [substitute_cut hm hcase, List.append_assoc, List.cons_append] at h
              exact ((prefix_of_prefix_append h hx).trans hy).trans (List.prefix_append _ _)

/-- From a visited place on, the scan comes through what is written without its replacements. -/
theorem Visits.through {mark : Char} (hp : p.Valid)
    (hmark : ∀ prev s n r, p prev s = some (n, r) → r.head? = some mark) {A w B : List Char} (hvisit : Visits p a A s)
    (hB : substitute p 0 a.getLast? s = w ++ B) (hw : mark ∉ w) :
    ∃ b, s = w ++ b ∧ Visits p (a ++ w) (A ++ w) b ∧ substitute p 0 (a ++ w).getLast? b = B := by
  induction w generalizing a A s with
  | nil => exact ⟨s, rfl, by simpa using hvisit, by simpa using hB⟩
  | cons c w ih =>
      cases s with
      | nil => cases hB
      | cons d s =>
          cases hcase : p a.getLast? (d :: s) with
          | none =>
              rw [substitute_keep hcase] at hB
              obtain ⟨rfl, hrest⟩ := List.cons_eq_cons.mp hB
              obtain ⟨b, rfl, hvisit', hB'⟩ := ih (hvisit.keep hcase) (by rw [List.getLast?_concat]; exact hrest)
                fun hmem => hw (List.mem_cons_of_mem _ hmem)
              refine ⟨b, rfl, ?_, ?_⟩
              · simpa using hvisit'
              · simpa using hB'
          | some found =>
              -- a replacement would show its mark
              obtain ⟨n, r⟩ := found
              obtain ⟨m, s', hs, hm, rfl⟩ := hp.split hcase
              have hhead := hmark _ _ _ _ hcase
              rw [hs] at hcase hB
              rw [substitute_cut hm hcase] at hB
              obtain ⟨r', rfl⟩ : ∃ r', r = mark :: r' := by
                cases r with
                | nil => cases hhead
                | cons e r' =>
                    obtain rfl := Option.some.inj hhead
                    exact ⟨r', rfl⟩
              obtain ⟨rfl, _⟩ := List.cons_eq_cons.mp hB
              exact absurd (by simp) hw

/-! ## Stretches that no match starts in -/

theorem substitute_spared {w : List Char} (hw : ∀ c ∈ w, ∀ prev s, p prev (c :: s) = none) (prev : Option Char)
    (s : List Char) : substitute p 0 prev (w ++ s) = w ++ substitute p 0 (w.getLast?.or prev) s := by
  induction w generalizing prev with
  | nil => rfl
  | cons c w ih =>
      rw [List.cons_append, substitute_keep (hw c (by simp) _ _), ih fun d hd => hw d (by simp [hd]), getLast?_cons,
        Option.or_assoc, Option.some_or]
      rfl

theorem Visits.spared {A w b : List Char} (hw : ∀ c ∈ w, ∀ prev s, p prev (c :: s) = none)
    (h : Visits p a A (w ++ b)) : Visits p (a ++ w) (A ++ w) b := by
  induction w generalizing a A with
  | nil => simpa using h
  | cons c w ih =>
      have hnext := ih (fun d hd => hw d (by simp [hd])) (h.keep (hw c (by simp) _ _))
      simpa using hnext

/-- What has been written at a place is determined by the place. -/
theorem Visits.unique {A A' : List Char} (h : Visits p a A s) (h' : Visits p a A' s) : A = A' := by
  have hsame := h.written
  rw [h'.written] at hsame
  exact (List.append_cancel_right hsame).symm

/-- Characters written last that end no replacement are characters read last. -/
theorem Visits.peel {e : Char} (hlast : ∀ prev s n r, p prev s = some (n, r) → r.getLast? = some e)
    {A x : List Char} (hx : e ∉ x) (h : Visits p a (A ++ x) s) : ∃ a', a = a' ++ x ∧ Visits p a' A (x ++ s) := by
  induction x using List.reverseRecOn generalizing a s with
  | nil => exact ⟨a, by simp, by simpa using h⟩
  | append_singleton x c ih =>
      generalize hout : A ++ (x ++ [c]) = out at h
      cases h with
      | start => simp at hout
      | @keep a out s d hvisit hno =>
          rw [← List.append_assoc] at hout
          obtain ⟨rfl, hc⟩ := List.append_inj' hout rfl
          obtain rfl : c = d := by simpa using hc
          obtain ⟨a', rfl, hvisit'⟩ := ih (fun hmem => hx (List.mem_append_left _ hmem)) hvisit
          exact ⟨a', by simp, by simpa using hvisit'⟩
      | @cut a out m s r hvisit hm hmatch =>
          -- a replacement ends otherwise
          have hend := congrArg List.getLast? hout
          have hr := hlast _ _ _ _ hmatch
          rw [← List.append_assoc, List.getLast?_concat, List.getLast?_append, hr, Option.some_or] at hend
          obtain rfl := Option.some.inj hend
          exact absurd (by simp) hx

/-- **A stretch longer than any replacement is written as it was read.** -/
theorem window_written {mark e : Char} (hp : p.Valid)
    (hmark : ∀ prev s n r, p prev s = some (n, r) → r.head? = some mark)
    (hlast : ∀ prev s n r, p prev s = some (n, r) → r.getLast? = some e)
    {A w B : List Char} (hlen : ∀ prev s n r, p prev s = some (n, r) → r.length ≤ w.length) (hw : w ≠ [])
    (hmem : mark ∉ w) (hmem' : e ∉ w) (h : substitute p 0 none t = A ++ (w ++ B)) :
    ∃ a b, t = a ++ (w ++ b) ∧ Visits p a A (w ++ b) ∧ substitute p 0 (a ++ w).getLast? b = B := by
  obtain ⟨c, w, rfl⟩ := List.exists_cons_of_ne_nil hw
  rw [List.cons_append] at h
  rcases written_char hp h with ⟨a, s, rfl, hvisit, hno, hs⟩ | ⟨a, out, m, s, r₁, r₂, -, -, hmatch, -, hs⟩
  · have hB : substitute p 0 a.getLast? (c :: s) = (c :: w) ++ B := by
      rw [substitute_keep hno, hs]
      rfl
    obtain ⟨b, hb, -, hrest⟩ := hvisit.through hp hmark hB hmem
    rw [hb] at hvisit ⊢
    exact ⟨a, b, rfl, hvisit, hrest⟩
  · exact absurd (mem_of_replaced (hlast _ _ _ _ hmatch) (hlen _ _ _ _ hmatch) hs.symm) hmem'

end Redact
end HermesPayments
