import Mathlib.Data.List.Sort
import Mathlib.Data.String.Basic

/-!
# `Lib.PyStr` — Python strings

A Python string is a sequence of code points, and one half of a surrogate pair is a code point like any other: a JSON
reader makes a string with such a half of the escape for it. A string is either a text or ragged, with an unpaired half
somewhere. A high half right before a low half does not stay a pair: readers and writers join the two (`joinPairs`), so no
string here has one.
-/

namespace Lib

/-! ## Code points -/

/-- Half of a surrogate pair. -/
structure Surrogate where
  code  : Nat
  range : 55296 ≤ code ∧ code ≤ 57343
deriving DecidableEq

inductive CodePoint where
  | char (c : Char)
  | half (s : Surrogate)
deriving DecidableEq

namespace CodePoint

/-- `chr`. -/
def ofNat (n : Nat) : CodePoint := if h : 55296 ≤ n ∧ n ≤ 57343 then .half ⟨n, h⟩ else .char (Char.ofNat n)

/-- `ord`. -/
def toNat : CodePoint → Nat
  | char c => c.toNat
  | half s => s.code

def isHalf : CodePoint → Bool
  | char _ => false
  | half _ => true

/-- The character, or a stand-in for half of one. -/
def toChar (substitute : Char) : CodePoint → Char
  | char c => c
  | half _ => substitute

/-- The character that a high half and the low half behind it make. -/
def join? : CodePoint → CodePoint → Option Char
  | half h, half l =>
      if h.code ≤ 56319 ∧ 56320 ≤ l.code then
        some (Char.ofNat (65536 + (h.code - 55296) * 1024 + (l.code - 56320)))
      else none
  | _, _ => none

/-- The two are no pair. -/
def Apart (p q : CodePoint) : Prop := join? p q = none

@[simp] theorem apart_char_left (c : Char) (q : CodePoint) : Apart (.char c) q := rfl

@[simp] theorem apart_char_right (p : CodePoint) (c : Char) : Apart p (.char c) := by
  cases p <;> rfl

end CodePoint

open CodePoint

/-- Each high half joined with a low half behind it, from left to right. -/
def joinPairs : List CodePoint → List CodePoint
  | [] => []
  | [p] => [p]
  | p :: q :: rest =>
      match join? p q with
      | some c => .char c :: joinPairs rest
      | none   => p :: joinPairs (q :: rest)

theorem joinPairs_pair {p q : CodePoint} {c : Char} (h : join? p q = some c) (rest : List CodePoint) :
    joinPairs (p :: q :: rest) = .char c :: joinPairs rest := by
  rw [joinPairs, h]

/-- A code point that is no pair with the next one stays. -/
theorem joinPairs_cons {p : CodePoint} {rest : List CodePoint} (h : ∀ q ∈ rest.head?, Apart p q) :
    joinPairs (p :: rest) = p :: joinPairs rest := by
  cases rest with
  | nil => rfl
  | cons q rest =>
      have hq : join? p q = none := h q rfl
      rw [joinPairs, hq]

/-- Behind what the next code point was no pair with, there is none with what it becomes. -/
theorem apart_head_joinPairs {p q : CodePoint} (h : Apart p q) (rest : List CodePoint) :
    ∀ r ∈ (joinPairs (q :: rest)).head?, Apart p r := by
  intro r hr
  cases rest with
  | nil =>
      cases hr
      exact h
  | cons q' rest =>
      rw [joinPairs] at hr
      split at hr
      · cases hr
        simp
      · cases hr
        exact h

theorem isChain_cons_of_head {p : CodePoint} {rest : List CodePoint} (h : ∀ q ∈ rest.head?, Apart p q)
    (hrest : rest.IsChain Apart) : (p :: rest).IsChain Apart := by
  cases rest with
  | nil => exact .singleton p
  | cons q rest => exact .cons_cons (h q rfl) hrest

/-- Once joined, no pair is left. -/
theorem isChain_joinPairs (ps : List CodePoint) : (joinPairs ps).IsChain Apart := by
  induction ps using joinPairs.induct with
  | case1 => exact .nil
  | case2 p => exact .singleton p
  | case3 p q rest c hjoin ih =>
      rw [joinPairs_pair hjoin]
      exact isChain_cons_of_head (by simp) ih
  | case4 p q rest hjoin ih =>
      rw [joinPairs, hjoin]
      exact isChain_cons_of_head (apart_head_joinPairs hjoin rest) ih

theorem joinPairs_of_isChain {ps : List CodePoint} (h : ps.IsChain Apart) : joinPairs ps = ps := by
  induction h with
  | nil | singleton p => rfl
  | cons_cons hapart _ ih =>
      rw [joinPairs_cons (by rintro r ⟨⟩; exact hapart), ih]

/-! ## Strings -/

/-- A string with an unpaired half in it. -/
structure Ragged where
  points   : List CodePoint
  unpaired : points.IsChain Apart
  ragged   : points.any isHalf = true

inductive PyStr where
  | text (s : String)
  | ragged (r : Ragged)

instance : DecidableEq Ragged := fun a b =>
  decidable_of_iff (a.points = b.points) ⟨fun h => by cases a; cases b; cases h; rfl, fun h => h ▸ rfl⟩

deriving instance DecidableEq for PyStr

/-- A text is a string. -/
instance : Coe String PyStr := ⟨.text⟩

instance : Inhabited PyStr := ⟨.text ""⟩

namespace PyStr

def points : PyStr → List CodePoint
  | text s   => s.toList.map .char
  | ragged r => r.points

/-- The string of these code points, pairs joined. -/
def ofPoints (ps : List CodePoint) : PyStr :=
  if h : (joinPairs ps).any isHalf = true then .ragged ⟨joinPairs ps, isChain_joinPairs ps, h⟩
  else .text (String.ofList ((joinPairs ps).map (toChar ' ')))

/-- The text, if it is one. -/
def text? : PyStr → Option String
  | text s   => some s
  | ragged _ => none

/-- The characters, with a stand-in for each unpaired half. -/
def chars (substitute : Char) (s : PyStr) : List Char := s.points.map (toChar substitute)

/-- As a text that is shown to someone: an unpaired half appears as the replacement character. -/
def display (s : PyStr) : String := String.ofList (s.chars (Char.ofNat 65533))

instance : ToString PyStr := ⟨display⟩

/-- `len`. -/
def length (s : PyStr) : Nat := s.points.length

section

variable {s : String} {p q : PyStr}

@[simp] theorem points_text (s : String) : (text s).points = s.toList.map .char := rfl

@[simp] theorem text_beq_text (s t : String) : (text s == text t) = (s == t) := by simp [beq_eq_decide]

@[simp] theorem text?_eq_some : p.text? = some s ↔ p = text s := by
  cases p <;> simp [text?]

@[simp] theorem chars_text (c : Char) (s : String) : (text s).chars c = s.toList := by
  rw [chars, points_text, List.map_map]
  exact List.map_id s.toList

@[simp] theorem display_text (s : String) : (text s).display = s := by
  rw [display, chars_text, String.ofList_toList]

/-- No string has a pair left to join. -/
theorem isChain_points (p : PyStr) : p.points.IsChain Apart := by
  cases p with
  | ragged r => exact r.unpaired
  | text s =>
      show (s.toList.map CodePoint.char).IsChain Apart
      induction s.toList with
      | nil => exact .nil
      | cons c cs ih =>
          rw [List.map_cons]
          exact isChain_cons_of_head (by simp) ih

theorem ofPoints_of_joinPairs {ps : List CodePoint} (h : joinPairs ps = p.points) : ofPoints ps = p := by
  cases p with
  | ragged r =>
      have hragged : (joinPairs ps).any isHalf = true := by
        rw [h]
        exact r.ragged
      have hr : (⟨joinPairs ps, isChain_joinPairs ps, hragged⟩ : Ragged) = r := by
        cases r
        cases h
        rfl
      rw [ofPoints, dif_pos hragged, hr]
  | text s =>
      have htext : ¬ (joinPairs ps).any isHalf = true := by
        rw [h, points_text]
        simp [isHalf]
      rw [ofPoints, dif_neg htext, h]
      show text (String.ofList ((text s).chars ' ')) = text s
      rw [chars_text, String.ofList_toList]

@[simp] theorem ofPoints_points (p : PyStr) : ofPoints p.points = p :=
  ofPoints_of_joinPairs (joinPairs_of_isChain p.isChain_points)

end

/-! ## Order -/

/-- Strings are ordered by their code points. -/
def codes (p : PyStr) : List Nat := p.points.map CodePoint.toNat

instance : LE PyStr := ⟨fun p q => p.codes ≤ q.codes⟩

instance : DecidableLE PyStr := fun p q => inferInstanceAs (Decidable (p.codes ≤ q.codes))

instance : Std.Total (fun p q : PyStr => p ≤ q) := ⟨fun p q => le_total p.codes q.codes⟩

instance : IsTrans PyStr (fun p q => p ≤ q) := ⟨fun p q r => @le_trans _ _ p.codes q.codes r.codes⟩

/-- Texts are ordered as texts. -/
@[simp] theorem text_le_text {s t : String} : text s ≤ text t ↔ s ≤ t := by
  have hcodes (s : String) : (text s).codes = s.toList.map Char.toNat := by
    simp [codes, CodePoint.toNat]
  have hlt {a b : List Char} (h : a < b) : a.map Char.toNat < b.map Char.toNat :=
    List.map_lt (fun _ _ h => h) h
  show (text s).codes ≤ (text t).codes ↔ _
  rw [hcodes, hcodes, String.le_iff_toList_le]
  constructor
  · intro h
    by_contra hnot
    exact absurd (hlt (not_le.mp hnot)) (not_lt.mpr h)
  · intro h
    rcases h.eq_or_lt with heq | h
    · rw [heq]
    · exact (hlt h).le

end PyStr
end Lib
