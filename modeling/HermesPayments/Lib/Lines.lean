import HermesPayments.Lib.Python
import Mathlib.Data.List.Infix
import Mathlib.Data.List.TakeWhile

/-!
# `Lib.Lines` — the lines of a text file

`strippedLines` is what a loop over the lines of a file sees that strips each one and passes over the empty ones. A text
without line ends that has no space at either end is one such line (`Line`), wherever it stands.
-/

namespace Lib

/-- The end of a line: `\n`, `\r`, or both, which leave an empty line between them. -/
def lineEnd (c : Char) : Bool := c = '\n' || c = '\r'

/-- The stripped lines of a text that are not empty. -/
def strippedLines (text : List Char) : List (List Char) :=
  ((text.splitOnP lineEnd).map (stripWhere spaceChar)).filter (· ≠ [])

/-- A line as it comes out of the loop. -/
structure Line (text : List Char) : Prop where
  nonempty : text ≠ []
  unbroken : ∀ c ∈ text, lineEnd c = false
  stripped : stripWhere spaceChar text = text

@[simp] theorem strippedLines_nil : strippedLines [] = [] := by decide

/-- The lines before and after a line end. -/
theorem strippedLines_append_newline (text rest : List Char) :
    strippedLines (text ++ '\n' :: rest) = strippedLines text ++ strippedLines rest := by
  unfold strippedLines
  rw [List.splitOnP_append_cons text rest (by decide), List.map_append, List.filter_append]

/-- A text without line ends is one line, or none. -/
theorem strippedLines_of_unbroken {text : List Char} (h : ∀ c ∈ text, lineEnd c = false) :
    strippedLines text = if stripWhere spaceChar text = [] then [] else [stripWhere spaceChar text] := by
  unfold strippedLines
  rw [List.splitOnP_eq_singleton h]
  by_cases hempty : stripWhere spaceChar text = []
  · simp [hempty]
  · simp [hempty]

theorem Line.strippedLines {text : List Char} (h : Line text) : strippedLines text = [text] := by
  rw [strippedLines_of_unbroken h.unbroken, h.stripped, if_neg h.nonempty]

/-- The lines of a file of lines. -/
theorem strippedLines_flatMap {texts : List (List Char)} (h : ∀ text ∈ texts, Line text) (rest : List Char) :
    strippedLines (texts.flatMap (· ++ ['\n']) ++ rest) = texts ++ strippedLines rest := by
  induction texts with
  | nil => rfl
  | cons text texts ih =>
      obtain ⟨htext, htexts⟩ := List.forall_mem_cons.mp h
      have hone : (text :: texts).flatMap (· ++ ['\n']) ++ rest = text ++ '\n' :: (texts.flatMap (· ++ ['\n']) ++ rest) := by
        simp
      rw [hone, strippedLines_append_newline, htext.strippedLines, ih htexts]
      rfl

/-! ## Texts between two marks -/

theorem stripWhere_of_ends {p : Char → Bool} {c d : Char} {text : List Char} (hc : p c = false) (hd : p d = false) :
    stripWhere p (c :: (text ++ [d])) = c :: (text ++ [d]) := by
  unfold stripWhere
  rw [List.dropWhile_cons_of_neg (by simp [hc])]
  have hreverse : (c :: (text ++ [d])).reverse = d :: (text.reverse ++ [c]) := by simp
  rw [hreverse, List.dropWhile_cons_of_neg (by simp [hd])]
  simp

/-- Stripping keeps everything up to the last character that is not to go. -/
theorem stripWhere_keeps {p : Char → Bool} {c d : Char} {front cs : List Char} (hd : p d = false) (hc : p c = false)
    {text : List Char} (hstart : front ++ d :: text = c :: cs) :
    ∃ kept, stripWhere p (front ++ d :: text) = front ++ d :: kept ∧ kept <+: text := by
  refine ⟨(text.reverse.dropWhile p).reverse, ?_, ?_⟩
  · have hfirst : (front ++ d :: text).dropWhile p = front ++ d :: text := by
      rw [hstart, List.dropWhile_cons_of_neg (by simp [hc])]
    have hreverse : (front ++ d :: text).reverse = text.reverse ++ d :: front.reverse := by simp
    rw [stripWhere, hfirst, hreverse, List.dropWhile_append]
    by_cases hnil : (text.reverse.dropWhile p).isEmpty = true
    · rw [if_pos hnil, List.dropWhile_cons_of_neg (by simp [hd]), List.isEmpty_iff.mp hnil]
      simp
    · rw [if_neg hnil]
      simp
  · have hsuffix := List.dropWhile_suffix (l := text.reverse) p
    rwa [← List.reverse_prefix, List.reverse_reverse] at hsuffix

end Lib
