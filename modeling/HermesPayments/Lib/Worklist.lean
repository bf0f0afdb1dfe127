import Mathlib.Data.Finset.Card
import Mathlib.Data.Fintype.Card
import Mathlib.Logic.Relation

/-!
# `Lib.Worklist` — a worklist search

A search takes one element after the other out of its frontier, skips what it has visited, and adds the successors of what
it has not. Which element comes next is left open: `pop` picks one in each round. On a finite type the search ends, and it
has visited what the successor relation leads to from the start (`explore_eq`).
-/

namespace Lib

variable {α : Type} [DecidableEq α]

/-- The search, with `fuel` rounds at most. -/
def explore (next : α → Finset α) (pop : Nat → Finset α → α) : Nat → Finset α → Finset α → Option (Finset α)
  | 0, _, _ => none
  | fuel + 1, visited, frontier =>
      if frontier = ∅ then some visited
      else
        let s := pop fuel frontier
        if s ∈ visited then explore next pop fuel visited (frontier.erase s)
        else explore next pop fuel (insert s visited) (frontier.erase s ∪ next s)

/-- What lies behind a search and what lies before it: everything seen is reached from `start`, and the successors of what
    has been visited are seen. -/
structure Exploring (next : α → Finset α) (start : α) (visited frontier : Finset α) : Prop where
  reached : ∀ s ∈ visited ∪ frontier, Relation.ReflTransGen (fun s t => t ∈ next s) start s
  start   : start ∈ visited ∪ frontier
  closed  : ∀ s ∈ visited, ∀ t ∈ next s, t ∈ visited ∪ frontier

namespace Exploring

variable {next : α → Finset α} {start s : α} {visited frontier : Finset α}

theorem init (next : α → Finset α) (start : α) : Exploring next start ∅ {start} where
  reached s hs := by
    rw [Finset.empty_union, Finset.mem_singleton] at hs
    rw [hs]
  start := by simp
  closed s hs := absurd hs (Finset.notMem_empty s)

/-- What was visited is skipped. -/
theorem skip (h : Exploring next start visited frontier) (hs : s ∈ visited) :
    Exploring next start visited (frontier.erase s) := by
  have hseen : visited ∪ frontier.erase s = visited ∪ frontier := by
    ext t
    by_cases ht : t = s
    · simp [ht, hs]
    · simp [ht]
  exact ⟨hseen ▸ h.reached, hseen ▸ h.start, hseen ▸ h.closed⟩

/-- What is new is visited, and its successors come to the frontier. -/
theorem visit (h : Exploring next start visited frontier) (hs : s ∈ frontier) :
    Exploring next start (insert s visited) (frontier.erase s ∪ next s) := by
  have hseen : insert s visited ∪ (frontier.erase s ∪ next s) = visited ∪ frontier ∪ next s := by
    ext t
    by_cases ht : t = s
    · simp [ht, hs]
    · simp [ht]
  have hreached : Relation.ReflTransGen (fun s t => t ∈ next s) start s :=
    h.reached s (Finset.mem_union_right _ hs)
  refine ⟨?_, ?_, ?_⟩
  · intro t ht
    rw [hseen] at ht
    rcases Finset.mem_union.mp ht with ht | ht
    · exact h.reached t ht
    · exact hreached.tail ht
  · rw [hseen]
    exact Finset.mem_union_left _ h.start
  · intro u hu t ht
    rw [hseen]
    rcases Finset.mem_insert.mp hu with rfl | hu
    · exact Finset.mem_union_right _ ht
    · exact Finset.mem_union_left _ (h.closed u hu t ht)

/-- **When the frontier is empty** the search has visited what can be reached. -/
theorem visited_iff (h : Exploring next start visited ∅) (t : α) :
    t ∈ visited ↔ Relation.ReflTransGen (fun s t => t ∈ next s) start t := by
  obtain ⟨hreached, hstart, hclosed⟩ := h
  rw [Finset.union_empty] at hreached hstart hclosed
  refine ⟨hreached t, fun ht => ?_⟩
  -- along the path: it starts in what was visited, and no successor leaves that
  induction ht with
  | refl => exact hstart
  | tail _ hnext ih => exact hclosed _ ih _ hnext

end Exploring

variable [Fintype α] {next : α → Finset α} {pop : Nat → Finset α → α} {start : α}

/-- The search ends: a round that visits uses up one of finitely many elements, a round that skips shortens the frontier. -/
theorem Exploring.explores (hpop : ∀ k f, f.Nonempty → pop k f ∈ f) {fuel : Nat} {visited frontier : Finset α}
    (h : Exploring next start visited frontier)
    (hfuel : (Fintype.card α - visited.card) * (Fintype.card α + 1) + frontier.card < fuel) :
    ∃ found, explore next pop fuel visited frontier = some found ∧ Exploring next start found ∅ := by
  induction fuel generalizing visited frontier with
  | zero => omega
  | succ fuel ih =>
      unfold explore
      by_cases hempty : frontier = ∅
      · rw [if_pos hempty]
        exact ⟨visited, rfl, hempty ▸ h⟩
      · have hmem := hpop fuel frontier (Finset.nonempty_iff_ne_empty.mpr hempty)
        have hcard := Finset.card_erase_add_one hmem
        rw [if_neg hempty]
        by_cases hvisited : pop fuel frontier ∈ visited
        · -- nothing is added, and the frontier has lost an element
          simp only [if_pos hvisited]
          exact ih (h.skip hvisited) (by omega)
        · -- the frontier may grow again, but never beyond the type, and fewer elements are left to visit
          simp only [if_neg hvisited]
          refine ih (h.visit hmem) ?_
          have hinsert := Finset.card_insert_of_notMem hvisited
          have hroom : (insert (pop fuel frontier) visited).card ≤ Fintype.card α := Finset.card_le_univ _
          have hfrontier : (frontier.erase (pop fuel frontier) ∪ next (pop fuel frontier)).card ≤ Fintype.card α :=
            Finset.card_le_univ _
          have hleft : Fintype.card α - visited.card =
              (Fintype.card α - (insert (pop fuel frontier) visited).card) + 1 := by omega
          rw [hleft, Nat.add_mul] at hfuel
          omega

/-- **A worklist search** finds what can be reached, in whatever order it takes the elements. -/
theorem explore_eq (next : α → Finset α) (start : α) (hpop : ∀ k f, f.Nonempty → pop k f ∈ f) {fuel : Nat}
    (hfuel : Fintype.card α * (Fintype.card α + 1) + 1 < fuel) :
    ∃ found, explore next pop fuel ∅ {start} = some found ∧
      ∀ t, t ∈ found ↔ Relation.ReflTransGen (fun s t => t ∈ next s) start t := by
  obtain ⟨found, hfound, hexplored⟩ := (Exploring.init next start).explores hpop hfuel
  exact ⟨found, hfound, hexplored.visited_iff⟩

end Lib
