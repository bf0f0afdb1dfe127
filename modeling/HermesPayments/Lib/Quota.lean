import Mathlib.Data.List.Basic

/-!
# `Lib.Quota` — reading a list until enough of it is accepted

A reader that stops as soon as it has accepted `n` items looks at a prefix of its input. `reach` is that prefix,
`none` standing for a reader without a quota. What lies beyond it is what a later reader starts from, so nothing is
lost between two readers (`prefix_reach`), and a reader stops early only with its quota filled (`reach_eq_or_full`).
-/

namespace Lib

variable {α : Type}

/-- The items looked at until `n` are accepted. -/
def reachUpTo (accept : α → Bool) : Nat → List α → List α
  | 0, _          => []
  | _, []         => []
  | n + 1, a :: as => a :: reachUpTo accept (if accept a then n else n + 1) as

/-- The items looked at under a quota, if there is one. -/
def reach (accept : α → Bool) : Option Nat → List α → List α
  | none, as   => as
  | some n, as => reachUpTo accept n as

section

variable {accept : α → Bool}

theorem reachUpTo_prefix (n : Nat) (as : List α) : reachUpTo accept n as <+: as := by
  induction as generalizing n with
  | nil => cases n <;> exact List.prefix_refl _
  | cons a as ih =>
      cases n with
      | zero => exact List.nil_prefix
      | succ n => exact (List.prefix_cons_inj a).mpr (ih _)

/-- What is looked at is a prefix. -/
theorem prefix_reach (accept : α → Bool) (quota : Option Nat) (as : List α) : reach accept quota as <+: as := by
  cases quota with
  | none   => exact List.prefix_refl _
  | some n => exact reachUpTo_prefix n as

/-- A reader that leaves something has accepted as many items as it may. -/
theorem reachUpTo_eq_or_full (n : Nat) (as : List α) :
    reachUpTo accept n as = as ∨ (reachUpTo accept n as).countP accept = n := by
  induction as generalizing n with
  | nil => cases n <;> exact .inl rfl
  | cons a as ih =>
      cases n with
      | zero => exact .inr rfl
      | succ n =>
          rw [reachUpTo, List.countP_cons]
          rcases ih (if accept a then n else n + 1) with h | h
          · left
            rw [h]
          · right
            rw [h]
            by_cases ha : accept a = true
            · simp [ha]
            · simp [ha]

theorem reach_eq_or_full (accept : α → Bool) (quota : Option Nat) (as : List α) :
    reach accept quota as = as ∨ ∃ n, quota = some n ∧ (reach accept quota as).countP accept = n := by
  cases quota with
  | none   => exact .inl rfl
  | some n =>
      have hor : reachUpTo accept n as = as ∨ _ := reachUpTo_eq_or_full n as
      rcases hor with h | h
      · exact .inl h
      · exact .inr ⟨n, rfl, h⟩

/-- A reader with room left looks at the next item, and goes on with what room is left then. -/
theorem reach_cons {quota : Option Nat} (a : α) (as : List α) (hroom : quota ≠ some 0) :
    reach accept quota (a :: as) = a :: reach accept (quota.map (fun n => if accept a then n - 1 else n)) as := by
  cases quota with
  | none => rfl
  | some n =>
      cases n with
      | zero => exact absurd rfl hroom
      | succ n =>
          show a :: reachUpTo accept _ as = a :: reachUpTo accept _ as
          by_cases ha : accept a = true <;> simp [ha]

@[simp] theorem reach_zero (as : List α) : reach accept (some 0) as = [] := by
  cases as <;> rfl

@[simp] theorem reach_nil (quota : Option Nat) : reach accept quota [] = [] :=
  List.prefix_nil.mp (prefix_reach accept quota [])

end

end Lib
