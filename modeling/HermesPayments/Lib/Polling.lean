import HermesPayments.Lib.Proc
import Mathlib.Algebra.Order.Floor.Ring
import Mathlib.Tactic.Linarith

/-!
# `Lib.Polling` — a loop that polls until a deadline

`Proc.poll body fuel k` is the loop `while True` over a body that may stop it, observed for at most `fuel` rounds. Once it
has stopped, more fuel changes nothing (`Proc.run_poll_more`), and what every round keeps holds after any number of
rounds, at most one of which is past the deadline (`Proc.run_poll`).

`Waits limit interval elapsed` is the clock of such a loop: between two rounds it sleeps for the interval, or for what is
left until the limit. After `⌈limit / interval⌉` sleeps the limit is reached (`Waits.reached`).
-/

namespace Lib

/-! ## The clock -/

section Clock

variable {K : Type} [Field K] [LinearOrder K] [IsStrictOrderedRing K]

/-- The time elapsed in each round, when no sleep between two rounds is shorter than it was asked to be. -/
structure Waits (limit interval : K) (elapsed : Nat → K) : Prop where
  start : 0 ≤ elapsed 0
  sleep : ∀ k, elapsed k < limit → elapsed k + min interval (limit - elapsed k) ≤ elapsed (k + 1)

namespace Waits

variable {limit interval : K} {elapsed : Nat → K}

/-- While the limit is not reached every sleep is a whole interval. -/
theorem mul_le (h : Waits limit interval elapsed) (k : Nat) (hbelow : ∀ j ≤ k, elapsed j < limit) :
    k * interval ≤ elapsed k := by
  induction k with
  | zero =>
      rw [Nat.cast_zero, zero_mul]
      exact h.start
  | succ k ih =>
      have hk : k * interval ≤ elapsed k := ih fun j hj => hbelow j (Nat.le_succ_of_le hj)
      have hsleep : elapsed k + min interval (limit - elapsed k) ≤ elapsed (k + 1) :=
        h.sleep k (hbelow k (Nat.le_succ k))
      have hnext : elapsed (k + 1) < limit := hbelow (k + 1) le_rfl
      rcases le_total interval (limit - elapsed k) with hwhole | hrest
      · rw [min_eq_left hwhole] at hsleep
        rw [Nat.cast_succ, add_mul, one_mul]
        linarith only [hk, hsleep]
      · -- the shortened sleep is the last one
        rw [min_eq_right hrest] at hsleep
        linarith only [hnext, hsleep]

/-- **The limit is reached** after as many sleeps as intervals fit in it, rounded up. -/
theorem reached [FloorSemiring K] (h : Waits limit interval elapsed) (hinterval : 0 < interval) :
    ∃ k ≤ ⌈limit / interval⌉₊, limit ≤ elapsed k := by
  by_contra hnone
  have hbelow : ∀ j ≤ ⌈limit / interval⌉₊, elapsed j < limit := by
    intro j hj
    by_contra hlimit
    exact hnone ⟨j, hj, not_lt.mp hlimit⟩
  have hfits : limit ≤ ⌈limit / interval⌉₊ * interval := (div_le_iff₀ hinterval).mp (Nat.le_ceil _)
  exact absurd (hfits.trans (h.mul_le _ hbelow)) (not_le.mpr (hbelow _ le_rfl))

end Waits

end Clock

/-! ## The loop -/

namespace Proc

variable {ω ε σ : Type} {body : Nat → Proc ω ε σ Bool} {fuel k : Nat} {s s' : σ} {es : List ω}

/-- The loop after `k` rounds, observed for at most `fuel` more: how many rounds it has made when it stops. -/
def poll (body : Nat → Proc ω ε σ Bool) : (fuel k : Nat) → Proc ω ε σ (Option Nat)
  | 0, _ => pure none
  | fuel + 1, k => do
      if ← body k then pure (some (k + 1)) else poll body fuel (k + 1)

theorem run_poll_stop (h : (body k).run s = ⟨.ok true, s', es⟩) :
    (poll body (fuel + 1) k).run s = ⟨.ok (some (k + 1)), s', es⟩ := by
  rw [poll, run_bind_ok h]
  simp

theorem run_poll_go (h : (body k).run s = ⟨.ok false, s', es⟩) :
    (poll body (fuel + 1) k).run s = after es ((poll body fuel (k + 1)).run s') := by
  rw [poll, run_bind_ok h]
  simp

theorem run_poll_error {e : ε} (h : (body k).run s = ⟨.error e, s', es⟩) :
    (poll body (fuel + 1) k).run s = ⟨.error e, s', es⟩ := by
  rw [poll, run_bind_error h]

/-- The loop stops after at least one more round. -/
theorem lt_of_run_poll {n : Nat} (h : (poll body fuel k).run s = ⟨.ok (some n), s', es⟩) : k < n := by
  induction fuel generalizing k s es with
  | zero => cases h
  | succ fuel ih =>
      rcases hbody : (body k).run s with ⟨_ | stop, s₁, es₁⟩
      · rw [run_poll_error hbody] at h
        cases h
      · cases stop with
        | true =>
            rw [run_poll_stop hbody] at h
            cases h
            exact Nat.lt_succ_self k
        | false =>
            rcases hrest : (poll body fuel (k + 1)).run s₁ with ⟨res, s₂, es₂⟩
            rw [run_poll_go hbody, hrest] at h
            cases h
            exact Nat.lt_of_succ_lt (ih hrest)

/-- **More fuel** changes nothing once the loop has stopped. -/
theorem run_poll_more {n : Nat} (h : (poll body fuel k).run s = ⟨.ok (some n), s', es⟩) {fuel' : Nat}
    (hle : n ≤ k + fuel') : (poll body fuel' k).run s = ⟨.ok (some n), s', es⟩ := by
  induction fuel generalizing k s es fuel' with
  | zero => cases h
  | succ fuel ih =>
      have hlt : k < n := lt_of_run_poll h
      obtain ⟨fuel', rfl⟩ : ∃ f, fuel' = f + 1 := ⟨fuel' - 1, by omega⟩
      rcases hbody : (body k).run s with ⟨_ | stop, s₁, es₁⟩
      · rw [run_poll_error hbody] at h
        cases h
      · cases stop with
        | true =>
            rw [run_poll_stop hbody] at h ⊢
            exact h
        | false =>
            rcases hrest : (poll body fuel (k + 1)).run s₁ with ⟨res, s₂, es₂⟩
            rw [run_poll_go hbody, hrest] at h
            cases h
            rw [run_poll_go hbody, ih hrest (by omega)]
            rfl

/-- **What every round keeps** holds after any number of rounds, of which only the last can be past the deadline: a round
    that starts in `I` returns, performs effects of the kind `P` and stops the loop when `late` says so. -/
theorem run_poll {I : Nat → σ → Prop} {P : ω → Prop} {late : Nat → Prop}
    (hround : ∀ k s, I k s → ∃ stop s' es, (body k).run s = ⟨.ok stop, s', es⟩ ∧ I (k + 1) s' ∧ (∀ e ∈ es, P e) ∧
      (late k → stop = true)) (fuel : Nat) (hI : I k s) :
    ∃ answer s' es, (poll body fuel k).run s = ⟨.ok answer, s', es⟩ ∧ I (answer.getD (k + fuel)) s' ∧ (∀ e ∈ es, P e) ∧
      answer.getD (k + fuel) ≤ k + fuel ∧ ∀ j, k ≤ j → j < answer.getD (k + fuel) → late j → answer = some (j + 1) := by
  induction fuel generalizing k s with
  | zero =>
      refine ⟨none, s, [], rfl, hI, ?_, le_rfl, ?_⟩
      · intro e he
        cases he
      · intro j hj hlt
        exact absurd hj (Nat.not_le.mpr hlt)
  | succ fuel ih =>
      obtain ⟨stop, s₁, es₁, hbody, hI₁, hes₁, hlate⟩ := hround k s hI
      cases stop with
      | true =>
          refine ⟨some (k + 1), s₁, es₁, run_poll_stop hbody, hI₁, hes₁, ?_, ?_⟩
          · show k + 1 ≤ k + (fuel + 1)
            omega
          · intro j hj hlt _
            have hlt' : j < k + 1 := hlt
            rw [show j = k by omega]
      | false =>
          obtain ⟨answer, s₂, es₂, hrest, hI₂, hes₂, hbound, hdeadline⟩ := ih hI₁
          have hsum : k + 1 + fuel = k + (fuel + 1) := by omega
          rw [hsum] at hI₂ hbound hdeadline
          refine ⟨answer, s₂, es₁ ++ es₂, ?_, hI₂, List.forall_mem_append.mpr ⟨hes₁, hes₂⟩, hbound, ?_⟩
          · rw [run_poll_go hbody, hrest]
            rfl
          · intro j hj hlt hjlate
            rcases Nat.eq_or_lt_of_le hj with rfl | hj
            · cases hlate hjlate
            · exact hdeadline j hj hlt hjlate

end Proc

end Lib
