import HermesPayments.Lib.Proc

/-!
# `Lib.Trace` — which effects a computation may perform

`Proc.Only p m` says that every effect of `m` satisfies `p`, from whatever state it starts. The rules follow the
constructions of `Proc`; a computation that only reads may be put before or after another without a trace
(`Proc.run_still_bind`, `Proc.run_bind_still`).
-/

namespace Lib.Proc

variable {ω ω' ε σ σ' α β : Type}

/-! ## Reading before and after -/

/-- What only reads may come first: the rest runs on what was read, from the same state. -/
theorem run_still_bind {m : Proc ω ε σ α} (hm : m.Still) (f : α → Proc ω ε σ β) (s : σ) :
    (∃ a, (m.run s).result = .ok a ∧ (m >>= f).run s = (f a).run s) ∨
      ∃ e, (m >>= f).run s = ⟨.error e, s, []⟩ := by
  obtain ⟨hstate, heffects⟩ := hm s
  rcases hrun : m.run s with ⟨e | a, s', es⟩
  · rw [hrun] at hstate heffects
    obtain rfl : s' = s := hstate
    obtain rfl : es = [] := heffects
    exact .inr ⟨e, run_bind_error hrun⟩
  · rw [hrun] at hstate heffects
    obtain rfl : s' = s := hstate
    obtain rfl : es = [] := heffects
    exact .inl ⟨a, rfl, run_bind_ok hrun⟩

/-- … or last. -/
theorem run_bind_still {f : α → Proc ω ε σ β} (hf : ∀ a, (f a).Still) (m : Proc ω ε σ α) (s : σ) :
    ((m >>= f).run s).state = (m.run s).state ∧ ((m >>= f).run s).effects = (m.run s).effects := by
  rw [run_bind]
  rcases m.run s with ⟨e | a, s', es⟩
  · exact ⟨rfl, rfl⟩
  · obtain ⟨hstate, heffects⟩ := hf a s'
    refine ⟨hstate, ?_⟩
    rw [effects_after, heffects, List.append_nil]

/-! ## The effects -/

/-- Every effect of the computation satisfies `p`. -/
def Only (p : ω → Prop) (m : Proc ω ε σ α) : Prop := ∀ s, ∀ w ∈ (m.run s).effects, p w

namespace Only

variable {p : ω → Prop}

theorem still {m : Proc ω ε σ α} (hm : m.Still) : Only p m := by
  intro s w hw
  rw [(hm s).2] at hw
  cases hw

theorem modify (f : σ → σ) : Only p (Proc.modify f : Proc ω ε σ Unit) := fun _ _ hw => absurd hw List.not_mem_nil

theorem emit {es : List ω} (h : ∀ w ∈ es, p w) : Only p (Proc.emit es : Proc ω ε σ Unit) := fun _ => h

theorem bind {m : Proc ω ε σ α} {f : α → Proc ω ε σ β} (hm : Only p m) (hf : ∀ a, Only p (f a)) : Only p (m >>= f) := by
  intro s w hw
  have hfirst := hm s
  rw [run_bind] at hw
  rcases hrun : m.run s with ⟨e | a, s', es⟩
  · rw [hrun] at hw hfirst
    exact hfirst w hw
  · rw [hrun] at hw hfirst
    rcases List.mem_append.mp hw with hw | hw
    · exact hfirst w hw
    · exact hf a s' w hw

theorem ite {c : Prop} [Decidable c] {m n : Proc ω ε σ α} (hm : Only p m) (hn : Only p n) : Only p (if c then m else n) := by
  split
  · exact hm
  · exact hn

/-- What follows a raise does not run. -/
theorem refuse {e : ε} {f : β → Proc ω ε σ α} : Only p (Proc.raise e >>= f) := fun _ _ hw => absurd hw List.not_mem_nil

/-- A check, then the rest. -/
theorem guard {c : Prop} [Decidable c] {e : ε} {f : Unit → Proc ω ε σ α} (hf : Only p (f ())) :
    Only p (if c then Proc.raise e >>= f else f ()) := ite refuse hf

theorem zoom {view : σ' → σ} {update : σ → σ' → σ'} {inj : ω → ω'} {q : ω' → Prop} {m : Proc ω ε σ α}
    (hm : Only (fun w => q (inj w)) m) : Only q (Proc.zoom view update inj m) := by
  intro s w hw
  rw [run_zoom] at hw
  obtain ⟨v, hv, rfl⟩ := List.mem_map.mp hw
  exact hm _ v hv

end Only

end Lib.Proc
