import HermesPayments.Lib.Proc

/-!
# `Lib.Crash` — what is left when a computation is cut short

A computation that is killed has performed a prefix of its effects, and only what those effects did to the
durable side is left. `Crash apply C P m Q` is the triple for this: from a volatile state and a durable side
in `P`, every prefix of the effects of `m` leaves the durable side in `C` (the crash condition), and all of
them leave result, state and durable side in `Q`.

The rules follow the constructions of `Proc`: one for each primitive, for sequencing, for `try`/`finally`,
and for a computation over a component of the state (`Crash.zoom`).
-/

namespace Lib

variable {ω ω' ε σ σ' δ α β : Type}

/-- The durable side after a list of effects, given what one effect does to it. -/
def applyAll (apply : δ → ω → δ) (d : δ) (es : List ω) : δ := es.foldl apply d

section

variable {apply : δ → ω → δ} {d : δ}

@[simp] theorem applyAll_nil : applyAll apply d [] = d := rfl

@[simp] theorem applyAll_cons (w : ω) (es : List ω) :
    applyAll apply d (w :: es) = applyAll apply (apply d w) es := rfl

theorem applyAll_append (es fs : List ω) :
    applyAll apply d (es ++ fs) = applyAll apply (applyAll apply d es) fs := List.foldl_append

theorem applyAll_map (inj : ω' → ω) (es : List ω') :
    applyAll apply d (es.map inj) = applyAll (fun d w => apply d (inj w)) d es := List.foldl_map

/-- A condition on the durable side that holds along `es` and then along `fs` holds along both. -/
theorem forall_take_append {C : δ → Prop} {es fs : List ω} (hes : ∀ k, C (applyAll apply d (es.take k)))
    (hfs : ∀ k, C (applyAll apply (applyAll apply d es) (fs.take k))) (k : Nat) :
    C (applyAll apply d ((es ++ fs).take k)) := by
  rw [List.take_append, applyAll_append]
  by_cases hk : k ≤ es.length
  · have hnil : fs.take (k - es.length) = [] := by
      rw [Nat.sub_eq_zero_of_le hk, List.take_zero]
    rw [hnil, applyAll_nil]
    exact hes k
  · rw [List.take_of_length_le (by omega)]
    exact hfs _

end

/-- The crash triple. -/
def Crash (apply : δ → ω → δ) (C : δ → Prop) (P : σ → δ → Prop) (m : Proc ω ε σ α)
    (Q : Except ε α → σ → δ → Prop) : Prop :=
  ∀ s d, P s d → (∀ k, C (applyAll apply d ((m.run s).effects.take k))) ∧
    Q (m.run s).result (m.run s).state (applyAll apply d (m.run s).effects)

namespace Crash

variable {apply : δ → ω → δ} {C : δ → Prop} {P P' R : σ → δ → Prop} {Q Q' : Except ε α → σ → δ → Prop}

/-! ## Consequence -/

theorem weaken {m : Proc ω ε σ α} (h : Crash apply C P m Q) (hpre : ∀ s d, P' s d → P s d)
    (hpost : ∀ r s d, Q r s d → Q' r s d) : Crash apply C P' m Q' := by
  intro s d hp
  obtain ⟨hcrash, hq⟩ := h s d (hpre s d hp)
  exact ⟨hcrash, hpost _ _ _ hq⟩

theorem pre {m : Proc ω ε σ α} (h : Crash apply C P m Q) (hpre : ∀ s d, P' s d → P s d) :
    Crash apply C P' m Q := h.weaken hpre (fun _ _ _ hq => hq)

theorem post {m : Proc ω ε σ α} {S : Except ε α → σ → δ → Prop}
    (h : Crash apply C P m Q) (hpost : ∀ r s d, Q r s d → S r s d) :
    Crash apply C P m S := h.weaken (fun _ _ hp => hp) hpost

/-- The assertions may speak of what the state held at the start. -/
theorem remember {γ : Type} {m : Proc ω ε σ α} (g : σ → γ)
    (h : ∀ x, Crash apply C (fun s d => g s = x ∧ P s d) m Q) : Crash apply C P m Q :=
  fun s d hp => h (g s) s d ⟨rfl, hp⟩

/-! ## Computations without effects -/

/-- A computation that performs no effect is cut short where it started. -/
theorem of_effects_nil {m : Proc ω ε σ α} (hm : ∀ s, (m.run s).effects = [])
    (h : ∀ s d, P s d → C d ∧ Q (m.run s).result (m.run s).state d) : Crash apply C P m Q := by
  intro s d hp
  obtain ⟨hc, hq⟩ := h s d hp
  rw [hm s]
  exact ⟨fun k => by rw [List.take_nil]; exact hc, hq⟩

theorem pure {a : α} (h : ∀ s d, P s d → C d ∧ Q (.ok a) s d) :
    Crash apply C P (pure a : Proc ω ε σ α) Q := of_effects_nil (fun _ => rfl) h

theorem raise {e : ε} (h : ∀ s d, P s d → C d ∧ Q (.error e) s d) :
    Crash apply C P (Proc.raise e : Proc ω ε σ α) Q := of_effects_nil (fun _ => rfl) h

/-- What follows a raise does not run. -/
theorem raise_bind {e : ε} {f : β → Proc ω ε σ α} (h : ∀ s d, P s d → C d ∧ Q (.error e) s d) :
    Crash apply C P (Proc.raise e >>= f) Q := of_effects_nil (fun _ => rfl) h

theorem get {Q : Except ε σ → σ → δ → Prop} (h : ∀ s d, P s d → C d ∧ Q (.ok s) s d) :
    Crash apply C P (Proc.get : Proc ω ε σ σ) Q := of_effects_nil (fun _ => rfl) h

theorem modify {f : σ → σ} {Q : Except ε Unit → σ → δ → Prop}
    (h : ∀ s d, P s d → C d ∧ Q (.ok ()) (f s) d) :
    Crash apply C P (Proc.modify f : Proc ω ε σ Unit) Q := of_effects_nil (fun _ => rfl) h

theorem ofExcept {r : Except ε α} (h : ∀ s d, P s d → C d ∧ Q r s d) :
    Crash apply C P (Proc.ofExcept r : Proc ω ε σ α) Q := of_effects_nil (fun _ => rfl) h

/-- A computation that changes nothing keeps what holds. -/
theorem still {m : Proc ω ε σ α} (hm : m.Still) (h : ∀ s d, P s d → C d) :
    Crash apply C P m (fun _ => P) := by
  refine of_effects_nil (fun s => (hm s).2) (fun s d hp => ⟨h s d hp, ?_⟩)
  rw [(hm s).1]
  exact hp

/-! ## Effects, sequencing, control -/

/-- A computation with one effect: cut short before it, or after it. -/
theorem of_effect {m : Proc ω ε σ α} {w : σ → ω} (hm : ∀ s, (m.run s).effects = [w s])
    (h : ∀ s d, P s d → C d ∧ C (apply d (w s)) ∧ Q (m.run s).result (m.run s).state (apply d (w s))) :
    Crash apply C P m Q := by
  intro s d hp
  obtain ⟨hbefore, hafter, hq⟩ := h s d hp
  rw [hm s]
  refine ⟨fun k => ?_, hq⟩
  cases k with
  | zero   => exact hbefore
  | succ k => rw [List.take_succ_cons, List.take_nil]; exact hafter

theorem emit {w : ω} {Q : Except ε Unit → σ → δ → Prop}
    (h : ∀ s d, P s d → C d ∧ C (apply d w) ∧ Q (.ok ()) s (apply d w)) :
    Crash apply C P (Proc.emit [w] : Proc ω ε σ Unit) Q := of_effect (w := fun _ => w) (fun _ => rfl) h

theorem bind {m : Proc ω ε σ α} {f : α → Proc ω ε σ β} {S : Except ε α → σ → δ → Prop}
    {T : Except ε β → σ → δ → Prop} (hm : Crash apply C P m S)
    (hf : ∀ a, Crash apply C (S (.ok a)) (f a) T)
    (herr : ∀ e s d, S (.error e) s d → T (.error e) s d) : Crash apply C P (m >>= f) T := by
  intro s d hp
  obtain ⟨hcrash, hq⟩ := hm s d hp
  rw [Proc.run_bind]
  rcases hrun : m.run s with ⟨e | a, s', es⟩
  · rw [hrun] at hcrash hq
    exact ⟨hcrash, herr _ _ _ hq⟩
  · rw [hrun] at hcrash hq
    obtain ⟨hcrash', hq'⟩ := hf a s' _ hq
    refine ⟨forall_take_append hcrash hcrash', ?_⟩
    show T _ _ (applyAll apply d (es ++ _))
    rw [applyAll_append]
    exact hq'

/-- Sequencing where neither part promises anything about its result. -/
theorem seq {m : Proc ω ε σ α} {f : α → Proc ω ε σ β} {R' : σ → δ → Prop}
    (hm : Crash apply C P m (fun _ => R)) (hf : ∀ a, Crash apply C R (f a) (fun _ => R'))
    (herr : ∀ s d, R s d → R' s d) : Crash apply C P (m >>= f) (fun _ => R') :=
  hm.bind hf (fun _ s d hr => herr s d hr)

/-- What a computation does does not depend on what its answer is turned into. -/
theorem of_map {m : Proc ω ε σ α} {g : α → β}
    (h : Crash apply C P (m >>= fun a => Pure.pure (g a)) (fun _ => R)) :
    Crash apply C P m (fun _ => R) := by
  intro s d hp
  obtain ⟨hcrash, hr⟩ := h s d hp
  obtain ⟨heffects, hstate⟩ := Proc.run_map m g s
  rw [heffects] at hcrash hr
  rw [hstate] at hr
  exact ⟨hcrash, hr⟩

/-- Reading the state first: the rest may use what was read. -/
theorem get_bind {f : σ → Proc ω ε σ α}
    (hf : ∀ a, Crash apply C (fun s d => s = a ∧ P s d) (f a) Q) : Crash apply C P (Proc.get >>= f) Q := by
  intro s d hp
  have hget : (Proc.get >>= f).run s = (f s).run s := rfl
  rw [hget]
  exact hf s s d ⟨rfl, hp⟩

theorem ite {c : Prop} [Decidable c] {a b : Proc ω ε σ α} (ha : c → Crash apply C P a Q)
    (hb : ¬ c → Crash apply C P b Q) : Crash apply C P (if c then a else b) Q := by
  split
  · next h => exact ha h
  · next h => exact hb h

/-- The `finally` block runs from whatever the body left, and does not change how the body ended. -/
theorem tryFinally {m : Proc ω ε σ α} {f : Proc ω ε σ Unit} {R' : σ → δ → Prop}
    (hm : Crash apply C P m (fun _ => R)) (hf : Crash apply C R f (fun _ => R')) :
    Crash apply C P (Proc.tryFinally m f) (fun _ => R') := by
  intro s d hp
  obtain ⟨hcrash, hr⟩ := hm s d hp
  obtain ⟨hcrash', hr'⟩ := hf _ _ hr
  have heffects : ((Proc.tryFinally m f).run s).effects
      = (m.run s).effects ++ (f.run (m.run s).state).effects := by
    simp only [Proc.run, Proc.tryFinally]
    split <;> rfl
  have hstate : ((Proc.tryFinally m f).run s).state = (f.run (m.run s).state).state := by
    simp only [Proc.run, Proc.tryFinally]
    split <;> rfl
  rw [heffects, hstate, applyAll_append]
  exact ⟨forall_take_append hcrash hcrash', hr'⟩

/-- A computation over a component of the state: the assertions speak of the whole state, with the component
    put back. -/
theorem zoom {view : σ' → σ} {update : σ → σ' → σ'} {inj : ω' → ω} {P Q : σ' → δ → Prop}
    {m : Proc ω' ε σ α} (hview : ∀ s, update (view s) s = s)
    (h : ∀ s₀, Crash (fun d w => apply d (inj w)) C (fun o d => P (update o s₀) d) m
      (fun _ o d => Q (update o s₀) d)) :
    Crash apply C P (Proc.zoom view update inj m) (fun _ => Q) := by
  intro s d hp
  have hp' : P (update (view s) s) d := by rw [hview]; exact hp
  obtain ⟨hcrash, hq⟩ := h s (view s) d hp'
  rw [Proc.run_zoom]
  refine ⟨fun k => ?_, ?_⟩
  · show C (applyAll apply d (((m.run (view s)).effects.map inj).take k))
    rw [← List.map_take, applyAll_map]
    exact hcrash k
  · show Q _ (applyAll apply d ((m.run (view s)).effects.map inj))
    rw [applyAll_map]
    exact hq

end Crash
end Lib
