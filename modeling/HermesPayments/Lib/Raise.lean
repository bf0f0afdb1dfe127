import Mathlib.Data.List.Basic

/-!
# `Lib.Raise` — rules for code that may raise

`raiseIf` is the statement `if c: raise e`. A sequence returns when its parts do (`bind_eq_ok`); written with `raiseIf`,
code that checks and then computes comes apart check by check. `EndsIn P r` says that `r` raises an exception of the
class `P`; it goes through a sequence in the same way (`endsIn_bind`). A loop that returns has returned from each of its
rounds (`ok_of_mapM`).
-/

namespace Lib

section

variable {ε α β : Type} {x : Except ε α} {f : α → Except ε β} {b : β} {c : Prop} [Decidable c] {e : ε}

/-- `if c: raise e`. -/
def raiseIf (c : Prop) [Decidable c] (e : ε) : Except ε Unit := if c then .error e else .ok ()

theorem bind_eq_ok : (x >>= f) = .ok b ↔ ∃ a, x = .ok a ∧ f a = .ok b := by
  cases x with
  | error e => exact ⟨nofun, fun ⟨_, h, _⟩ => nomatch h⟩
  | ok a =>
      show f a = .ok b ↔ _
      constructor
      · intro h
        exact ⟨a, rfl, h⟩
      · rintro ⟨_, ⟨⟩, h⟩
        exact h

theorem ok_bind (a : α) (f : α → Except ε β) : (Except.ok a >>= f) = f a := rfl

theorem bind_eq_error {e : ε} : (x >>= f) = .error e ↔ x = .error e ∨ ∃ a, x = .ok a ∧ f a = .error e := by
  cases x with
  | error e' =>
      show Except.error e' = .error e ↔ _
      constructor
      · rintro ⟨⟩
        exact .inl rfl
      · rintro (⟨⟨⟩⟩ | ⟨_, h, _⟩)
        · rfl
        · cases h
  | ok a =>
      show f a = .error e ↔ _
      constructor
      · intro h
        exact .inr ⟨a, rfl, h⟩
      · rintro (h | ⟨_, ⟨⟩, h⟩)
        · cases h
        · exact h

/-- A loop that returns has returned from each round. -/
theorem ok_of_mapM {l : List α} {r : List β} (h : l.mapM f = .ok r) : ∀ x ∈ l, ∃ y, f x = .ok y := by
  induction l generalizing r with
  | nil =>
      intro x hx
      cases hx
  | cons a l ih =>
      rw [List.mapM_cons] at h
      obtain ⟨b, ha, hrest⟩ := bind_eq_ok.mp h
      obtain ⟨r', hl, _⟩ := bind_eq_ok.mp hrest
      exact List.forall_mem_cons.mpr ⟨⟨b, ha⟩, ih hl⟩

/-- A check is passed when its condition fails. -/
theorem raiseIf_eq_ok {u : Unit} : raiseIf c e = .ok u ↔ ¬ c := by
  unfold raiseIf
  split
  · exact ⟨nofun, fun hc => absurd ‹c› hc⟩
  · exact ⟨fun _ => ‹¬ c›, fun _ => rfl⟩

theorem raiseIf_eq_error {e' : ε} : raiseIf c e = .error e' ↔ c ∧ e = e' := by
  unfold raiseIf
  split
  · exact ⟨fun h => ⟨‹c›, Except.error.inj h⟩, fun ⟨_, h⟩ => congrArg _ h⟩
  · exact ⟨nofun, fun ⟨hc, _⟩ => absurd hc ‹¬ c›⟩

theorem raiseIf_bind_of_not {f : Unit → Except ε β} (hc : ¬ c) : (raiseIf c e >>= f) = f () := by
  rw [raiseIf, if_neg hc]
  rfl

/-! ## Classes of exceptions -/

/-- `r` ends in an exception of this class. -/
def EndsIn (P : ε → Prop) (r : Except ε α) : Prop := ∃ e, r = .error e ∧ P e

variable {P : ε → Prop}

@[simp] theorem not_endsIn_ok (a : α) : ¬ EndsIn P (.ok a : Except ε α) := by
  rintro ⟨e, h, _⟩
  cases h

@[simp] theorem endsIn_error {e : ε} : EndsIn P (.error e : Except ε α) ↔ P e := by
  constructor
  · rintro ⟨e', h, he⟩
    exact Except.error.inj h ▸ he
  · intro he
    exact ⟨e, rfl, he⟩

@[simp] theorem not_endsIn_pure (a : α) : ¬ EndsIn P (pure a : Except ε α) := not_endsIn_ok a

/-- Where every exception is of the class, ending in one is not returning. -/
theorem endsIn_iff_error (h : ∀ e, x = .error e → P e) : EndsIn P x ↔ ∃ e, x = .error e :=
  exists_congr fun e => and_iff_left_of_imp (h e)

/-- A sequence ends in such an exception when its first part does, or its second part after the first returned. -/
theorem endsIn_bind : EndsIn P (x >>= f) ↔ EndsIn P x ∨ ∃ a, x = .ok a ∧ EndsIn P (f a) := by
  cases x with
  | error e =>
      show EndsIn P (.error e : Except ε β) ↔ _
      rw [endsIn_error, endsIn_error]
      constructor
      · exact .inl
      · rintro (he | ⟨_, h, _⟩)
        · exact he
        · cases h
  | ok a =>
      show EndsIn P (f a) ↔ _
      constructor
      · intro h
        exact .inr ⟨a, rfl, h⟩
      · rintro (h | ⟨_, ⟨⟩, h⟩)
        · exact absurd h (not_endsIn_ok a)
        · exact h

theorem endsIn_raiseIf {e : ε} : EndsIn P (raiseIf c e) ↔ c ∧ P e := by
  unfold raiseIf
  split
  · rw [endsIn_error]
    exact ⟨fun he => ⟨‹c›, he⟩, And.right⟩
  · exact iff_of_false (not_endsIn_ok ()) fun h => absurd h.1 ‹¬ c›

end

end Lib
