import Mathlib.Data.List.Basic

/-!
# `Lib.Proc` — stateful code with exceptions and an observable effect trace

`Proc ω ε σ α` is a computation that reads and writes a volatile state `σ`, may raise an exception `ε`,
and performs a sequence of effects `ω` (durable writes, calls to the outside) while it runs. Two things
distinguish it from the stock transformers:

* an exception keeps the state reached so far, as assignments made before a `raise` do;
* the effects come out in the order performed, also those performed before an exception. A process that is
  killed while it runs has performed a *prefix* of them, and nothing of the volatile state survives.
-/

namespace Lib

/-- What running a computation leaves behind. -/
structure Outcome (ω ε σ α : Type) where
  result  : Except ε α
  state   : σ
  effects : List ω

/-- A computation over the volatile state `σ`. -/
def Proc (ω ε σ α : Type) : Type := σ → Outcome ω ε σ α

namespace Proc

variable {ω ω' ε σ σ' α β : Type}

def run (m : Proc ω ε σ α) (s : σ) : Outcome ω ε σ α := m s

/-- The outcome of a continuation, with the effects performed before it put in front. -/
def after (es : List ω) (o : Outcome ω ε σ α) : Outcome ω ε σ α := { o with effects := es ++ o.effects }

instance : Monad (Proc ω ε σ) where
  pure a := fun s => ⟨.ok a, s, []⟩
  bind m f := fun s =>
    match m s with
    | ⟨.ok a, s', es⟩    => after es (f a s')
    | ⟨.error e, s', es⟩ => ⟨.error e, s', es⟩

/-- Raise an exception; the state reached so far stays. -/
def raise (e : ε) : Proc ω ε σ α := fun s => ⟨.error e, s, []⟩

def get : Proc ω ε σ σ := fun s => ⟨.ok s, s, []⟩

def modify (f : σ → σ) : Proc ω ε σ Unit := fun s => ⟨.ok (), f s, []⟩

/-- Perform effects. -/
def emit (es : List ω) : Proc ω ε σ Unit := fun s => ⟨.ok (), s, es⟩

/-- Lift a pure fallible computation. -/
def ofExcept (r : Except ε α) : Proc ω ε σ α := fun s => ⟨r, s, []⟩

/-- Run a computation over a component of a larger state, naming its effects among the larger ones. -/
def zoom (view : σ' → σ) (update : σ → σ' → σ') (inj : ω → ω') (m : Proc ω ε σ α) :
    Proc ω' ε σ' α := fun s =>
  let o := m (view s)
  ⟨o.result, update o.state s, o.effects.map inj⟩

/-- `try m finally f`: `f` runs whether or not `m` raised, and `m`'s answer stands unless `f` raises. -/
def tryFinally (m : Proc ω ε σ α) (f : Proc ω ε σ Unit) : Proc ω ε σ α := fun s =>
  let o := m s
  let o' := f o.state
  match o'.result with
  | .ok _    => ⟨o.result, o'.state, o.effects ++ o'.effects⟩
  | .error e => ⟨.error e, o'.state, o.effects ++ o'.effects⟩

/-- Raise another exception in place of each. -/
def mapError {ε' : Type} (f : ε → ε') (m : Proc ω ε σ α) : Proc ω ε' σ α := fun s =>
  let o := m s
  ⟨o.result.mapError f, o.state, o.effects⟩

/-! ## Running the primitives -/

@[simp] theorem run_pure (a : α) (s : σ) : (pure a : Proc ω ε σ α).run s = ⟨.ok a, s, []⟩ := rfl

@[simp] theorem run_raise (e : ε) (s : σ) : (raise e : Proc ω ε σ α).run s = ⟨.error e, s, []⟩ := rfl

@[simp] theorem run_get (s : σ) : (get : Proc ω ε σ σ).run s = ⟨.ok s, s, []⟩ := rfl

@[simp] theorem run_modify (f : σ → σ) (s : σ) :
    (modify f : Proc ω ε σ Unit).run s = ⟨.ok (), f s, []⟩ := rfl

@[simp] theorem run_emit (es : List ω) (s : σ) :
    (emit es : Proc ω ε σ Unit).run s = ⟨.ok (), s, es⟩ := rfl

@[simp] theorem run_ofExcept (r : Except ε α) (s : σ) :
    (ofExcept r : Proc ω ε σ α).run s = ⟨r, s, []⟩ := rfl

@[simp] theorem run_ite (c : Prop) [Decidable c] (a b : Proc ω ε σ α) (s : σ) :
    (if c then a else b).run s = if c then a.run s else b.run s := by
  split <;> rfl

theorem run_bind (m : Proc ω ε σ α) (f : α → Proc ω ε σ β) (s : σ) :
    (m >>= f).run s = match m.run s with
      | ⟨.ok a, s', es⟩    => after es ((f a).run s')
      | ⟨.error e, s', es⟩ => ⟨.error e, s', es⟩ := rfl

/-- Sequencing after a computation known to return. -/
theorem run_bind_ok {m : Proc ω ε σ α} {f : α → Proc ω ε σ β} {s s' : σ} {a : α} {es : List ω}
    (h : m.run s = ⟨.ok a, s', es⟩) : (m >>= f).run s = after es ((f a).run s') := by
  rw [run_bind, h]

/-- Sequencing after a computation known to raise. -/
theorem run_bind_error {m : Proc ω ε σ α} {f : α → Proc ω ε σ β} {s s' : σ} {e : ε} {es : List ω}
    (h : m.run s = ⟨.error e, s', es⟩) : (m >>= f).run s = ⟨.error e, s', es⟩ := by
  rw [run_bind, h]

@[simp] theorem after_nil (o : Outcome ω ε σ α) : after [] o = o := rfl

@[simp] theorem after_mk (es : List ω) (r : Except ε α) (s : σ) (fs : List ω) :
    after es ⟨r, s, fs⟩ = ⟨r, s, es ++ fs⟩ := rfl

/-- An effect of the first part of a sequence is an effect of the whole. -/
theorem mem_effects_bind {m : Proc ω ε σ α} {f : α → Proc ω ε σ β} {s : σ} {w : ω}
    (h : w ∈ (m.run s).effects) : w ∈ ((m >>= f).run s).effects := by
  rw [run_bind]
  rcases hm : m.run s with ⟨_ | a, s', es⟩
  · rw [hm] at h; exact h
  · rw [hm] at h; exact List.mem_append_left _ h

@[simp] theorem effects_after (es : List ω) (o : Outcome ω ε σ α) :
    (after es o).effects = es ++ o.effects := rfl

/-- Turning the answer into another leaves effects and state alone. -/
theorem run_map (m : Proc ω ε σ α) (g : α → β) (s : σ) :
    ((m >>= fun a => pure (g a)).run s).effects = (m.run s).effects ∧
      ((m >>= fun a => pure (g a)).run s).state = (m.run s).state := by
  rw [run_bind]
  rcases m.run s with ⟨_ | a, s', es⟩
  · exact ⟨rfl, rfl⟩
  · simp

/-- A `finally` block that returns leaves the answer alone. -/
theorem run_tryFinally {m : Proc ω ε σ α} {f : Proc ω ε σ Unit} {s s' : σ} {es : List ω}
    (h : f.run (m.run s).state = ⟨.ok (), s', es⟩) :
    (tryFinally m f).run s = ⟨(m.run s).result, s', (m.run s).effects ++ es⟩ := by
  unfold run at h
  simp only [run, tryFinally]
  rw [h]

/-- A sequence that ends by turning the answer into another returns when its first part does. -/
theorem run_of_map {m : Proc ω ε σ α} {g : α → β} {s s' : σ} {b : β} {es : List ω}
    (h : (m >>= fun a => pure (g a)).run s = ⟨.ok b, s', es⟩) :
    ∃ a, g a = b ∧ m.run s = ⟨.ok a, s', es⟩ := by
  rw [run_bind] at h
  rcases hm : m.run s with ⟨_ | a, s₁, es₁⟩
  · rw [hm] at h
    cases h
  · rw [hm] at h
    simp only [run_pure, after_mk, List.append_nil, Outcome.mk.injEq, Except.ok.injEq] at h
    obtain ⟨hb, rfl, rfl⟩ := h
    exact ⟨a, hb, rfl⟩

/-- A pure part that returns. -/
theorem run_ok_bind (a : α) (f : α → Proc ω ε σ β) (s : σ) : (ofExcept (.ok a) >>= f).run s = (f a).run s := rfl

/-- What a sequence answers after a pure part. -/
theorem result_ofExcept_bind (r : Except ε α) (f : α → Proc ω ε σ β) (s : σ) :
    ((ofExcept r >>= f).run s).result = r >>= fun a => ((f a).run s).result := by
  cases r <;> rfl

@[simp] theorem run_zoom (view : σ' → σ) (update : σ → σ' → σ') (inj : ω → ω')
    (m : Proc ω ε σ α) (s : σ') :
    (zoom view update inj m).run s
      = ⟨(m.run (view s)).result, update (m.run (view s)).state s, (m.run (view s)).effects.map inj⟩ := rfl

theorem run_mapError {ε' : Type} (f : ε → ε') (m : Proc ω ε σ α) (s : σ) :
    (mapError f m).run s = ⟨(m.run s).result.mapError f, (m.run s).state, (m.run s).effects⟩ := rfl

theorem mapError_bind {ε' : Type} (f : ε → ε') (m : Proc ω ε σ α) (g : α → Proc ω ε σ β) :
    mapError f (m >>= g) = mapError f m >>= fun a => mapError f (g a) := by
  funext s
  show (mapError f (m >>= g)).run s = (mapError f m >>= fun a => mapError f (g a)).run s
  rw [run_mapError, run_bind, run_bind, run_mapError]
  rcases m.run s with ⟨_ | a, s', es⟩
  · rfl
  · rfl

/-- A sequence over a component of the state is the sequence of its parts. -/
theorem zoom_bind {view : σ' → σ} {update : σ → σ' → σ'} {inj : ω → ω'} (hview : ∀ a s, view (update a s) = a)
    (hupdate : ∀ a b s, update b (update a s) = update b s) (m : Proc ω ε σ α) (f : α → Proc ω ε σ β) :
    zoom view update inj (m >>= f) = zoom view update inj m >>= fun x => zoom view update inj (f x) := by
  funext s
  show (zoom view update inj (m >>= f)).run s = (zoom view update inj m >>= fun x => zoom view update inj (f x)).run s
  rw [run_zoom, run_bind, run_bind, run_zoom]
  rcases m.run (view s) with ⟨_ | a, s', es⟩
  · rfl
  · simp only [run_zoom, hview, hupdate, after, List.map_append]

/-! ## Computations that change nothing -/

/-- The computation only reads: it changes no state and performs no effect. -/
def Still (m : Proc ω ε σ α) : Prop := ∀ s, (m.run s).state = s ∧ (m.run s).effects = []

namespace Still

theorem pure (a : α) : Still (Pure.pure a : Proc ω ε σ α) := fun _ => ⟨rfl, rfl⟩

theorem raise (e : ε) : Still (Proc.raise e : Proc ω ε σ α) := fun _ => ⟨rfl, rfl⟩

theorem get : Still (Proc.get : Proc ω ε σ σ) := fun _ => ⟨rfl, rfl⟩

theorem ofExcept (r : Except ε α) : Still (Proc.ofExcept r : Proc ω ε σ α) := fun _ => ⟨rfl, rfl⟩

theorem bind {m : Proc ω ε σ α} {f : α → Proc ω ε σ β} (hm : m.Still) (hf : ∀ a, (f a).Still) :
    (m >>= f).Still := by
  intro s
  obtain ⟨hstate, heffects⟩ := hm s
  rw [run_bind]
  rcases hrun : m.run s with ⟨_ | a, s', es⟩
  · rw [hrun] at hstate heffects
    exact ⟨hstate, heffects⟩
  · rw [hrun] at hstate heffects
    have hs : s' = s := hstate
    have hes : es = [] := heffects
    subst hs hes
    exact hf a s'

theorem ite {c : Prop} [Decidable c] {a b : Proc ω ε σ α} (ha : a.Still) (hb : b.Still) :
    (if c then a else b).Still := by
  split
  · exact ha
  · exact hb

theorem zoom {view : σ' → σ} {update : σ → σ' → σ'} {inj : ω → ω'} {m : Proc ω ε σ α}
    (hview : ∀ s, update (view s) s = s) (hm : m.Still) : (Proc.zoom view update inj m).Still := by
  intro s
  obtain ⟨hstate, heffects⟩ := hm (view s)
  rw [run_zoom, hstate, heffects]
  exact ⟨hview s, rfl⟩

end Still

/-! ## Computations that leave the state alone -/

/-- The computation may perform effects, but changes no state. -/
def Keeps (m : Proc ω ε σ α) : Prop := ∀ s, (m.run s).state = s

theorem Still.keeps {m : Proc ω ε σ α} (hm : m.Still) : m.Keeps := fun s => (hm s).1

namespace Keeps

theorem pure (a : α) : Keeps (Pure.pure a : Proc ω ε σ α) := fun _ => rfl

theorem emit (es : List ω) : Keeps (Proc.emit es : Proc ω ε σ Unit) := fun _ => rfl

theorem ofExcept (r : Except ε α) : Keeps (Proc.ofExcept r : Proc ω ε σ α) := fun _ => rfl

/-- What leaves the state alone may follow anything. -/
theorem state_bind {m : Proc ω ε σ α} {f : α → Proc ω ε σ β} (hf : ∀ a, (f a).Keeps) (s : σ) :
    ((m >>= f).run s).state = (m.run s).state := by
  rw [run_bind]
  rcases m.run s with ⟨_ | a, s', es⟩
  · rfl
  · exact hf a s'

theorem bind {m : Proc ω ε σ α} {f : α → Proc ω ε σ β} (hm : m.Keeps) (hf : ∀ a, (f a).Keeps) :
    (m >>= f).Keeps := fun s => (state_bind hf s).trans (hm s)

end Keeps

/-! ## Computations with effects of one kind -/

/-- Every effect the computation performs is of the kind, whatever state it starts from. -/
def Emits (P : ω → Prop) (m : Proc ω ε σ α) : Prop := ∀ s, ∀ w ∈ (m.run s).effects, P w

theorem Still.emits {P : ω → Prop} {m : Proc ω ε σ α} (hm : m.Still) : m.Emits P := by
  intro s w hw
  rw [(hm s).2] at hw
  cases hw

namespace Emits

variable {P : ω → Prop}

theorem emit {es : List ω} (hes : ∀ w ∈ es, P w) : Emits P (Proc.emit es : Proc ω ε σ Unit) := fun _ => hes

theorem bind {m : Proc ω ε σ α} {f : α → Proc ω ε σ β} (hm : m.Emits P) (hf : ∀ a, (f a).Emits P) : (m >>= f).Emits P := by
  intro s w hw
  have hfirst := hm s
  rw [run_bind] at hw
  rcases hrun : m.run s with ⟨_ | a, s', es⟩
  · rw [hrun] at hfirst hw
    exact hfirst w hw
  · rw [hrun] at hfirst hw
    rcases List.mem_append.mp hw with hw | hw
    · exact hfirst w hw
    · exact hf a s' w hw

theorem ite {c : Prop} [Decidable c] {a b : Proc ω ε σ α} (ha : a.Emits P) (hb : b.Emits P) : (if c then a else b).Emits P := by
  split
  · exact ha
  · exact hb

end Emits

end Proc
end Lib
