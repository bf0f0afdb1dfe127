import Mathlib.Data.List.Basic

/-!
# `Lib.Run` — runs of a transition system and what holds along them

A system is given by its initial states and a labelled step relation. `Run` collects the events of a run in
order, each with the state it starts from and the state it leaves, so that a property may speak about the
past of a state and not only about the state.

The rules: an invariant kept by every step holds in every state reached (`Run.invariant`); a property of
history and state kept by every step holds along every run (`Run.history`); a fact that every step keeps
still holds at any later event (`Run.stays`); what the steps spend comes out of a budget (`Run.spends`); a run
all of whose events satisfy a guard is a run of the guarded system (`Run.guarded`); and a run of one system is
seen as a run of another that each step matches or leaves alone (`Run.refines`).
-/

namespace Lib

variable {σ ι : Type}

/-- One event of a run: the state before, what is observed of the step, the state after. -/
structure Event (σ ι : Type) where
  before : σ
  seen   : ι
  after  : σ

/-- `Run init step h s`: the events `h` lead, in order, from an initial state to `s`. -/
inductive Run (init : σ → Prop) (step : σ → ι → σ → Prop) : List (Event σ ι) → σ → Prop
  | nil {s : σ} (hinit : init s) : Run init step [] s
  | snoc {h : List (Event σ ι)} {s s' : σ} {i : ι} (hrun : Run init step h s) (hstep : step s i s') :
      Run init step (h ++ [⟨s, i, s'⟩]) s'

namespace Run

variable {init : σ → Prop} {step : σ → ι → σ → Prop} {h : List (Event σ ι)} {s : σ}

/-! ## Invariants -/

/-- A property of the past and the present that every step keeps holds along every run. -/
theorem history {P : List (Event σ ι) → σ → Prop} (hinit : ∀ s, init s → P [] s)
    (hkeep : ∀ h s i s', Run init step h s → P h s → step s i s' → P (h ++ [⟨s, i, s'⟩]) s')
    (hrun : Run init step h s) : P h s := by
  induction hrun with
  | nil h0 => exact hinit _ h0
  | snoc hrun hstep ih => exact hkeep _ _ _ _ hrun ih hstep

/-- An invariant kept by every step holds in every state reached. -/
theorem invariant {I : σ → Prop} (hinit : ∀ s, init s → I s)
    (hkeep : ∀ s i s', I s → step s i s' → I s') (hrun : Run init step h s) : I s :=
  hrun.history (P := fun _ => I) hinit (fun _ s i s' _ hs hstep => hkeep s i s' hs hstep)

/-- A run whose events all satisfy a guard is a run of the guarded system. -/
theorem guarded {guard : σ → ι → Prop} (hrun : Run init step h s)
    (hguard : ∀ e ∈ h, guard e.before e.seen) :
    Run init (fun s i s' => step s i s' ∧ guard s i) h s := by
  induction hrun with
  | nil h0 => exact .nil h0
  | @snoc h s s' i hrun hstep ih =>
      refine .snoc (ih fun e he => hguard e (List.mem_append_left _ he)) ⟨hstep, ?_⟩
      exact hguard ⟨s, i, s'⟩ (by simp)

/-- A run of a system is a run of any system with at least its initial states and steps. -/
theorem mono {init' : σ → Prop} {step' : σ → ι → σ → Prop} (hinit : ∀ s, init s → init' s)
    (hstep : ∀ s i s', step s i s' → step' s i s') (hrun : Run init step h s) : Run init' step' h s := by
  induction hrun with
  | nil h0 => exact .nil (hinit _ h0)
  | snoc _ hs ih => exact .snoc ih (hstep _ _ _ hs)

/-! ## Refinement -/

section

variable {σ' ι' : Type} {init' : σ' → Prop} {step' : σ' → ι' → σ' → Prop}

/-- **Refinement with stuttering.** A step whose label shows a label of the other system is a step there, and any
    other step leaves the view alone; so a run is a run of the other system, with the labels shown, in order. -/
theorem refines {view : σ → σ'} {shown : ι → Option ι'} (hinit : ∀ s, init s → init' (view s))
    (hstep : ∀ s i s' j, step s i s' → shown i = some j → step' (view s) j (view s'))
    (hstutter : ∀ s i s', step s i s' → shown i = none → view s' = view s) (hrun : Run init step h s) :
    ∃ g, Run init' step' g (view s) ∧ g.map Event.seen = (h.map Event.seen).filterMap shown := by
  induction hrun with
  | nil h0 => exact ⟨[], .nil (hinit _ h0), rfl⟩
  | @snoc h s s' i _ hone ih =>
      obtain ⟨g, hg, hlabels⟩ := ih
      rw [List.map_append, List.filterMap_append, ← hlabels]
      cases hi : shown i with
      | none =>
          refine ⟨g, ?_, by simp [hi]⟩
          rw [hstutter s i s' hone hi]
          exact hg
      | some j => exact ⟨_, hg.snoc (hstep s i s' j hone hi), by simp [hi]⟩

end

/-! ## Positions -/

/-- The event at a position is a step from the state its past leads to. -/
theorem at_position {j : Nat} {e : Event σ ι} (hrun : Run init step h s) (he : h[j]? = some e) :
    Run init step (h.take j) e.before ∧ step e.before e.seen e.after := by
  induction hrun with
  | nil _ => simp at he
  | @snoc h s s' i hrun hstep ih =>
      have hj : j < h.length + 1 := by
        have := (List.getElem?_eq_some_iff.mp he).1
        simpa using this
      by_cases hlast : j = h.length
      · subst hlast
        have : e = ⟨s, i, s'⟩ := by simpa using he.symm
        subst this
        rw [List.take_left]
        exact ⟨hrun, hstep⟩
      · have hlt : j < h.length := by omega
        rw [List.getElem?_append_left hlt] at he
        rw [List.take_append_of_le_length (by omega)]
        exact ih he

/-- An event of a run starts in a state that a run reaches. -/
theorem of_mem {e : Event σ ι} (hrun : Run init step h s) (he : e ∈ h) :
    ∃ g, Run init step g e.before ∧ step e.before e.seen e.after := by
  obtain ⟨j, hj⟩ := List.getElem?_of_mem he
  exact ⟨_, hrun.at_position hj⟩

/-! ## Facts that last -/

/-- A fact that holds after some event, and that every step keeps, holds at the end. -/
theorem lasts {Q : σ → Prop} {j : Nat} {e : Event σ ι}
    (hkeep : ∀ g s i s', Run init step g s → Q s → step s i s' → Q s')
    (hrun : Run init step h s) (he : h[j]? = some e) (hq : Q e.after) : Q s := by
  induction hrun with
  | nil _ => simp at he
  | @snoc h s s' i hrun hstep ih =>
      by_cases hlt : j < h.length
      · rw [List.getElem?_append_left hlt] at he
        exact hkeep _ _ _ _ hrun (ih he) hstep
      · have hj : j < h.length + 1 := by
          have := (List.getElem?_eq_some_iff.mp he).1
          simpa using this
        have hlast : j = h.length := by omega
        subst hlast
        have : e = ⟨s, i, s'⟩ := by simpa using he.symm
        subst this
        exact hq

/-- … and it holds when any later event starts. -/
theorem stays {Q : σ → Prop} {j k : Nat} {e e' : Event σ ι}
    (hkeep : ∀ g s i s', Run init step g s → Q s → step s i s' → Q s')
    (hrun : Run init step h s) (he : h[j]? = some e) (he' : h[k]? = some e') (hjk : j < k)
    (hq : Q e.after) : Q e'.before := by
  have hpast : (h.take k)[j]? = some e := by rw [List.getElem?_take_of_lt hjk]; exact he
  exact (hrun.at_position he').1.lasts hkeep hpast hq

/-- **A budget**: where every step that is allowed pays for what it spends out of what is left, the events from a position on
    spend no more than there was. -/
theorem spends {α : Type} {I : σ → Prop} {allowed : ι → Prop} {spent : ι → List α} {budget : σ → Nat} {j : Nat}
    {e : Event σ ι} (hkeep : ∀ s i s', I s → step s i s' → allowed i → I s' ∧ (spent i).length + budget s' ≤ budget s)
    (hrun : Run init step h s) (he : h[j]? = some e) (hI : I e.before) (hallowed : ∀ e' ∈ h.drop j, allowed e'.seen) :
    I s ∧ ((h.drop j).flatMap fun e' => spent e'.seen).length + budget s ≤ budget e.before := by
  induction hrun with
  | nil _ => simp at he
  | @snoc h s s' i _ hstep ih =>
      have hj : j < h.length + 1 := by
        have hlt := (List.getElem?_eq_some_iff.mp he).1
        simpa using hlt
      rw [List.drop_append_of_le_length (Nat.le_of_lt_succ hj)] at hallowed ⊢
      have hi : allowed i := hallowed ⟨s, i, s'⟩ (List.mem_append_right _ (List.mem_singleton_self _))
      rw [List.flatMap_append, List.length_append, List.flatMap_singleton]
      show I s' ∧ _ + (spent i).length + budget s' ≤ _
      by_cases hlast : j = h.length
      · subst hlast
        have hhere : e = ⟨s, i, s'⟩ := by simpa using he.symm
        subst hhere
        obtain ⟨hI', hpaid⟩ := hkeep s i s' hI hstep hi
        rw [List.drop_length]
        exact ⟨hI', by simpa using hpaid⟩
      · rw [List.getElem?_append_left (by omega)] at he
        obtain ⟨hIs, hpast⟩ := ih he fun e' he' => hallowed e' (List.mem_append_left _ he')
        obtain ⟨hI', hpaid⟩ := hkeep s i s' hIs hstep hi
        exact ⟨hI', by omega⟩

end Run

/-! ## Playing inputs -/

section

variable {κ : Type} (next : σ → κ → Event σ ι)

/-- The events of a system that answers inputs. -/
def playEvents : σ → List κ → List (Event σ ι)
  | _, [] => []
  | s, k :: ks => next s k :: playEvents (next s k).after ks

/-- The state the inputs lead to. -/
def playState : σ → List κ → σ
  | s, [] => s
  | s, k :: ks => playState (next s k).after ks

variable {next}

/-- Each event of a play answers one of the inputs. -/
theorem mem_playEvents {s : σ} {ks : List κ} {e : Event σ ι} (he : e ∈ playEvents next s ks) :
    ∃ s' k, k ∈ ks ∧ e = next s' k := by
  induction ks generalizing s with
  | nil => cases he
  | cons k ks ih =>
      rcases List.mem_cons.mp he with rfl | he
      · exact ⟨s, k, List.mem_cons_self, rfl⟩
      · obtain ⟨s', k', hk', rfl⟩ := ih he
        exact ⟨s', k', List.mem_cons_of_mem _ hk', rfl⟩

/-- Answering inputs from an initial state makes a run. -/
theorem run_playEvents {init : σ → Prop} {step : σ → ι → σ → Prop} {h : List (Event σ ι)} {s : σ}
    (hbefore : ∀ s k, (next s k).before = s) (hstep : ∀ s k, step s (next s k).seen (next s k).after)
    (hrun : Run init step h s) (ks : List κ) :
    Run init step (h ++ playEvents next s ks) (playState next s ks) := by
  induction ks generalizing h s with
  | nil =>
      rw [playEvents, List.append_nil]
      exact hrun
  | cons k ks ih =>
      have hone : Run init step (h ++ [next s k]) (next s k).after := by
        have hsnoc := hrun.snoc (hstep s k)
        rwa [← show (⟨(next s k).before, (next s k).seen, (next s k).after⟩ : Event σ ι) = next s k from rfl,
          hbefore s k]
      have hrest := ih hone
      rwa [List.append_assoc, List.singleton_append] at hrest

end

/-! ## What happened when -/

/-- The event at position `k` satisfies `P`. -/
def Happens (h : List (Event σ ι)) (k : Nat) (P : ι → Prop) : Prop := ∃ e, h[k]? = some e ∧ P e.seen

theorem Happens.lt {h : List (Event σ ι)} {k : Nat} {P : ι → Prop} (hk : Happens h k P) : k < h.length := by
  obtain ⟨e, he, _⟩ := hk
  exact (List.getElem?_eq_some_iff.mp he).1

/-- What happened stays in the history. -/
theorem Happens.append {h : List (Event σ ι)} {k : Nat} {P : ι → Prop} (h' : List (Event σ ι)) (hk : Happens h k P) :
    Happens (h ++ h') k P := by
  obtain ⟨e, he, hp⟩ := hk
  refine ⟨e, ?_, hp⟩
  rw [List.getElem?_append_left (List.getElem?_eq_some_iff.mp he).1]
  exact he

/-- The last event of a history. -/
theorem Happens.last {h : List (Event σ ι)} {P : ι → Prop} {e : Event σ ι} (hp : P e.seen) : Happens (h ++ [e]) h.length P :=
  ⟨e, by simp, hp⟩

/-- What happened in the past of a position happened before it. -/
theorem Happens.of_take {h : List (Event σ ι)} {j k : Nat} {P : ι → Prop} (hk : Happens (h.take j) k P) :
    k < j ∧ Happens h k P := by
  obtain ⟨e, he, hp⟩ := hk
  have hlen := (List.getElem?_eq_some_iff.mp he).1
  have hkj : k < j := by
    rw [List.length_take] at hlen
    omega
  rw [List.getElem?_take_of_lt hkj] at he
  exact ⟨hkj, e, he, hp⟩

end Lib
