import HermesPayments.Models

/-!
# `HermesPayments.StateMachine` — the payment lifecycle automaton

The transition table and `transition`, the single source of truth for whether a step of the lifecycle is
admitted. `EXECUTING` is never left for `EXPIRED` or `FAILED`: a timeout or an ambiguous result leads to
`RECONCILIATION_REQUIRED`.
-/

namespace HermesPayments

open PaymentState

/-- The transition table: `(current_state, trigger) → next_state`. -/
def TRANSITIONS : List ((PaymentState × String) × PaymentState) := [
  -- happy path
  ((DRAFT, "submit"), SUBMITTED),
  ((SUBMITTED, "quote_received"), QUOTED),
  ((QUOTED, "prepared"), PREPARED),
  ((PREPARED, "approved"), APPROVED),
  ((APPROVED, "executing"), EXECUTING),
  ((EXECUTING, "settled"), SETTLED),
  -- early exits (sender-initiated)
  ((DRAFT, "cancel"), CANCELLED),
  ((SUBMITTED, "cancel"), CANCELLED),
  ((QUOTED, "cancel"), CANCELLED),
  ((PREPARED, "cancel"), CANCELLED),
  -- rejection
  ((SUBMITTED, "rejected"), REJECTED),
  ((QUOTED, "rejected"), REJECTED),
  ((PREPARED, "rejected"), REJECTED),
  ((APPROVED, "rejected"), REJECTED),
  -- expiry
  ((SUBMITTED, "expired"), EXPIRED),
  ((QUOTED, "expired"), EXPIRED),
  ((PREPARED, "expired"), EXPIRED),
  ((APPROVED, "expired"), EXPIRED),
  ((EXECUTING, "expired"), RECONCILIATION_REQUIRED),
  -- adapter failure
  ((QUOTED, "adapter_error"), FAILED),
  ((PREPARED, "adapter_error"), FAILED),
  ((APPROVED, "adapter_error"), FAILED),
  ((EXECUTING, "adapter_error"), RECONCILIATION_REQUIRED),
  -- external receipt confirmation
  ((EXECUTING, "receipt_received"), SETTLED),
  ((RECONCILIATION_REQUIRED, "receipt_received"), SETTLED),
  -- manual reconciliation
  ((RECONCILIATION_REQUIRED, "confirm_settled"), SETTLED)]

def TERMINAL_STATES : List PaymentState := [SETTLED, FAILED, REJECTED, EXPIRED, CANCELLED]

structure TransitionResult where
  ok       : Bool
  newState : PaymentState
  error    : Option String
deriving DecidableEq

/-- Execute a state transition; the result is returned without side effects. -/
def transition (current : PaymentState) (trigger : String) : TransitionResult :=
  if current ∈ TERMINAL_STATES then
    { ok := false, newState := current,
      error := some s!"state {current.value} is terminal; no transitions allowed" }
  else
    match TRANSITIONS.lookup (current, trigger) with
    | none =>
        { ok := false, newState := current,
          error := some s!"no transition from {current.value} on trigger '{trigger}'" }
    | some nextState => { ok := true, newState := nextState, error := none }

/-- The text an f-string shows for an error that may be `None`. -/
def TransitionResult.errorText (tr : TransitionResult) : String := tr.error.getD "None"

/-! ## What each trigger of the orchestrator admits -/

theorem transition_submit_ok : (transition DRAFT "submit").ok = true := by decide

theorem transition_submit_new : (transition DRAFT "submit").newState = SUBMITTED := by decide

@[simp] theorem transition_quote_received_ok (s : PaymentState) :
    (transition s "quote_received").ok = decide (s = SUBMITTED) := by cases s <;> decide

@[simp] theorem transition_quote_received_new :
    (transition SUBMITTED "quote_received").newState = QUOTED := by decide

@[simp] theorem transition_prepared_ok (s : PaymentState) :
    (transition s "prepared").ok = decide (s = QUOTED) := by cases s <;> decide

@[simp] theorem transition_prepared_new : (transition QUOTED "prepared").newState = PREPARED := by decide

@[simp] theorem transition_approved_ok (s : PaymentState) :
    (transition s "approved").ok = decide (s = PREPARED) := by cases s <;> decide

@[simp] theorem transition_approved_new : (transition PREPARED "approved").newState = APPROVED := by decide

@[simp] theorem transition_executing_ok (s : PaymentState) :
    (transition s "executing").ok = decide (s = APPROVED) := by cases s <;> decide

@[simp] theorem transition_executing_new :
    (transition APPROVED "executing").newState = EXECUTING := by decide

@[simp] theorem transition_settled_ok (s : PaymentState) :
    (transition s "settled").ok = decide (s = EXECUTING) := by cases s <;> decide

@[simp] theorem transition_settled_new : (transition EXECUTING "settled").newState = SETTLED := by decide

@[simp] theorem transition_receipt_received_ok (s : PaymentState) :
    (transition s "receipt_received").ok = decide (s = EXECUTING ∨ s = RECONCILIATION_REQUIRED) := by
  cases s <;> decide

theorem transition_receipt_received_new {s : PaymentState} (h : s = EXECUTING ∨ s = RECONCILIATION_REQUIRED) :
    (transition s "receipt_received").newState = SETTLED := by
  rcases h with rfl | rfl <;> decide

@[simp] theorem transition_confirm_settled_ok (s : PaymentState) :
    (transition s "confirm_settled").ok = decide (s = RECONCILIATION_REQUIRED) := by cases s <;> decide

@[simp] theorem transition_confirm_settled_new :
    (transition RECONCILIATION_REQUIRED "confirm_settled").newState = SETTLED := by decide

/-- The states `cancel` leaves. -/
def PaymentState.cancellable (s : PaymentState) : Bool := s ∈ [DRAFT, SUBMITTED, QUOTED, PREPARED]

/-- The states `reject` leaves. -/
def PaymentState.rejectable (s : PaymentState) : Bool := s ∈ [SUBMITTED, QUOTED, PREPARED, APPROVED]

@[simp] theorem transition_cancel_ok (s : PaymentState) : (transition s "cancel").ok = s.cancellable := by
  cases s <;> decide

theorem transition_cancel_new {s : PaymentState} (h : s.cancellable = true) :
    (transition s "cancel").newState = CANCELLED := by
  revert h; cases s <;> decide

@[simp] theorem transition_rejected_ok (s : PaymentState) : (transition s "rejected").ok = s.rejectable := by
  cases s <;> decide

theorem transition_rejected_new {s : PaymentState} (h : s.rejectable = true) :
    (transition s "rejected").newState = REJECTED := by
  revert h; cases s <;> decide

@[simp] theorem transition_expired_executing :
    (transition EXECUTING "expired").ok = true ∧
      (transition EXECUTING "expired").newState = RECONCILIATION_REQUIRED := by decide

/-- A terminal state admits no trigger at all. -/
theorem transition_terminal {s : PaymentState} (h : s ∈ TERMINAL_STATES) (trigger : String) :
    (transition s trigger).ok = false := by
  unfold transition; rw [if_pos h]

/-! ## Paths through the automaton -/

/-- From `s` to `s'` one stays, or goes along an edge of the table. -/
def PaymentState.Moves (s s' : PaymentState) : Prop := s = s' ∨ ∃ e ∈ TRANSITIONS, e.1.1 = s ∧ e.2 = s'

instance (s s' : PaymentState) : Decidable (s.Moves s') := inferInstanceAs (Decidable (_ ∨ _))

/-- The states of `path` lead from `s` to `s'`, one move each. -/
def PaymentState.Leads : PaymentState → List PaymentState → PaymentState → Prop
  | s, [], s'        => s = s'
  | s, t :: path, s' => s.Moves t ∧ t.Leads path s'

namespace PaymentState

theorem Leads.append {s t u : PaymentState} {path path' : List PaymentState} (h : s.Leads path t)
    (h' : t.Leads path' u) : s.Leads (path ++ path') u := by
  induction path generalizing s with
  | nil => rw [show s = t from h]; exact h'
  | cons v path ih => exact ⟨h.1, ih h.2⟩

/-- A path that never moves. -/
theorem Leads.stay {s : PaymentState} {path : List PaymentState} (h : ∀ t ∈ path, t = s) : s.Leads path s := by
  induction path with
  | nil => rfl
  | cons t path ih =>
      obtain rfl := h t List.mem_cons_self
      exact ⟨.inl rfl, ih fun u hu => h u (List.mem_cons_of_mem _ hu)⟩

/-- A set of states no edge leads out of holds every path that enters it. -/
theorem Leads.trapped {P : PaymentState → Prop} (hP : ∀ s s', P s → s.Moves s' → P s') {s s' t : PaymentState}
    {path : List PaymentState} (h : s.Leads path s') (hmem : t ∈ s :: path) (ht : P t) : P s' := by
  induction path generalizing s t with
  | nil =>
      rw [List.mem_singleton] at hmem
      rw [← show s = s' from h, ← hmem]
      exact ht
  | cons u path ih =>
      rcases List.mem_cons.mp hmem with rfl | hmem
      · exact ih h.2 List.mem_cons_self (hP _ _ ht h.1)
      · exact ih h.2 hmem ht

/-- No edge leads out of a terminal state. -/
theorem Moves.terminal {s s' : PaymentState} (hs : s ∈ TERMINAL_STATES) (h : s.Moves s') : s' = s := by
  revert h
  revert hs
  cases s <;> cases s' <;> decide

end PaymentState

end HermesPayments
