import HermesPayments.Policy.Refine

/-!
# `HermesPayments.Policy.Correctness.ApprovalKeys` — which approval triples share a replay key

The replay key of a triple joins its three strings with colons, and the strings may hold colons themselves. Cut at
its colons, a key is the row of the pieces of the three strings (`ApprovalTriple.pieces`), and the key no longer
says where one string ends and the next begins. So two triples are kept apart exactly when their rows differ
(`separated_iff`).
-/

namespace HermesPayments

open Lib IdempotencyStore

/-! ## Triples -/

/-- What an approval binds: an intent, a quote of it, and a prepared payload. -/
structure ApprovalTriple where
  intentId     : String
  quoteId      : String
  preparedHash : String
  quoteId_length : 1 ≤ quoteId.length ∧ quoteId.length ≤ 128

namespace ApprovalTriple

variable (t : ApprovalTriple)

def key : String := approvalKey t.intentId t.quoteId t.preparedHash

def isIn (s : IdempotencyStore) : Bool := s.hasApproval t.intentId t.quoteId t.preparedHash

def recordedIn (s : IdempotencyStore) : IdempotencyStore := s.addApproval t.intentId t.quoteId t.preparedHash

/-- The pieces the colons cut the three strings into, in one row. -/
def pieces : List (List Char) :=
  t.intentId.toList.splitOn ':' ++ (t.quoteId.toList.splitOn ':' ++ t.preparedHash.toList.splitOn ':')

/-- The triple an approval is recorded under. -/
def IsOf (a : PaymentApproval) : Prop :=
  t.intentId = a.intentId ∧ t.quoteId = a.quoteId ∧ t.preparedHash = a.preparedHash

theorem key_toList :
    t.key.toList = t.intentId.toList ++ ':' :: (t.quoteId.toList ++ ':' :: t.preparedHash.toList) := by
  simp [key, approvalKey, toString]

/-- Cutting the key at its colons gives the row of pieces. -/
theorem splitOn_key : t.key.toList.splitOn ':' = t.pieces := by
  rw [key_toList, List.splitOn_append_cons_self, List.splitOn_append_cons_self, pieces]

theorem isIn_recordedIn (t' : ApprovalTriple) (s : IdempotencyStore) :
    t.isIn (t'.recordedIn s) = (decide (t.key = t'.key) || t.isIn s) := by
  show decide (t.key ∈ insert t'.key s.approvals) = (decide (t.key = t'.key) || decide (t.key ∈ s.approvals))
  rw [← Bool.decide_or]
  exact decide_eq_decide.mpr Finset.mem_insert

end ApprovalTriple

/-- The pieces of a text determine it. -/
theorem splitOn_inj {x y : List Char} (h : x.splitOn ':' = y.splitOn ':') : x = y := by
  have hjoin := congrArg (List.intercalate [':']) h
  rwa [List.intercalate_splitOn, List.intercalate_splitOn] at hjoin

/-- **Two triples share a key exactly when they have one row of pieces.** -/
theorem ApprovalTriple.key_eq_iff {t t' : ApprovalTriple} : t.key = t'.key ↔ t.pieces = t'.pieces := by
  constructor
  · intro h
    rw [← splitOn_key, ← splitOn_key, h]
  · intro h
    rw [← splitOn_key, ← splitOn_key] at h
    exact String.toList_inj.mp (splitOn_inj h)

/-- One row is one triple where the intent ids hold equally many colons, and the quote ids too. -/
theorem ApprovalTriple.eq_of_pieces {t t' : ApprovalTriple}
    (hintent : t.intentId.toList.count ':' = t'.intentId.toList.count ':')
    (hquote : t.quoteId.toList.count ':' = t'.quoteId.toList.count ':') (h : t.pieces = t'.pieces) : t = t' := by
  have hlength (x : List Char) : (x.splitOn ':').length = x.count ':' + 1 := by
    induction x with
    | nil => rfl
    | cons c x ih =>
        rw [List.splitOn_cons_eq_if_modifyHead, List.count_cons]
        split <;> simp [ih]
  obtain ⟨hi, hrest⟩ := List.append_inj h (by rw [hlength, hlength, hintent])
  obtain ⟨hq, hh⟩ := List.append_inj hrest (by rw [hlength, hlength, hquote])
  obtain ⟨i, q, p, hlen⟩ := t
  obtain ⟨i', q', p', hlen'⟩ := t'
  obtain rfl : i = i' := String.toList_inj.mp (splitOn_inj hi)
  obtain rfl : q = q' := String.toList_inj.mp (splitOn_inj hq)
  obtain rfl : p = p' := String.toList_inj.mp (splitOn_inj hh)
  rfl

/-! ## What an approval reads of the store -/

variable {cfg : Config} {env : Env}

/-- An approval answers by what the store says of its own triple. -/
theorem approve_result_congr {o : PaymentOrchestrator} {s : IdempotencyStore} {a : PaymentApproval}
    (h : s.hasApproval a.intentId a.quoteId a.preparedHash
      = o.store.hasApproval a.intentId a.quoteId a.preparedHash) :
    ((approve cfg env a).run (o.withStore s)).result = ((approve cfg env a).run o).result := by
  have hrecord : (o.withStore s).record? a.intentId = o.record? a.intentId := rfl
  cases hr : o.record? a.intentId with
  | none =>
      rw [hr] at hrecord
      simp [approve, run_getRecord_none hr, run_getRecord_none hrecord, Proc.run_bind]
  | some r =>
      rw [hr] at hrecord
      simp only [approve, run_getRecord_some hr, run_getRecord_some hrecord, Proc.run_bind, Proc.after_nil]
      cases r.quote with
      | none => rfl
      | some q =>
          by_cases hqid : q.quoteId = a.quoteId
          swap
          · simp [hqid, Proc.run_bind]
          cases r.prepared with
          | none => simp [hqid]
          | some prep =>
              by_cases hhash : prep.preparedHash = a.preparedHash
              swap
              · simp [hqid, hhash, Proc.run_bind]
              cases hnew : o.store.hasApproval a.intentId a.quoteId a.preparedHash with
              | true => simp [hqid, hhash, h, hnew, Proc.run_bind]
              | false =>
                  by_cases hstate : r.state = PaymentState.PREPARED
                  swap
                  · simp [hqid, hhash, h, hnew, hstate, Proc.run_bind]
                  by_cases hsave : env.saves cfg
                  · simp [hqid, hhash, h, hnew, hstate, Proc.run_bind, recordApproval, run_save_ok hsave]
                  · simp [hqid, hhash, h, hnew, hstate, Proc.run_bind, recordApproval, run_save_error hsave]

/-! ## The theorem -/

/-- Recording `t` has no bearing on `t'`. -/
structure Separated (t t' : ApprovalTriple) : Prop where
  key    : t.key ≠ t'.key
  /-- Whatever the store holds, it says of `t'` what it said before. -/
  frame  : ∀ s, t'.isIn (t.recordedIn s) = t'.isIn s
  /-- An approval of `t'` is answered as if `t` had not been recorded: it is not refused as a replay for it. -/
  replay : ∀ cfg env o a, t'.IsOf a →
    ((approve cfg env a).run (o.withStore (t.recordedIn o.store))).result = ((approve cfg env a).run o).result

/-- **Two triples are kept apart exactly when their strings do not come to one row of pieces.** -/
theorem separated_iff (t t' : ApprovalTriple) : Separated t t' ↔ t.pieces ≠ t'.pieces := by
  rw [ne_eq, ← ApprovalTriple.key_eq_iff]
  constructor
  · intro h
    exact h.key
  · intro hkey
    have hframe (s : IdempotencyStore) : t'.isIn (t.recordedIn s) = t'.isIn s := by
      rw [ApprovalTriple.isIn_recordedIn, decide_eq_false (Ne.symm hkey), Bool.false_or]
    refine ⟨hkey, hframe, ?_⟩
    rintro cfg env o a ⟨hintent, hquote, hhash⟩
    refine approve_result_congr ?_
    rw [← hintent, ← hquote, ← hhash]
    exact hframe o.store

/-- The rule itself fails: a colon moved from the quote id to the intent id leaves the key as it is. -/
theorem triples_share_key : ¬ ∀ t t' : ApprovalTriple, t ≠ t' →
    ∀ s, t'.isIn (t.recordedIn s) = t'.isIn s := by
  intro hall
  have hne : (⟨"intent", "a:b", "hash", by decide⟩ : ApprovalTriple) ≠ ⟨"intent:a", "b", "hash", by decide⟩ := by
    intro heq
    exact absurd (congrArg ApprovalTriple.intentId heq) (by decide)
  exact absurd (hall _ _ hne .empty) (by decide)

end HermesPayments
