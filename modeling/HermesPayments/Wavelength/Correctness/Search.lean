import Mathlib.Algebra.Order.Ring.Cast
import Mathlib.Algebra.Order.Ring.Rat
import HermesPayments.Wavelength.Correctness.Agreement

/-!
# `HermesPayments.Wavelength.Correctness.Search` — what verification finds in the activity

Verification is meant to search the wallet's activity for a completed payment under a payment hash. Its loop stops at the
first entry under that hash, and at the first one with an amount or a fee that is no number. So it finds what is there
exactly when the list does not mislead it (`searches_exactly_iff`): no such entry comes too early, no failed attempt
masks a completed payment, and the entry it accepts is one, hash and amount compared without conversion. In every order of the
entries it does so exactly when the list is unambiguous.
-/

namespace HermesPayments

open Lib

/-! ## A matching entry -/

/-- The exact value of an amount: a number, or a text that reads as an integer. -/
def exactAmount (py : PyRuntime) : Json → Option Rat
  | .str s => (intOfText py.decimal s).toOption.map (fun n : Int => (n : Rat))
  | x      => x.number?

/-- The entry itself, or the one wrapped in it. -/
def unwrapEntry (data : Json) : Json :=
  let wrapped := data.getD "entry" .null
  if wrapped.isDict then wrapped else data

namespace WavelengthAdapter

/-- An exact amount as a receipt states it. -/
def ActivityKind.exact (kind : ActivityKind) (q : Rat) : Rat := if kind = .send then |q| else q

section

variable (py : PyRuntime) (kind : ActivityKind) (ref : PyStr) (amountSat : Int)

/-- The entry is a completed payment of this amount under this payment hash. -/
structure Matches (entry : Json) : Prop where
  ref_ne : ref ≠ ""
  hash   : extractPaymentHash (unwrapEntry entry) = ref
  status : activityStatus py ((unwrapEntry entry).getD "status" (.str "UNSPECIFIED")) = "COMPLETE"
  amount : ∃ q, exactAmount py ((unwrapEntry entry).getD "amount_sat" (.int 0)) = some q ∧ kind.exact q = amountSat

/-- The loop accepts a parsed entry. -/
def Accepts (parsed : ActivityEntry) : Prop := parsed.status = "COMPLETE" ∧ kind.amount parsed.amountSat = amountSat

/-- The entries mislead the loop. -/
inductive Misleads : List Json → Prop
  /-- An entry with an amount or a fee that is no number. -/
  | raised {entry : Json} {rest : List Json} {m : String} (hparse : parseActivityEntry py entry = .error (.other m)) :
      Misleads (entry :: rest)
  /-- The first entry under the hash is not accepted, a later one matches. -/
  | masked {entry : Json} {rest : List Json} {parsed : ActivityEntry} (hparse : parseActivityEntry py entry = .ok parsed)
      (hhash : parsed.paymentHash = ref) (hrefused : ¬ Accepts kind amountSat parsed)
      (hmatch : ∃ e ∈ rest, Matches py kind ref amountSat e) : Misleads (entry :: rest)
  /-- The first entry under the hash is accepted though the hash is empty or the amount was rounded, and none matches. -/
  | mistaken {entry : Json} {rest : List Json} {parsed : ActivityEntry}
      (hparse : parseActivityEntry py entry = .ok parsed) (hhash : parsed.paymentHash = ref)
      (haccepted : Accepts kind amountSat parsed)
      (hwhy : ref = "" ∨ exactAmount py ((unwrapEntry entry).getD "amount_sat" (.int 0)) ≠ some (parsed.amountSat : Rat))
      (hnone : ∀ e ∈ rest, ¬ Matches py kind ref amountSat e) : Misleads (entry :: rest)
  | later {entry : Json} {rest : List Json} (hskip : Skipped py ref entry) (hrest : Misleads rest) :
      Misleads (entry :: rest)

/-- Every entry can be read, and the loop accepts all the entries under the hash or, if none matches, none of them. -/
structure Unambiguous (entries : List Json) : Prop where
  readable : ∀ e ∈ entries, ∃ parsed, parseActivityEntry py e = .ok parsed
  accepted : (∃ e ∈ entries, Matches py kind ref amountSat e) → ∀ e ∈ entries, ∀ parsed,
    parseActivityEntry py e = .ok parsed → parsed.paymentHash = ref → Accepts kind amountSat parsed
  refused  : (∀ e ∈ entries, ¬ Matches py kind ref amountSat e) → ∀ e ∈ entries, ∀ parsed,
    parseActivityEntry py e = .ok parsed → parsed.paymentHash = ref → ¬ Accepts kind amountSat parsed

end

section

variable (w : WavelengthAdapter) (py : PyRuntime)

/-- `verify_receipt` and `verify_sender_settlement`, by the direction they look at. -/
def verify (env : WavecliEnv) : ActivityKind → PyStr → Int → Wavecli ReceiptVerifyResult
  | .recv => w.verifyReceipt py env
  | .send => w.verifySenderSettlement py env

/-- Verification over this answer of the wallet returns, and finds a payment exactly when some entry matches. -/
def SearchesExactly (kind : ActivityKind) (ref : PyStr) (amountSat : Int) (data : Json) : Prop :=
  ∀ env : WavecliEnv, env.executor (w.activityCmd kind.value) = .ok data →
    ∃ v, ((w.verify py env kind ref amountSat).run ()).result = .ok v ∧
      (v.verified = true ↔ ∃ e ∈ activityEntries data, Matches py kind ref amountSat e)

end

section

variable {w : WavelengthAdapter} {py : PyRuntime} {kind : ActivityKind} {ref : PyStr} {amountSat : Int} {entry : Json}

/-! ## Amounts -/

/-- An amount that is exactly an integer is read as that integer. -/
theorem toInt_of_exact {j : Json} {n : Int} (h : exactAmount py j = some (n : Rat)) : j.toInt py.decimal = .ok n := by
  cases j with
  | null => cases h
  | bool b =>
      have hb : (if b then 1 else 0 : Rat) = n := Option.some.inj h
      have hcast : ((if b then 1 else 0 : Int) : Rat) = n := by
        cases b <;> simpa using hb
      rw [← Rat.intCast_inj.mp hcast]
      rfl
  | int m =>
      rw [← Rat.intCast_inj.mp (Option.some.inj h)]
      rfl
  | float x => exact PyFloat.toInt_of_value h
  | str s =>
      show intOfText py.decimal s = .ok n
      have htext : (intOfText py.decimal s).toOption.map (fun k : Int => (k : Rat)) = some (n : Rat) := h
      cases hread : intOfText py.decimal s with
      | ok k =>
          rw [hread] at htext
          have hcast : (k : Rat) = n := Option.some.inj htext
          rw [Rat.intCast_inj.mp hcast]
      | error e =>
          rw [hread] at htext
          cases htext
  | arr _ | obj _ => cases h

theorem exact_intCast (kind : ActivityKind) (n : Int) : kind.exact (n : Rat) = (kind.amount n : Rat) := by
  unfold ActivityKind.exact ActivityKind.amount
  split
  · have habs : |(n : Rat)| = ((|n| : Int) : Rat) := (Int.cast_abs).symm
    rw [habs, Int.abs_eq_natAbs]
  · rfl

/-- An exact amount that a receipt states as an integer is an integer. -/
theorem exact_eq_intCast {q : Rat} (h : kind.exact q = amountSat) : ∃ n : Int, q = n ∧ kind.amount n = amountSat := by
  have hint : ∃ n : Int, q = n := by
    unfold ActivityKind.exact at h
    split at h
    · rcases abs_choice q with hq | hq
      · exact ⟨amountSat, hq ▸ h⟩
      · refine ⟨-amountSat, ?_⟩
        rw [hq] at h
        rw [Int.cast_neg, ← h, neg_neg]
    · exact ⟨amountSat, h⟩
  obtain ⟨n, rfl⟩ := hint
  rw [exact_intCast] at h
  exact ⟨n, rfl, Rat.intCast_inj.mp h⟩

/-! ## Reading one entry -/

variable {rest : List Json} {parsed : ActivityEntry}

/-- What a parsed entry says. -/
theorem parseActivityEntry_ok (h : parseActivityEntry py entry = .ok parsed) :
    parsed.paymentHash = extractPaymentHash (unwrapEntry entry) ∧
      parsed.status = activityStatus py ((unwrapEntry entry).getD "status" (.str "UNSPECIFIED")) ∧
      ((unwrapEntry entry).getD "amount_sat" (.int 0)).toInt py.decimal = .ok parsed.amountSat := by
  simp only [parseActivityEntry, bind_eq_ok, raiseIf_eq_ok, exists_const, not_not] at h
  obtain ⟨_, amount, hamount, _, _, hparsed⟩ := h
  obtain rfl := Except.ok.inj hparsed
  refine ⟨rfl, rfl, ?_⟩
  have hread : intOrRaise (((unwrapEntry entry).getD "amount_sat" (.int 0)).toInt py.decimal) = .ok amount := hamount
  exact intOrRaise_eq_ok.mp hread

/-- Only an entry that is no object is passed over as malformed. -/
theorem not_isDict_of_caught (h : Caught (parseActivityEntry py entry)) : entry.isDict = false := by
  obtain ⟨e, herror, hcaught⟩ := h
  by_contra hdict
  simp only [parseActivityEntry, bind_eq_error, raiseIf_eq_error] at herror
  rcases herror with ⟨hno, _⟩ | ⟨_, _, hamount | ⟨_, _, hfee | ⟨_, _, hnone⟩⟩⟩
  · exact hno (by simpa using hdict)
  · obtain ⟨m, rfl⟩ := intMember_undeclared hamount
    exact hcaught m rfl
  · obtain ⟨m, rfl⟩ := intMember_undeclared hfee
    exact hcaught m rfl
  · cases hnone

/-- An entry that the scan passes over does not match. -/
theorem not_matches_of_skipped (h : Skipped py ref entry) : ¬ Matches py kind ref amountSat entry := by
  intro hmatches
  rcases h with ⟨parsed, hparse, hne⟩ | hcaught
  · exact hne ((parseActivityEntry_ok hparse).1.trans hmatches.hash)
  · have hdict := not_isDict_of_caught hcaught
    have hempty : extractPaymentHash (unwrapEntry entry) = "" := by
      cases entry with
      | obj ms => cases hdict
      | null | bool _ | int _ | float _ | str _ | arr _ => rfl
    exact hmatches.ref_ne (hmatches.hash.symm.trans hempty)

/-- An entry that matches is accepted. -/
theorem Matches.accepts (h : Matches py kind ref amountSat entry) (hparse : parseActivityEntry py entry = .ok parsed) :
    Accepts kind amountSat parsed := by
  obtain ⟨_, hstatus, hamount⟩ := parseActivityEntry_ok hparse
  obtain ⟨q, hexact, hq⟩ := h.amount
  obtain ⟨n, rfl, hn⟩ := exact_eq_intCast hq
  rw [toInt_of_exact hexact] at hamount
  rw [Except.ok.inj hamount] at hn
  exact ⟨hstatus.trans h.status, hn⟩

/-- Why an entry under the hash that the loop accepts does not match. -/
theorem not_matches_iff (hparse : parseActivityEntry py entry = .ok parsed) (hhash : parsed.paymentHash = ref)
    (haccepted : Accepts kind amountSat parsed) : ¬ Matches py kind ref amountSat entry ↔
      ref = "" ∨ exactAmount py ((unwrapEntry entry).getD "amount_sat" (.int 0)) ≠ some (parsed.amountSat : Rat) := by
  obtain ⟨hextract, hstatus, hamount⟩ := parseActivityEntry_ok hparse
  constructor
  · intro hno
    by_contra hwhy
    obtain ⟨hne, hexact⟩ := not_or.mp hwhy
    refine hno ⟨hne, hextract.symm.trans hhash, hstatus.symm.trans haccepted.1, _, not_not.mp hexact, ?_⟩
    rw [exact_intCast, haccepted.2]
  · rintro hwhy hmatches
    rcases hwhy with hempty | hrounded
    · exact hmatches.ref_ne hempty
    · obtain ⟨q, hexact, hq⟩ := hmatches.amount
      obtain ⟨n, rfl, _⟩ := exact_eq_intCast hq
      rw [toInt_of_exact hexact] at hamount
      rw [Except.ok.inj hamount] at hexact
      exact hrounded hexact

/-! ## The scan -/

/-- What the scan makes of the first entry under the hash. -/
theorem verifyScan_at (hparse : parseActivityEntry py entry = .ok parsed) (hhash : parsed.paymentHash = ref) :
    ∃ v, verifyScan py kind ref amountSat (entry :: rest) = .ok v ∧
      (v.verified = true ↔ Accepts kind amountSat parsed) := by
  rw [verifyScan, hparse]
  simp only [hhash, ne_eq, not_true_eq_false, if_false]
  by_cases hstatus : parsed.status = "COMPLETE"
  swap
  · rw [if_pos hstatus]
    exact ⟨_, rfl, iff_of_false Bool.false_ne_true fun h => hstatus h.1⟩
  rw [if_neg (not_not.mpr hstatus)]
  by_cases hamount : kind.amount parsed.amountSat = amountSat
  · rw [if_neg (not_not.mpr hamount)]
    exact ⟨_, rfl, iff_of_true rfl ⟨hstatus, hamount⟩⟩
  · rw [if_pos hamount]
    exact ⟨_, rfl, iff_of_false Bool.false_ne_true fun h => hamount h.2⟩

/-- The scan raises at an entry with an amount or a fee that is no number. -/
theorem verifyScan_raised {m : String} (hparse : parseActivityEntry py entry = .error (.other m)) :
    verifyScan py kind ref amountSat (entry :: rest) = .error (.other m) := by
  rw [verifyScan, hparse]

theorem misleads_skip (h : Skipped py ref entry) :
    Misleads py kind ref amountSat (entry :: rest) ↔ Misleads py kind ref amountSat rest := by
  constructor
  · intro hmisleads
    cases hmisleads with
    | raised hparse =>
        rcases h with ⟨_, hok, _⟩ | ⟨_, herror, hcaught⟩
        · cases hparse.symm.trans hok
        · exact absurd (Except.error.inj (herror.symm.trans hparse)) (hcaught _)
    | masked hparse hhash _ _ | mistaken hparse hhash _ _ _ => exact absurd h (not_skipped hparse hhash)
    | later _ hrest => exact hrest
  · exact .later h

/-- How the first entry under the hash misleads. -/
theorem misleads_at (hparse : parseActivityEntry py entry = .ok parsed) (hhash : parsed.paymentHash = ref) :
    Misleads py kind ref amountSat (entry :: rest) ↔
      (¬ Accepts kind amountSat parsed ∧ ∃ e ∈ rest, Matches py kind ref amountSat e) ∨
      (Accepts kind amountSat parsed ∧ ¬ Matches py kind ref amountSat entry ∧
        ∀ e ∈ rest, ¬ Matches py kind ref amountSat e) := by
  constructor
  · intro hmisleads
    cases hmisleads with
    | raised herror => cases hparse.symm.trans herror
    | masked hparse' _ hrefused hmatch =>
        obtain rfl := Except.ok.inj (hparse.symm.trans hparse')
        exact .inl ⟨hrefused, hmatch⟩
    | mistaken hparse' _ haccepted hwhy hnone =>
        obtain rfl := Except.ok.inj (hparse.symm.trans hparse')
        exact .inr ⟨haccepted, (not_matches_iff hparse hhash haccepted).mpr hwhy, hnone⟩
    | later hskip _ => exact absurd hskip (not_skipped hparse hhash)
  · rintro (⟨hrefused, hmatch⟩ | ⟨haccepted, hno, hnone⟩)
    · exact .masked hparse hhash hrefused hmatch
    · exact .mistaken hparse hhash haccepted ((not_matches_iff hparse hhash haccepted).mp hno) hnone

theorem exists_matches_cons : (∃ e ∈ entry :: rest, Matches py kind ref amountSat e) ↔
    Matches py kind ref amountSat entry ∨ ∃ e ∈ rest, Matches py kind ref amountSat e := by
  simp only [List.mem_cons, exists_eq_or_imp]

/-- **The scan finds exactly what is there**, unless the entries mislead it. -/
theorem scans_exactly_iff (entries : List Json) :
    (∃ v, verifyScan py kind ref amountSat entries = .ok v ∧
      (v.verified = true ↔ ∃ e ∈ entries, Matches py kind ref amountSat e)) ↔
      ¬ Misleads py kind ref amountSat entries := by
  induction entries with
  | nil =>
      refine iff_of_true ⟨_, rfl, iff_of_false nofun ?_⟩ nofun
      rintro ⟨_, hmem, _⟩
      cases hmem
  | cons entry rest ih =>
      by_cases hskip : Skipped py ref entry
      · rw [verifyScan_skip hskip, misleads_skip hskip, ← ih, exists_matches_cons,
          or_iff_right (not_matches_of_skipped hskip)]
      cases hparse : parseActivityEntry py entry with
      | error e =>
          cases e with
          | other m =>
              rw [verifyScan_raised hparse]
              refine iff_of_false ?_ (not_not.mpr (.raised hparse))
              rintro ⟨_, hv, _⟩
              cases hv
          | adapterError m | ambiguousResult m => exact absurd (.inr ⟨_, hparse, nofun⟩) hskip
      | ok parsed =>
          have hhash : parsed.paymentHash = ref := by
            by_contra hne
            exact hskip (.inl ⟨parsed, hparse, hne⟩)
          obtain ⟨v, hv, hverified⟩ : ∃ v, verifyScan py kind ref amountSat (entry :: rest) = .ok v ∧
              (v.verified = true ↔ Accepts kind amountSat parsed) := verifyScan_at hparse hhash
          have hreturns {P : Prop} : (∃ v, verifyScan py kind ref amountSat (entry :: rest) = .ok v ∧
              (v.verified = true ↔ P)) ↔ (Accepts kind amountSat parsed ↔ P) := by
            rw [← hverified]
            constructor
            · rintro ⟨v', hv', h⟩
              obtain rfl := Except.ok.inj (hv.symm.trans hv')
              exact h
            · intro h
              exact ⟨v, hv, h⟩
          rw [hreturns, misleads_at hparse hhash, exists_matches_cons]
          by_cases haccepted : Accepts kind amountSat parsed
          · -- an accepted entry is right when it matches, or a later one does
            simp only [haccepted, not_true_eq_false, false_and, false_or, true_and, true_iff, not_and, not_forall,
              not_not]
            constructor
            · rintro (hentry | ⟨e, he, hmatch⟩) hno
              · exact absurd hentry hno
              · exact ⟨e, he, hmatch⟩
            · intro h
              by_cases hentry : Matches py kind ref amountSat entry
              · exact .inl hentry
              · obtain ⟨e, he, hmatch⟩ := h hentry
                exact .inr ⟨e, he, hmatch⟩
          · -- a refused entry is right when no later one matches
            have hentry : ¬ Matches py kind ref amountSat entry := fun h => haccepted (h.accepts hparse)
            simp only [haccepted, hentry, not_false_eq_true, true_and, false_and, or_false, false_or, false_iff]

/-! ## Every order of the entries -/

theorem Unambiguous.perm {entries entries' : List Json} (h : Unambiguous py kind ref amountSat entries)
    (hperm : entries'.Perm entries) : Unambiguous py kind ref amountSat entries' := by
  have hmem {e : Json} : e ∈ entries' ↔ e ∈ entries := hperm.mem_iff
  constructor
  · intro e he
    exact h.readable e (hmem.mp he)
  · rintro ⟨e₀, he₀, hmatch⟩ e he
    exact h.accepted ⟨e₀, hmem.mp he₀, hmatch⟩ e (hmem.mp he)
  · intro hnone e he
    exact h.refused (fun e₀ he₀ => hnone e₀ (hmem.mpr he₀)) e (hmem.mp he)

theorem Unambiguous.tail (h : Unambiguous py kind ref amountSat (entry :: rest)) (hskip : Skipped py ref entry) :
    Unambiguous py kind ref amountSat rest := by
  constructor
  · intro e he
    exact h.readable e (List.mem_cons_of_mem _ he)
  · rintro ⟨e₀, he₀, hmatch⟩ e he
    exact h.accepted ⟨e₀, List.mem_cons_of_mem _ he₀, hmatch⟩ e (List.mem_cons_of_mem _ he)
  · intro hnone e he
    refine h.refused ?_ e (List.mem_cons_of_mem _ he)
    intro e₀ he₀
    rcases List.mem_cons.mp he₀ with rfl | he₀
    · exact not_matches_of_skipped hskip
    · exact hnone e₀ he₀

/-- An unambiguous list does not mislead. -/
theorem Unambiguous.not_misleads {entries : List Json} (h : Unambiguous py kind ref amountSat entries) :
    ¬ Misleads py kind ref amountSat entries := by
  intro hmisleads
  induction hmisleads with
  | raised hparse =>
      obtain ⟨_, hok⟩ := h.readable _ List.mem_cons_self
      cases hparse.symm.trans hok
  | masked hparse hhash hrefused hmatch =>
      obtain ⟨e, he, hmatch⟩ := hmatch
      exact hrefused (h.accepted ⟨e, List.mem_cons_of_mem _ he, hmatch⟩ _ List.mem_cons_self _ hparse hhash)
  | mistaken hparse hhash haccepted hwhy hnone =>
      refine h.refused ?_ _ List.mem_cons_self _ hparse hhash haccepted
      intro e he
      rcases List.mem_cons.mp he with rfl | he
      · exact (not_matches_iff hparse hhash haccepted).mpr hwhy
      · exact hnone e he
  | later hskip _ ih => exact ih (h.tail hskip)

/-- **No order of the entries misleads** exactly when they are unambiguous. -/
theorem not_misleads_perm_iff {entries : List Json} (hdict : ∀ e ∈ entries, e.isDict = true) :
    (∀ entries', entries'.Perm entries → ¬ Misleads py kind ref amountSat entries') ↔
      Unambiguous py kind ref amountSat entries := by
  constructor
  swap
  · intro h entries' hperm
    exact (h.perm hperm).not_misleads
  intro h
  -- any entry may come first
  have hfirst {e : Json} (he : e ∈ entries) :
      ∃ rest, (∀ e', e' ∈ entries ↔ e' = e ∨ e' ∈ rest) ∧ ¬ Misleads py kind ref amountSat (e :: rest) := by
    obtain ⟨before, after, rfl⟩ := List.append_of_mem he
    have hperm : (e :: (before ++ after)).Perm (before ++ e :: after) := List.perm_middle.symm
    exact ⟨before ++ after, fun e' => hperm.symm.mem_iff.trans List.mem_cons, h _ hperm⟩
  constructor
  · intro e he
    obtain ⟨rest, _, hno⟩ := hfirst he
    cases hparse : parseActivityEntry py e with
    | ok parsed => exact ⟨parsed, rfl⟩
    | error x =>
        cases x with
        | other m => exact absurd (.raised hparse) hno
        | adapterError m | ambiguousResult m =>
            have hother := not_isDict_of_caught ⟨_, hparse, nofun⟩
            rw [hdict e he] at hother
            cases hother
  · rintro ⟨e₀, he₀, hmatch⟩ e he parsed hparse hhash
    obtain ⟨rest, hmem, hno⟩ := hfirst he
    by_contra hrefused
    rcases (hmem e₀).mp he₀ with rfl | he₀
    · exact hrefused (hmatch.accepts hparse)
    · exact hno (.masked hparse hhash hrefused ⟨e₀, he₀, hmatch⟩)
  · intro hnone e he parsed hparse hhash haccepted
    obtain ⟨rest, hmem, hno⟩ := hfirst he
    have hwhy := (not_matches_iff hparse hhash haccepted).mp (hnone e he)
    exact hno (.mistaken hparse hhash haccepted hwhy fun e' he' => hnone e' ((hmem e').mpr (.inr he')))

/-- Every activity entry is an object. -/
theorem isDict_activityEntries (data : Json) : ∀ e ∈ activityEntries data, e.isDict = true := by
  intro e he
  unfold activityEntries at he
  split at he
  · exact (List.mem_filter.mp he).2
  · simp only at he
    split at he
    · obtain rfl := List.mem_singleton.mp he
      rfl
    · exact (List.mem_filter.mp he).2
    · cases he
  · cases he

/-- Objects in any order are the activity entries of some answer. -/
theorem activityEntries_arr {entries : List Json} (h : ∀ e ∈ entries, e.isDict = true) :
    activityEntries (.arr entries) = entries :=
  List.filter_eq_self.mpr h

/-- What verification answers, in either direction. -/
theorem result_verify (env : WavecliEnv) (kind : ActivityKind) (ref : PyStr) (amountSat : Int) :
    ((w.verify py env kind ref amountSat).run ()).result
      = verifyAnswer py kind ref amountSat (env.executor (w.activityCmd kind.value)) := by
  cases kind with
  | recv | send => exact result_verifyActivity _ ref amountSat

theorem searchesExactly_iff {data : Json} :
    SearchesExactly w py kind ref amountSat data ↔ ¬ Misleads py kind ref amountSat (activityEntries data) := by
  rw [← scans_exactly_iff]
  have hanswer {env : WavecliEnv} (h : env.executor (w.activityCmd kind.value) = .ok data) :
      ((w.verify py env kind ref amountSat).run ()).result
        = verifyScan py kind ref amountSat (activityEntries data) := by
    rw [result_verify, h, verifyAnswer]
  constructor
  · intro h
    have hrun := h ⟨0, fun _ => .ok data⟩ rfl
    rwa [hanswer rfl] at hrun
  · intro h env henv
    rw [hanswer henv]
    exact h

end

end WavelengthAdapter

namespace Sample

/-- A send that failed, and was then repeated. -/
def retriedActivity : Json :=
  .arr [.obj [("payment_hash", .str "aa"), ("status", .str "FAILED"), ("amount_sat", .int (-1000))],
    .obj [("payment_hash", .str "aa"), ("status", .str "COMPLETE"), ("amount_sat", .int (-1000))]]

end Sample

end HermesPayments
