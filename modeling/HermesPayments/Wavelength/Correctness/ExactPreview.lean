import Mathlib.Algebra.Order.Ring.Cast
import Mathlib.Algebra.Order.Ring.Rat
import HermesPayments.Wavelength.Runs

/-!
# `HermesPayments.Wavelength.Correctness.ExactPreview` — what a preview says, and what `prepare` reads

The daemon writes its numbers as JSON numbers or as texts. `prepare` turns each into an integer before it compares it
with the quote and the fee cap, and takes any truthy flag. So what it returns is what the response says, exactly when
every response it accepts is plain (`prepares_exactly_iff`): its numbers are whole, its fee is not negative, and its
flags are truth values.
-/

namespace HermesPayments

open Lib

namespace WavelengthAdapter

/-! ## Numbers as written -/

/-- The value of a decimal text. -/
def decimalValue (decimal : Char → Option Nat) (text : List Char) : Rat :=
  let (sign, unsigned) := Literal.scanSign text
  let fraction := (unsigned.dropWhile (· ≠ '.')).drop 1
  let digits := (unsigned.takeWhile (· ≠ '.') ++ fraction).filterMap decimal
  let value : Rat := (digits.foldl (fun value d => value * 10 + d) 0 : Nat) / 10 ^ fraction.length
  if sign = ['-'] then -value else value

/-- A text without the space around it. -/
def trimmed (s : PyStr) : List Char := stripWhere spaceChar (s.chars '?')

section

variable (py : PyRuntime)

/-- The exact value of a number of the response: a JSON number, or a text of an integer or of a decimal. -/
def exactNumber : Json → Option Rat
  | .int n   => some n
  | .float x => x.value
  | .str s   =>
      if isIntegerText py (trimmed s) then
        (intOfText py.decimal (String.ofList (trimmed s))).toOption.map (fun n : Int => (n : Rat))
      else if isDecimalText py (trimmed s) then some (decimalValue py.decimal (trimmed s))
      else none
  | _        => none

/-- A number that is an integer as written, and that `float` does not change. -/
inductive Whole : Json → Prop
  | int (n : Int) : Whole (.int n)
  | float {x : PyFloat} {n : Int} (hvalue : x.value = some (n : Rat)) : Whole (.float x)
  | integerText {s : PyStr} (htext : isIntegerText py (trimmed s) = true) : Whole (.str s)
  | decimalText {s : PyStr} {n : Int} (hinteger : isIntegerText py (trimmed s) = false)
      (htext : isDecimalText py (trimmed s) = true) (hvalue : decimalValue py.decimal (trimmed s) = n)
      (hread : (py.readFloat (String.ofList (trimmed s))).toInt = .ok n) : Whole (.str s)

/-- A number of the response, zero by default. -/
def number (data : Json) (key : String) : Json := data.getD key (.int 0)

/-- What is returned is what the response says: amount, fee and outflow exactly, all of it known and in time. -/
structure ExactPreview (env : WavecliEnv) (data : Json) (amountSat maxFeeSat : Int) (prep : PrepareResult) : Prop where
  amount       : exactNumber py (number data "amount_sat") = some (amountSat : Rat)
  fee          : exactNumber py (number data "expected_fee_sat") = some (prep.feeSat : Rat)
  fee_nonneg   : 0 ≤ prep.feeSat
  fee_capped   : prep.feeSat ≤ maxFeeSat
  outflow      : exactNumber py (number data "expected_total_outflow_sat") = some ((amountSat : Rat) + prep.feeSat)
  feeKnown     : data.getD "fee_known" (.bool false) = .bool true
  outflowKnown : data.getD "total_outflow_known" (.bool false) = .bool true
  token        : (data.getD "send_intent_id" (.str "")).truthy = true
  paymentHash  : ∃ ref, data.getD "payment_hash" (.str "") = .str ref ∧ ref ≠ ""
  unexpired    : ∃ t, exactNumber py (number data "expires_at_unix") = some t ∧ (env.now : Rat) < t
  payload      : ∃ decoded, (Utf8.decode prep.preparedPayload).bind (Json.loads py.readFloat) = some decoded ∧
    ∀ keys ∈ [("amount_sat", "amount_sat"), ("fee_sat", "expected_fee_sat"),
      ("total_outflow_sat", "expected_total_outflow_sat"), ("expires_at_unix", "expires_at_unix")],
      ∃ n : Int, decoded.get? keys.1 = some (.int n) ∧ exactNumber py (number data keys.2) = some (n : Rat)

/-- The response says everything plainly. -/
structure Plain (data : Json) : Prop where
  whole        : ∀ key ∈ ["amount_sat", "expected_fee_sat", "expected_total_outflow_sat", "expires_at_unix"],
    Whole py (number data key)
  fee_nonneg   : ∀ q, exactNumber py (number data "expected_fee_sat") = some q → 0 ≤ q
  feeKnown     : data.getD "fee_known" (.bool false) = .bool true
  outflowKnown : data.getD "total_outflow_known" (.bool false) = .bool true

variable (w : WavelengthAdapter) (env : WavecliEnv) (instruction : RailReceiveInstruction) (amountSat maxFeeSat : Int)

/-- The wallet previews the invoice with this response, which passes every check. -/
def AcceptsPreview (data : Json) : Prop :=
  instruction.invoice.getD "" ≠ "" ∧
    env.executor (w.prepareCmd (instruction.invoice.getD "") maxFeeSat) = .ok data ∧
    ∃ p, parsePrepareResponse py data = .ok p ∧ checkPreview env amountSat maxFeeSat p = .ok ()

/-- `prepare` returns only what the response says. -/
def PreparesExactly : Prop :=
  ∀ prep, ((w.prepare py env instruction amountSat maxFeeSat).run ()).result = .ok prep →
    ∃ data, env.executor (w.prepareCmd (instruction.invoice.getD "") maxFeeSat) = .ok data ∧
      ExactPreview py env data amountSat maxFeeSat prep

end

section

variable {py : PyRuntime} {w : WavelengthAdapter} {env : WavecliEnv} {instruction : RailReceiveInstruction}
  {amountSat maxFeeSat : Int} {data : Json}

/-! ## One number -/

/-- What becomes of a number of the response. -/
def Reads (py : PyRuntime) (j : Json) (n : Int) : Prop :=
  ∃ field x, coerceNumeric py j field = .ok x ∧ x.toInt = .ok n

theorem reads_integerText {s : PyStr} {n : Int} (h : Reads py (.str s) n)
    (hinteger : isIntegerText py (trimmed s) = true) : intOfText py.decimal (String.ofList (trimmed s)) = .ok n := by
  obtain ⟨field, x, hcoerce, hint⟩ := h
  have hx : (intOrRaise (intOfText py.decimal (String.ofList (trimmed s)))).map Numeric.int = .ok x := by
    rw [← hcoerce]
    exact (if_pos hinteger).symm
  cases hread : intOfText py.decimal (String.ofList (trimmed s)) with
  | ok m =>
      rw [hread] at hx
      obtain rfl := Except.ok.inj hx
      exact congrArg Except.ok (Except.ok.inj hint)
  | error e =>
      rw [hread] at hx
      cases hx

theorem reads_decimalText {s : PyStr} {n : Int} (h : Reads py (.str s) n)
    (hinteger : isIntegerText py (trimmed s) = false) :
    isDecimalText py (trimmed s) = true ∧ (py.readFloat (String.ofList (trimmed s))).toInt = .ok n := by
  obtain ⟨field, x, hcoerce, hint⟩ := h
  have hx : (if isDecimalText py (trimmed s) then .ok (.float (py.readFloat (String.ofList (trimmed s))))
      else .error (.adapterError s!"unexpected {field} type: {(Json.str s).typeName}") : Except AdapterExc Numeric)
      = .ok x := by
    rw [← hcoerce]
    exact (if_neg (ne_true_of_eq_false hinteger)).symm
  split at hx
  · next htext =>
      obtain rfl := Except.ok.inj hx
      exact ⟨htext, intOrRaise_eq_ok.mp hint⟩
  · cases hx

/-- **A number is read as written** exactly when it is whole. -/
theorem Reads.exact_iff {j : Json} {n : Int} (h : Reads py j n) : exactNumber py j = some (n : Rat) ↔ Whole py j := by
  cases j with
  | int m =>
      obtain ⟨_, _, hcoerce, hint⟩ := h
      obtain rfl := Except.ok.inj hcoerce
      have hm : m = n := Except.ok.inj hint
      exact iff_of_true (by rw [hm]; rfl) (.int m)
  | float x =>
      obtain ⟨_, _, hcoerce, hint⟩ := h
      obtain rfl := Except.ok.inj hcoerce
      have hread : x.toInt = .ok n := intOrRaise_eq_ok.mp hint
      constructor
      · exact .float
      · intro hwhole
        cases hwhole with
        | float hvalue =>
            obtain rfl := Except.ok.inj (hread.symm.trans (PyFloat.toInt_of_value hvalue))
            exact hvalue
  | str s =>
      unfold exactNumber
      cases hinteger : isIntegerText py (trimmed s) with
      | true =>
          refine iff_of_true ?_ (.integerText hinteger)
          simp only [hinteger, if_true, reads_integerText h hinteger]
          rfl
      | false =>
          obtain ⟨htext, hread⟩ := reads_decimalText h hinteger
          simp only [hinteger, htext, Bool.false_eq_true, if_false, if_true, Option.some.injEq]
          constructor
          · intro hvalue
            exact .decimalText hinteger htext hvalue hread
          · intro hwhole
            cases hwhole with
            | integerText hyes => cases hinteger.symm.trans hyes
            | decimalText _ _ hvalue hread' =>
                obtain rfl := Except.ok.inj (hread.symm.trans hread')
                exact hvalue
  | null | bool _ | arr _ | obj _ =>
      obtain ⟨_, _, hcoerce, _⟩ := h
      cases hcoerce

/-! ## One response -/

/-- What a parsed response says, member by member. -/
structure Parsed (py : PyRuntime) (data : Json) (p : Preview) : Prop where
  amount       : Reads py (number data "amount_sat") p.amountSat
  fee          : Reads py (number data "expected_fee_sat") p.expectedFeeSat
  outflow      : Reads py (number data "expected_total_outflow_sat") p.expectedTotalOutflowSat
  expires      : Reads py (number data "expires_at_unix") p.expiresAtUnix
  token        : (data.getD "send_intent_id" (.str "")).truthy = true
  paymentHash  : ∃ ref, data.getD "payment_hash" (.str "") = .str ref ∧ ref ≠ ""

theorem parsePrepareResponse_parsed {p : Preview} (h : parsePrepareResponse py data = .ok p) : Parsed py data p := by
  have hhashIs := (parsePrepareResponse_members h).2
  simp only [parsePrepareResponse, bind_eq_ok, raiseIf_eq_ok, exists_const, not_not] at h
  obtain ⟨_, htoken, expires, hexpires, fee, hfee, _, outflow, houtflow, _, hhash, amount, hamount, a, ha, f, hf, o, ho,
    e, he, hp⟩ := h
  obtain rfl := Except.ok.inj hp
  exact ⟨⟨_, _, hamount, ha⟩, ⟨_, _, hfee, hf⟩, ⟨_, _, houtflow, ho⟩, ⟨_, _, hexpires, he⟩, htoken, _, hhashIs, hhash⟩

/-- The numbers that the payload of a preview holds. -/
theorem payload_numbers (p : Preview) (invoice : String) (maxFeeSat : Int) :
    (decodedPayload py p invoice maxFeeSat).get? "amount_sat" = some (.int p.amountSat) ∧
      (decodedPayload py p invoice maxFeeSat).get? "fee_sat" = some (.int p.expectedFeeSat) ∧
      (decodedPayload py p invoice maxFeeSat).get? "total_outflow_sat" = some (.int p.expectedTotalOutflowSat) ∧
      (decodedPayload py p invoice maxFeeSat).get? "expires_at_unix" = some (.int p.expiresAtUnix) := by
  simp only [get?_decodedPayload]
  exact ⟨rfl, rfl, rfl, rfl⟩

/-- **What is returned for a response is exact** when the response is plain, and only then. -/
theorem exactPreview_iff {p : Preview} (invoice : String) (hparse : parsePrepareResponse py data = .ok p)
    (hcheck : checkPreview env amountSat maxFeeSat p = .ok ()) :
    ExactPreview py env data amountSat maxFeeSat (previewed py p invoice maxFeeSat) ↔ Plain py data := by
  have hparsed := parsePrepareResponse_parsed hparse
  obtain ⟨hunexpired, hamount, hcap, houtflow⟩ := checkPreview_eq_ok.mp hcheck
  have hloads := loads_preparedPayload py p invoice maxFeeSat
  obtain ⟨hamountIn, hfeeIn, houtflowIn, hexpiresIn⟩ := @payload_numbers py p invoice maxFeeSat
  have htotal : ((p.expectedTotalOutflowSat : Int) : Rat) = (amountSat : Rat) + p.expectedFeeSat := by
    rw [houtflow, hamount, Int.cast_add]
  constructor
  · intro hexact
    have hfee : exactNumber py (number data "expected_fee_sat") = some (p.expectedFeeSat : Rat) := hexact.fee
    have houtflow' : exactNumber py (number data "expected_total_outflow_sat") = some (p.expectedTotalOutflowSat : Rat) :=
      hexact.outflow.trans (congrArg some htotal.symm)
    have hexpires : exactNumber py (number data "expires_at_unix") = some (p.expiresAtUnix : Rat) := by
      obtain ⟨decoded, hdecoded, hnumbers⟩ := hexact.payload
      obtain rfl := Option.some.inj (hloads.symm.trans hdecoded)
      obtain ⟨n, hn, hexpires⟩ := hnumbers ("expires_at_unix", "expires_at_unix") (by simp)
      obtain rfl := Json.int.inj (Option.some.inj (hexpiresIn.symm.trans hn))
      exact hexpires
    refine ⟨?_, ?_, hexact.feeKnown, hexact.outflowKnown⟩
    · intro key hkey
      simp only [List.mem_cons, List.not_mem_nil, or_false] at hkey
      rcases hkey with rfl | rfl | rfl | rfl
      · exact hparsed.amount.exact_iff.mp (hexact.amount.trans (by rw [hamount]))
      · exact hparsed.fee.exact_iff.mp hfee
      · exact hparsed.outflow.exact_iff.mp houtflow'
      · exact hparsed.expires.exact_iff.mp hexpires
    · intro q hq
      obtain rfl := Option.some.inj (hfee.symm.trans hq)
      exact Int.cast_nonneg hexact.fee_nonneg
  · intro hplain
    have hamount' := hparsed.amount.exact_iff.mpr (hplain.whole _ (by simp))
    have hfee := hparsed.fee.exact_iff.mpr (hplain.whole _ (by simp))
    have houtflow' := hparsed.outflow.exact_iff.mpr (hplain.whole _ (by simp))
    have hexpires := hparsed.expires.exact_iff.mpr (hplain.whole _ (by simp))
    refine ⟨hamount'.trans (by rw [hamount]), hfee, ?_, hcap, houtflow'.trans (congrArg some htotal), hplain.feeKnown,
      hplain.outflowKnown, hparsed.token, hparsed.paymentHash, ⟨_, hexpires, Int.cast_lt.mpr hunexpired⟩,
      _, hloads, ?_⟩
    · exact Int.cast_nonneg_iff.mp (hplain.fee_nonneg _ hfee)
    · intro keys hkeys
      simp only [List.mem_cons, List.not_mem_nil, or_false] at hkeys
      rcases hkeys with rfl | rfl | rfl | rfl
      · exact ⟨_, hamountIn, hamount'⟩
      · exact ⟨_, hfeeIn, hfee⟩
      · exact ⟨_, houtflowIn, houtflow'⟩
      · exact ⟨_, hexpiresIn, hexpires⟩

end

/-- **`prepare` returns only what the response says** exactly when every response it accepts is plain. -/
theorem prepares_exactly_iff (w : WavelengthAdapter) (py : PyRuntime) (env : WavecliEnv)
    (instruction : RailReceiveInstruction) (amountSat maxFeeSat : Int) :
    PreparesExactly py w env instruction amountSat maxFeeSat ↔
      ∀ data, AcceptsPreview py w env instruction amountSat maxFeeSat data → Plain py data := by
  constructor
  · rintro hexactly data ⟨hinvoice, hanswer, p, hparse, hcheck⟩
    obtain ⟨data', hanswer', hexact⟩ :=
      hexactly _ (prepare_returns_iff.mpr ⟨hinvoice, data, p, hanswer, hparse, hcheck, rfl⟩)
    obtain rfl := Except.ok.inj (hanswer.symm.trans hanswer')
    exact (exactPreview_iff _ hparse hcheck).mp hexact
  · intro hplain prep hreturns
    obtain ⟨hinvoice, data, p, hanswer, hparse, hcheck, rfl⟩ := prepare_returns_iff.mp hreturns
    exact ⟨data, hanswer, (exactPreview_iff _ hparse hcheck).mpr
      (hplain data ⟨hinvoice, hanswer, p, hparse, hcheck⟩)⟩

end WavelengthAdapter

namespace Sample

/-- A preview with a fee of 10.5 sat. -/
def fractionalResponse : Json := .obj [("send_intent_id", .str "si-1"), ("amount_sat", .int 1000),
  ("expected_fee_sat", .float (.finite ⟨21, 2, by decide, by decide⟩ "10.5" rfl)), ("fee_known", .bool true),
  ("expected_total_outflow_sat", .float (.finite ⟨2021, 2, by decide, by decide⟩ "1010.5" rfl)), ("total_outflow_known", .bool true),
  ("rail", .str "LIGHTNING"), ("payment_hash", .str "aa"), ("expires_at_unix", .int 100)]

end Sample

/-- A fee of 10.5 sat passes a cap of 10 sat. -/
theorem WavelengthAdapter.fraction_cut_off : ¬ PreparesExactly Sample.py Sample.wavelength
    ⟨0, fun _ => .ok Sample.fractionalResponse⟩ ⟨.LIGHTNING, some "invoice A"⟩ 1000 10 := by
  intro hexactly
  have hparse : parsePrepareResponse Sample.py Sample.fractionalResponse
      = .ok ⟨.str "si-1", 1000, 10, true, 1010, true, "LIGHTNING", "aa", 100, .str ""⟩ := rfl
  have hinvoice : (some "invoice A").getD "" ≠ "" := by decide
  obtain ⟨data, hanswer, hexact⟩ :=
    hexactly _ (prepare_returns_iff.mpr ⟨hinvoice, _, _, rfl, hparse, rfl, rfl⟩)
  obtain rfl := Except.ok.inj hanswer
  have hfee : (⟨21, 2, by decide, by decide⟩ : Rat) = (10 : Int) := Option.some.inj hexact.fee
  exact absurd hfee (by decide)

end HermesPayments
