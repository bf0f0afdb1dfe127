import HermesPayments.Models.Canonical

/-!
# `HermesPayments.Models.Injective` — the canonical bytes of all four message types

No type tag goes into the canonical bytes. What tells the types apart is that each has a member the other three lack
(`DomainMessage.mark`); within a type, every field but the id is a member, so equal bytes are equal content
(`canonicalBytes_eq_iff`).
-/

namespace HermesPayments

open Lib

/-! ## The four messages as one type -/

inductive DomainMessage where
  | intent (m : PaymentIntent)
  | quote (m : PaymentQuote)
  | approval (m : PaymentApproval)
  | receipt (m : PaymentReceipt)
deriving DecidableEq

namespace DomainMessage

def id : DomainMessage → String
  | intent m   => m.id
  | quote m    => m.id
  | approval m => m.id
  | receipt m  => m.id

def modelDump : DomainMessage → Json
  | intent m   => m.modelDump
  | quote m    => m.modelDump
  | approval m => m.modelDump
  | receipt m  => m.modelDump

/-- Two messages of one type that agree on every field but the id. -/
def SameContent : DomainMessage → DomainMessage → Prop
  | intent a, intent b     => { a with id := b.id } = b
  | quote a, quote b       => { a with id := b.id } = b
  | approval a, approval b => { a with id := b.id } = b
  | receipt a, receipt b   => { a with id := b.id } = b
  | _, _ => False

/-- A required member that only this type has. -/
def mark : DomainMessage → String
  | intent _   => "idempotency_key"
  | quote _    => "fee_constraint"
  | approval _ => "prepared_hash"
  | receipt _  => "settlement_ref"

end DomainMessage

/-! ## The types are told apart -/

/-- What a dumped object shows once it is read back. -/
theorem get?_readBack {fields : List (String × Option Json)} (hkeys : (fields.map Prod.fst).Nodup) (k : String) :
    (readBack (Json.members fields)).get? k = ((fields.lookup k).join).map readBack :=
  (Json.carries_reread _ _).get?_members hkeys k

/-- A message shows its own mark and no other. -/
theorem DomainMessage.mark_shown (m m' : DomainMessage) :
    ((readBack m.modelDump).get? m'.mark).isSome = decide (m.mark = m'.mark) := by
  cases m with
  | intent m =>
      rw [modelDump, PaymentIntent.modelDump, get?_readBack (by simp)]
      cases m' <;> simp [mark, List.lookup_cons]
  | quote m =>
      rw [modelDump, PaymentQuote.modelDump, get?_readBack (by simp)]
      cases m' <;> simp [mark, List.lookup_cons]
  | approval m =>
      rw [modelDump, PaymentApproval.modelDump, get?_readBack (by simp)]
      cases m' <;> simp [mark, List.lookup_cons]
  | receipt m =>
      rw [modelDump, PaymentReceipt.modelDump, get?_readBack (by simp)]
      cases m' <;> simp [mark, List.lookup_cons]

theorem DomainMessage.mark_eq {m m' : DomainMessage} (h : readBack m.modelDump = readBack m'.modelDump) :
    m.mark = m'.mark := by
  have hown := mark_shown m' m'
  rw [← h, mark_shown, decide_eq_decide] at hown
  exact hown.mpr rfl

/-! ## Within a type -/

/-- There is one rail. -/
theorem Rail.only (a b : Rail) : a = b := by
  cases a
  cases b
  rfl

theorem RailReceiveInstruction.modelDump_inj {a b : RailReceiveInstruction}
    (h : readBack a.modelDump = readBack b.modelDump) : a = b := by
  have hinvoice := field_eq (by simp) (by simp) h "invoice"
  simp only [List.lookup_cons, String.reduceBEq, Option.join_some] at hinvoice
  have hrail : a.rail = b.rail := Rail.only _ _
  have hinvoice := map_str_inj hinvoice
  cases a
  cases b
  simp_all

theorem FeeConstraint.value_inj {a b : FeeConstraint} (h : a.value = b.value) : a = b := by
  cases a <;> cases b <;> simp_all [FeeConstraint.value]

theorem PaymentIntent.content_eq {a b : PaymentIntent} (h : canonicalBytes a.modelDump = canonicalBytes b.modelDump) :
    { a with id := b.id } = b := by
  obtain ⟨⟨hsender, hrecipient, hamount, hpurpose, hkey⟩, ⟨hfee, hexpires, hcreated⟩⟩ := canonicalBytes_inj h
  cases a
  cases b
  simp_all

theorem PaymentQuote.content_eq {a b : PaymentQuote} (h : canonicalBytes a.modelDump = canonicalBytes b.modelDump) :
    { a with id := b.id } = b := by
  have hfield := field_eq (by simp) (by simp) (readBack_eq_of_canonicalBytes h)
  have hintent : a.intentId = b.intentId := by simpa [List.lookup_cons] using hfield "intent_id"
  have hquote : a.quoteId = b.quoteId := by simpa [List.lookup_cons] using hfield "quote_id"
  have hrecipient : a.recipient = b.recipient := AgentIdentity.modelDump_inj (by simpa [List.lookup_cons] using hfield "recipient")
  have hinstruction : a.receiveInstruction = b.receiveInstruction := RailReceiveInstruction.modelDump_inj (by simpa [List.lookup_cons] using hfield "receive_instruction")
  have hfee : a.feeSat = b.feeSat := by simpa [List.lookup_cons] using hfield "fee_sat"
  have hconstraint : a.feeConstraint = b.feeConstraint := FeeConstraint.value_inj (by simpa [List.lookup_cons] using hfield "fee_constraint")
  have hexpires : a.expiresAt = b.expiresAt := by simpa [List.lookup_cons] using hfield "expires_at"
  have hcreated : a.createdAt = b.createdAt := by simpa [List.lookup_cons] using hfield "created_at"
  cases a
  cases b
  simp_all

theorem PaymentApproval.content_eq {a b : PaymentApproval}
    (h : canonicalBytes a.modelDump = canonicalBytes b.modelDump) : { a with id := b.id } = b := by
  have hfield := field_eq (by simp) (by simp) (readBack_eq_of_canonicalBytes h)
  have hintent : a.intentId = b.intentId := by simpa [List.lookup_cons] using hfield "intent_id"
  have hquote : a.quoteId = b.quoteId := by simpa [List.lookup_cons] using hfield "quote_id"
  have hhash : a.preparedHash = b.preparedHash := by simpa [List.lookup_cons] using hfield "prepared_hash"
  have happrover : a.approver = b.approver := AgentIdentity.modelDump_inj (by simpa [List.lookup_cons] using hfield "approver")
  have hcreated : a.createdAt = b.createdAt := by simpa [List.lookup_cons] using hfield "created_at"
  cases a
  cases b
  simp_all

theorem PaymentReceipt.content_eq {a b : PaymentReceipt}
    (h : canonicalBytes a.modelDump = canonicalBytes b.modelDump) : { a with id := b.id } = b := by
  have hfield := field_eq (by simp) (by simp) (readBack_eq_of_canonicalBytes h)
  have hintent : a.intentId = b.intentId := by simpa [List.lookup_cons] using hfield "intent_id"
  have hquote : a.quoteId = b.quoteId := by simpa [List.lookup_cons] using hfield "quote_id"
  have hrecipient : a.recipient = b.recipient := AgentIdentity.modelDump_inj (by simpa [List.lookup_cons] using hfield "recipient")
  have href : a.settlementRef = b.settlementRef := by simpa [List.lookup_cons] using hfield "settlement_ref"
  have hamount : a.amountSat = b.amountSat := by simpa [List.lookup_cons] using hfield "amount_sat"
  have hfee : a.feeSat = b.feeSat := by simpa [List.lookup_cons] using hfield "fee_sat"
  have hsettled : a.settledAt = b.settledAt := by simpa [List.lookup_cons] using hfield "settled_at"
  have hcreated : a.createdAt = b.createdAt := by simpa [List.lookup_cons] using hfield "created_at"
  have hrail : a.rail = b.rail := Rail.only _ _
  cases a
  cases b
  simp_all

/-! ## The theorem -/

theorem DomainMessage.sameContent_of_bytes {m m' : DomainMessage}
    (h : canonicalBytes m.modelDump = canonicalBytes m'.modelDump) : m.SameContent m' := by
  have hmark := mark_eq (readBack_eq_of_canonicalBytes h)
  cases m with
  | intent a =>
      cases m' with
      | intent b => exact PaymentIntent.content_eq h
      | _ => simp [mark] at hmark
  | quote a =>
      cases m' with
      | quote b => exact PaymentQuote.content_eq h
      | _ => simp [mark] at hmark
  | approval a =>
      cases m' with
      | approval b => exact PaymentApproval.content_eq h
      | _ => simp [mark] at hmark
  | receipt a =>
      cases m' with
      | receipt b => exact PaymentReceipt.content_eq h
      | _ => simp [mark] at hmark

/-- The id is no part of what is dumped. -/
theorem DomainMessage.modelDump_eq {m m' : DomainMessage} (h : m.SameContent m') : m.modelDump = m'.modelDump := by
  cases m with
  | intent a =>
      cases m' with
      | intent b =>
          have hcontent : { a with id := b.id } = b := h
          show PaymentIntent.modelDump { a with id := b.id } = b.modelDump
          rw [hcontent]
      | _ => exact h.elim
  | quote a =>
      cases m' with
      | quote b =>
          have hcontent : { a with id := b.id } = b := h
          show PaymentQuote.modelDump { a with id := b.id } = b.modelDump
          rw [hcontent]
      | _ => exact h.elim
  | approval a =>
      cases m' with
      | approval b =>
          have hcontent : { a with id := b.id } = b := h
          show PaymentApproval.modelDump { a with id := b.id } = b.modelDump
          rw [hcontent]
      | _ => exact h.elim
  | receipt a =>
      cases m' with
      | receipt b =>
          have hcontent : { a with id := b.id } = b := h
          show PaymentReceipt.modelDump { a with id := b.id } = b.modelDump
          rw [hcontent]
      | _ => exact h.elim

/-- **Canonical bytes are equal exactly for one type and one content**, and so are the ids hashed from them. -/
theorem canonicalBytes_eq_iff (m m' : DomainMessage) :
    (canonicalBytes m.modelDump = canonicalBytes m'.modelDump ↔ m.SameContent m') ∧
      ∀ sha256 : Bytes → String,
        (sha256 (canonicalBytes m.modelDump) = sha256 (canonicalBytes m'.modelDump) →
          canonicalBytes m.modelDump = canonicalBytes m'.modelDump) →
        (computeId sha256 m.modelDump = computeId sha256 m'.modelDump ↔ m.SameContent m') := by
  have hbytes : canonicalBytes m.modelDump = canonicalBytes m'.modelDump ↔ m.SameContent m' := by
    constructor
    · exact DomainMessage.sameContent_of_bytes
    · intro h
      rw [DomainMessage.modelDump_eq h]
  refine ⟨hbytes, ?_⟩
  intro sha256 hcollision
  constructor
  · intro hid
    exact hbytes.mp (hcollision hid)
  · intro h
    unfold computeId
    rw [hbytes.mpr h]

end HermesPayments
