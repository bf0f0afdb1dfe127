import HermesPayments.Lib.Json.Access
import HermesPayments.Lib.Utf8
import HermesPayments.Models

/-!
# `HermesPayments.Models.Canonical` — what the canonical bytes of a message determine

The canonical form of a message is a JSON document without its id, so reading it back recovers every other field:
two intents with the same canonical bytes agree in everything but their ids (`PaymentIntent.canonicalBytes_inj`).
-/

namespace HermesPayments

open Lib

theorem canonicalOptions_standard : canonicalOptions.Standard :=
  ⟨⟨[], rfl, nofun⟩, ⟨[], rfl, nofun⟩⟩

/-- What the canonical text of a value reads back as. -/
def readBack (j : Json) : Json := j.reread (fun _ => .nan) canonicalOptions

theorem readBack_eq_of_canonicalBytes {j j' : Json} (h : canonicalBytes j = canonicalBytes j') :
    readBack j = readBack j' :=
  Json.reread_eq_of_dumps canonicalOptions_standard _ (Utf8.encode_injective h)

@[simp] theorem readBack_str (s : String) : readBack (.str s) = .str s := by rw [readBack, Json.reread]

@[simp] theorem readBack_int (n : Int) : readBack (.int n) = .int n := by rw [readBack, Json.reread]

/-- Two dumped objects that read back alike agree in each field. -/
theorem field_eq {fields fields' : List (String × Option Json)} (hkeys : (fields.map Prod.fst).Nodup)
    (hkeys' : (fields'.map Prod.fst).Nodup)
    (h : readBack (Json.members fields) = readBack (Json.members fields')) (k : String) :
    ((fields.lookup k).join).map readBack = ((fields'.lookup k).join).map readBack := by
  have hget := congrArg (Json.get? · k) h
  have hcarries : Json.Carries readBack := Json.carries_reread _ _
  rw [hcarries.get?_members hkeys, hcarries.get?_members hkeys'] at hget
  exact hget

theorem map_str_inj {s t : Option String} (h : (s.map fun s => Json.str s).map readBack
    = (t.map fun t => Json.str t).map readBack) : s = t := by
  cases s <;> cases t <;> simp_all

theorem AgentIdentity.modelDump_inj {a b : AgentIdentity} (h : readBack a.modelDump = readBack b.modelDump) :
    a = b := by
  have hfield := field_eq (by simp) (by simp) h
  have hpubkey := hfield "pubkey"
  have hrelay := hfield "relay_url"
  simp only [List.lookup_cons, String.reduceBEq, Option.join_some, Option.map_some, readBack_str, Option.some.injEq,
    Json.str.injEq, PyStr.text.injEq] at hpubkey hrelay
  cases a
  cases b
  simp only at hpubkey hrelay
  subst hpubkey
  obtain rfl := map_str_inj hrelay
  rfl

/-- The request an intent makes: everything its id is documented to be derived from. -/
structure PaymentIntent.SameRequest (a b : PaymentIntent) : Prop where
  sender         : a.sender = b.sender
  recipient      : a.recipient = b.recipient
  amountSat      : a.amountSat = b.amountSat
  purpose        : a.purpose = b.purpose
  idempotencyKey : a.idempotencyKey = b.idempotencyKey

/-- The limits an intent sets, and its time. -/
structure PaymentIntent.SameTerms (a b : PaymentIntent) : Prop where
  maxFeeSat : a.maxFeeSat = b.maxFeeSat
  expiresAt : a.expiresAt = b.expiresAt
  createdAt : a.createdAt = b.createdAt

/-- **The canonical bytes of an intent determine its request and its terms.** -/
theorem PaymentIntent.canonicalBytes_inj {a b : PaymentIntent}
    (h : canonicalBytes a.modelDump = canonicalBytes b.modelDump) : a.SameRequest b ∧ a.SameTerms b := by
  have hfield := field_eq (by simp) (by simp) (readBack_eq_of_canonicalBytes h)
  have hkey := hfield "idempotency_key"
  have hsender := hfield "sender"
  have hrecipient := hfield "recipient"
  have hamount := hfield "amount_sat"
  have hpurpose := hfield "purpose"
  have hfee := hfield "max_fee_sat"
  have hexpires := hfield "expires_at"
  have hcreated := hfield "created_at"
  simp only [List.lookup_cons, String.reduceBEq, Option.join_some, Option.map_some, readBack_str, readBack_int,
    Option.some.injEq, Json.str.injEq, PyStr.text.injEq, Json.int.injEq] at hkey hsender hrecipient hamount hpurpose hfee hexpires hcreated
  exact ⟨⟨AgentIdentity.modelDump_inj hsender, AgentIdentity.modelDump_inj hrecipient, hamount, hpurpose, hkey⟩,
    ⟨hfee, hexpires, hcreated⟩⟩

/-- … and are determined by them. -/
theorem PaymentIntent.canonicalBytes_eq {a b : PaymentIntent} (hrequest : a.SameRequest b)
    (hterms : a.SameTerms b) : canonicalBytes a.modelDump = canonicalBytes b.modelDump := by
  unfold PaymentIntent.modelDump
  rw [hrequest.idempotencyKey, hrequest.sender, hrequest.recipient, hrequest.amountSat, hrequest.purpose,
    hterms.maxFeeSat, hterms.expiresAt, hterms.createdAt]

end HermesPayments
