import HermesPayments.Models.Canonical
import HermesPayments.Policy.Dispatch

/-!
# `HermesPayments.Policy.Correctness.Identity` — what the id of an intent identifies

The id of an intent is documented to be derived from its request: parties, amount, purpose and idempotency key.
The hash also covers its terms, the fee limit and the two times. So the id identifies the request exactly for the
pairs of intents where one request does not come with two sets of terms (`identifies_request_iff`).
-/

namespace HermesPayments

open Lib

/-! ## The rule -/

/-- The hash does not collide on these two inputs. -/
def NoCollision (sha256 : Bytes → String) (x y : Bytes) : Prop := sha256 x = sha256 y → x = y

/-- The id was set by `compute_id`. -/
def PaymentIntent.HasComputedId (sha256 : Bytes → String) (m : PaymentIntent) : Prop :=
  m.id = computeId sha256 m.modelDump

/-- The ids of the two intents tell whether they make the same request; and submitting both makes one payment. -/
structure IdentifiesRequest (a b : PaymentIntent) : Prop where
  id_iff    : a.id = b.id ↔ a.SameRequest b
  /-- Where the first is tracked, submitting the second changes nothing. -/
  duplicate : a.SameRequest b → ∀ cfg env o, Reachable cfg o → o.getIntent a.id = some a →
    (call cfg env (.submit b)).run o = ⟨.ok .unit, o, []⟩
  /-- A run dispatches one of the two at most, and once. -/
  paid_once : a.SameRequest b → ∀ cfg h o i j p p' x x', PolicyRun cfg h o →
    Happens h i (·.Dispatches a.id p x) → Happens h j (·.Dispatches b.id p' x') → i = j

/-! ## Submitting a known id -/

variable {cfg : Config} {o : PaymentOrchestrator}

theorem run_submit_seen (env : Env) {i : PaymentIntent} (h : o.store.hasIntent i.id = true) :
    (call cfg env (.submit i)).run o = ⟨.ok .unit, o, []⟩ := by
  simp [call, submit, Proc.run_bind, h]

theorem hasIntent_of_getIntent (hreach : Reachable cfg o) {id : String} {i : PaymentIntent}
    (h : o.getIntent id = some i) : o.store.hasIntent id = true := by
  obtain ⟨r, hr, _⟩ := Option.map_eq_some_iff.mp h
  exact hreach.consistent.known id r hr

/-! ## The theorem -/

/-- **The id identifies the request, unless one request comes with two sets of terms.** -/
theorem identifies_request_iff {sha256 : Bytes → String} {a b : PaymentIntent} (ha : a.HasComputedId sha256)
    (hb : b.HasComputedId sha256)
    (hsha : NoCollision sha256 (canonicalBytes a.modelDump) (canonicalBytes b.modelDump)) :
    IdentifiesRequest a b ↔ ¬ (a.SameRequest b ∧ ¬ a.SameTerms b) := by
  have hcontent (hid : a.id = b.id) : a.SameRequest b ∧ a.SameTerms b := by
    rw [ha, hb] at hid
    exact PaymentIntent.canonicalBytes_inj (hsha hid)
  constructor
  · rintro ⟨hiff, _, _⟩ ⟨hrequest, hterms⟩
    exact hterms (hcontent (hiff.mpr hrequest)).2
  · intro hcond
    have hid (hrequest : a.SameRequest b) : a.id = b.id := by
      have hterms : a.SameTerms b := by
        by_contra hne
        exact hcond ⟨hrequest, hne⟩
      rw [ha, hb, computeId, computeId, PaymentIntent.canonicalBytes_eq hrequest hterms]
    refine ⟨⟨fun heq => (hcontent heq).1, hid⟩, ?_, ?_⟩
    · intro hrequest cfg env o hreach htracked
      refine run_submit_seen env ?_
      rw [← hid hrequest]
      exact hasIntent_of_getIntent hreach htracked
    · intro hrequest cfg h o i j p p' x x' hrun hd hd'
      rw [← hid hrequest] at hd'
      exact hrun.dispatched_once hd hd'

namespace Sample

/-- A hash without collisions: the bytes themselves, as characters. -/
def latin1 (bytes : Bytes) : String := String.ofList (bytes.map (fun b => Char.ofNat b.toNat))

theorem latin1_injective : Function.Injective latin1 := by
  intro x y h
  have hchars : x.map (fun b => Char.ofNat b.toNat) = y.map (fun b => Char.ofNat b.toNat) := by
    have := congrArg String.toList h
    simpa only [latin1, String.toList_ofList] using this
  refine List.map_injective_iff.mpr ?_ hchars
  intro b b' hb
  have hvalid (b : UInt8) : (Char.ofNat b.toNat).toNat = b.toNat := by
    have hlt := b.toNat_lt
    rw [Char.ofNat, dif_pos (show b.toNat.isValidChar from .inl (by omega))]
    rfl
  have hnat := congrArg Char.toNat hb
  simp only [hvalid] at hnat
  exact UInt8.toNat_inj.mp hnat

/-- The sample request, made under this key and at this time, with its computed id. -/
def request (key : String) (createdAt : Int) (hkey : 1 ≤ key.length ∧ key.length ≤ 128 := by decide) :
    PaymentIntent :=
  let i := { intent "" 100 with idempotencyKey := key, createdAt := createdAt, idempotencyKey_length := hkey }
  { i with id := computeId latin1 i.modelDump }

theorem request_hasComputedId (key : String) (createdAt : Int) (hkey : 1 ≤ key.length ∧ key.length ≤ 128) :
    (request key createdAt hkey).HasComputedId latin1 := rfl

end Sample

/-- The rule itself fails: one request made again a second later has another id. -/
theorem request_not_identified :
    ¬ ∀ (sha256 : Bytes → String), Function.Injective sha256 → ∀ a b : PaymentIntent, a.HasComputedId sha256 →
      b.HasComputedId sha256 → (a.id = b.id ↔ a.SameRequest b) := by
  intro hall
  have hfirst := Sample.request_hasComputedId "key" 0 (by decide)
  have hlater := Sample.request_hasComputedId "key" 1 (by decide)
  have hid := (hall _ Sample.latin1_injective _ _ hfirst hlater).mpr ⟨rfl, rfl, rfl, rfl, rfl⟩
  rw [hfirst, hlater] at hid
  have hbytes := Sample.latin1_injective hid
  have hcreated : (0 : Int) = 1 := (PaymentIntent.canonicalBytes_inj hbytes).2.createdAt
  exact absurd hcreated (by decide)

/-- Two requests made under two keys. -/
theorem identifies_request_keys : IdentifiesRequest (Sample.request "key" 0) (Sample.request "other" 1) :=
  (identifies_request_iff (Sample.request_hasComputedId _ _ _) (Sample.request_hasComputedId _ _ _)
    fun h => Sample.latin1_injective h).mpr fun h => absurd h.1.idempotencyKey (by decide)

end HermesPayments
