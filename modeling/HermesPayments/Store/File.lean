import HermesPayments.Lib.Python
import HermesPayments.Store
import Mathlib.Data.Finset.Sort
import Mathlib.Data.String.Basic

/-!
# `HermesPayments.Store.File` — the file of the idempotency store

A save writes the three collections as one JSON document, and a new store starts from the document it finds. What is
loaded answers every query as the store that was saved (`load_fileText`).
-/

namespace HermesPayments
namespace IdempotencyStore

open Lib

/-! ## The document -/

theorem isTrans_le : IsTrans String (· ≤ ·) := inferInstance

theorem antisymm_le : Std.Antisymm (α := String) (· ≤ ·) := inferInstance

/-- `sorted(ids)`. -/
def sorted (ids : Finset String) : List String := @Finset.sort String ids (· ≤ ·) _ isTrans_le antisymm_le _

@[simp] theorem sorted_toFinset (ids : Finset String) : (sorted ids).toFinset = ids := Finset.sort_toFinset _ _

/-- The members of the document, with the receipts in some order. -/
def documentMembers (s : IdempotencyStore) (receipts : List (String × String)) : List (PyStr × Json) :=
  [("intents", .arr ((sorted s.intents).map fun i : String => .str i)),
    ("approvals", .arr ((sorted s.approvals).map fun k : String => .str k)),
    ("receipts", .obj (receipts.map fun e => (.text e.1, .str e.2)))]

/-- What `_save` hands to `json.dump`. -/
def document (s : IdempotencyStore) : Json := .obj (s.documentMembers s.receipts.entries)

def fileOptions : Json.DumpsOptions := { sortKeys := true }

/-- The content of the file after a save. -/
def fileText (s : IdempotencyStore) : String := s.document.dumps fileOptions

/-- The store of a document. A document that is no object raises, and one that holds other values than texts is none
    that a save wrote. -/
def ofDocument (data : Json) : Option IdempotencyStore :=
  if data.isDict then do
    let intents ← (data.getD "intents" (.arr [])).texts?
    let approvals ← (data.getD "approvals" (.arr [])).texts?
    let receipts ← (data.getD "receipts" (.obj [])).textMembers?
    return ⟨intents.toFinset, approvals.toFinset, receipts⟩
  else none

/-- `_load`, over the content of the file if it exists. -/
def load (readFloat : String → PyFloat) : Option String → Option IdempotencyStore
  | none      => some .empty
  | some text => (Json.loads readFloat text).bind ofDocument

/-! ## Stores that answer alike -/

/-- The two stores answer every query alike. -/
structure Agrees (s t : IdempotencyStore) : Prop where
  intent     : ∀ intentId, s.hasIntent intentId = t.hasIntent intentId
  approval   : ∀ intentId quoteId preparedHash,
    s.hasApproval intentId quoteId preparedHash = t.hasApproval intentId quoteId preparedHash
  receipt    : ∀ intentId, s.hasReceipt intentId = t.hasReceipt intentId
  getReceipt : ∀ intentId, s.getReceipt intentId = t.getReceipt intentId

theorem Agrees.refl (s : IdempotencyStore) : s.Agrees s :=
  ⟨fun _ => rfl, fun _ _ _ => rfl, fun _ => rfl, fun _ => rfl⟩

theorem Agrees.symm {s t : IdempotencyStore} (h : s.Agrees t) : t.Agrees s :=
  ⟨fun i => (h.intent i).symm, fun i q p => (h.approval i q p).symm, fun i => (h.receipt i).symm,
    fun i => (h.getReceipt i).symm⟩

theorem Agrees.trans {s t u : IdempotencyStore} (h : s.Agrees t) (h' : t.Agrees u) : s.Agrees u :=
  ⟨fun i => (h.intent i).trans (h'.intent i), fun i q p => (h.approval i q p).trans (h'.approval i q p),
    fun i => (h.receipt i).trans (h'.receipt i), fun i => (h.getReceipt i).trans (h'.getReceipt i)⟩

/-- Stores with the same ids, keys and bindings answer alike. -/
theorem agrees_of_eq {s t : IdempotencyStore} (hintents : s.intents = t.intents) (happrovals : s.approvals = t.approvals)
    (hreceipts : ∀ i, s.receipts.get? i = t.receipts.get? i) : s.Agrees t := by
  constructor
  · intro i
    rw [hasIntent, hasIntent, hintents]
  · intro i q p
    rw [hasApproval, hasApproval, happrovals]
  · intro i
    rw [hasReceipt, hasReceipt, hreceipts]
  · exact hreceipts

/-! ## What is saved is loaded -/

section

variable (readFloat : String → PyFloat) (s : IdempotencyStore)

/-- The members of the document, read back. -/
theorem get?_document (key : String) : (s.document.reread readFloat fileOptions).get? key
    = (s.documentMembers (fileOptions.order s.receipts.entries)).lookup (.text key) := by
  have hkeys : ((s.documentMembers s.receipts.entries).map Prod.fst).Nodup := by
    show [PyStr.text "intents", PyStr.text "approvals", PyStr.text "receipts"].Nodup
    decide
  rw [document, Json.get?_reread readFloat fileOptions hkeys, ← Json.lookup_map]
  simp only [documentMembers, List.map_cons, List.map_nil, Json.reread_texts,
    Json.reread_textMembers readFloat fileOptions s.receipts.nodup]

/-- **A new store answers as the one that was saved.** -/
theorem load_fileText : ∃ t, load readFloat (some s.fileText) = some t ∧ t.Agrees s := by
  have hloads : Json.loads readFloat s.fileText = some (s.document.reread readFloat fileOptions) :=
    Json.loads_dumps (Json.standard_default _ _) s.document
  have hget := get?_document readFloat s
  have hdict : (s.document.reread readFloat fileOptions).isDict = true := rfl
  have hnd : ((fileOptions.order s.receipts.entries).map Prod.fst).Nodup :=
    ((fileOptions.perm_order s.receipts.entries).map Prod.fst).nodup_iff.mpr s.receipts.nodup
  refine ⟨⟨(sorted s.intents).toFinset, (sorted s.approvals).toFinset,
    Dict.ofList (fileOptions.order s.receipts.entries)⟩, ?_, ?_⟩
  · show (Json.loads readFloat s.fileText).bind ofDocument = _
    rw [hloads, Option.bind_some, ofDocument, if_pos hdict, Json.getD, Json.getD, Json.getD, hget, hget, hget]
    simp [documentMembers, List.lookup_cons, Json.texts?_map_str, Json.textMembers?_map_str]
  · refine agrees_of_eq (sorted_toFinset _) (sorted_toFinset _) fun i => ?_
    show (Dict.ofList (fileOptions.order s.receipts.entries)).entries.lookup i = s.receipts.entries.lookup i
    rw [Dict.entries_ofList hnd]
    exact Json.lookup_perm (fileOptions.perm_order s.receipts.entries).symm s.receipts.nodup i

end

end IdempotencyStore
end HermesPayments
