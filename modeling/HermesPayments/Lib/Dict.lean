import Mathlib.Data.List.Nodup
import Mathlib.Data.List.Sort
import Mathlib.Data.List.Perm.Basic

/-!
# `Lib.Dict` — insertion-ordered dictionaries

A dictionary whose entries keep the order in which their keys first appeared: assigning to a present key
replaces the value in place, assigning to a fresh key appends. Distinctness of the keys is a field, so a
dictionary with two entries for one key cannot be built.

`get?` is the lookup, `set` the assignment, `modify` the in-place update of one value, `find?` the first
entry (in insertion order) whose value satisfies a test, `sortKeys` the same dictionary with its entries
in key order.
-/

namespace Lib

/-- An insertion-ordered dictionary: a list of entries with pairwise distinct keys. -/
structure Dict (κ ν : Type) where
  entries : List (κ × ν)
  nodup   : (entries.map Prod.fst).Nodup

namespace Dict

variable {κ ν : Type}

/-- A dictionary is its list of entries. -/
theorem eq_of_entries {d d' : Dict κ ν} (h : d.entries = d'.entries) : d = d' := by
  cases d
  cases d'
  simp only at h
  subst h
  rfl

instance [DecidableEq κ] [DecidableEq ν] : DecidableEq (Dict κ ν) := fun a b =>
  decidable_of_iff (a.entries = b.entries) ⟨fun h => by cases a; cases b; simp_all, fun h => h ▸ rfl⟩

def empty : Dict κ ν := ⟨[], List.nodup_nil⟩

def keys (d : Dict κ ν) : List κ := d.entries.map Prod.fst

def values (d : Dict κ ν) : List ν := d.entries.map Prod.snd

/-- The first entry, in insertion order, whose value passes the test. -/
def find? (d : Dict κ ν) (p : ν → Bool) : Option (κ × ν) := d.entries.find? (fun e => p e.2)

/-- The dictionary with a function applied to every value. -/
def mapValues {μ : Type} (d : Dict κ ν) (f : ν → μ) : Dict κ μ where
  entries := d.entries.map (fun e => (e.1, f e.2))
  nodup   := by rw [List.map_map]; exact d.nodup

@[simp] theorem keys_mapValues {μ : Type} (d : Dict κ ν) (f : ν → μ) : (d.mapValues f).keys = d.keys := by
  simp [mapValues, keys, Function.comp_def]

/-- The dictionary with every value updated by a function that also sees its key. -/
def mapWithKey {μ : Type} (d : Dict κ ν) (f : κ → ν → μ) : Dict κ μ where
  entries := d.entries.map (fun e => (e.1, f e.1 e.2))
  nodup   := by rw [List.map_map]; exact d.nodup

variable [DecidableEq κ]

def get? (d : Dict κ ν) (k : κ) : Option ν := d.entries.lookup k

/-- Replace the value of every entry with key `k` in an entry list. -/
def replaceIn (k : κ) (f : ν → ν) (es : List (κ × ν)) : List (κ × ν) :=
  es.map (fun e => if e.1 = k then (e.1, f e.2) else e)

theorem map_fst_replaceIn (k : κ) (f : ν → ν) (es : List (κ × ν)) :
    (replaceIn k f es).map Prod.fst = es.map Prod.fst := by
  rw [replaceIn, List.map_map]
  apply List.map_congr_left
  intro e _
  by_cases h : e.1 = k <;> simp [h]

/-- In-place update of the value held under `k` (nothing happens when `k` is absent). -/
def modify (d : Dict κ ν) (k : κ) (f : ν → ν) : Dict κ ν where
  entries := replaceIn k f d.entries
  nodup   := by rw [map_fst_replaceIn]; exact d.nodup

/-- Assignment: in place when the key is present, at the end when it is fresh. -/
def set (d : Dict κ ν) (k : κ) (v : ν) : Dict κ ν where
  entries := if k ∈ d.keys then replaceIn k (fun _ => v) d.entries else d.entries ++ [(k, v)]
  nodup   := by
    split
    · rw [map_fst_replaceIn]; exact d.nodup
    · next h =>
      rw [List.map_append, List.nodup_append]
      refine ⟨d.nodup, List.nodup_singleton _, ?_⟩
      rintro a ha b hb rfl
      have hak : a = k := by simpa using hb
      exact h (hak ▸ ha)

theorem entries_set_fresh {d : Dict κ ν} {k : κ} {v : ν} (h : k ∉ d.keys) :
    (d.set k v).entries = d.entries ++ [(k, v)] := if_neg h

/-- `d.update(d')`: the entries of the second, assigned in their order. -/
def update (d d' : Dict κ ν) : Dict κ ν := d'.entries.foldl (fun d e => d.set e.1 e.2) d

/-- The dictionary of a list of assignments: the last one to a key stands. -/
def ofList (es : List (κ × ν)) : Dict κ ν := es.foldl (fun d e => d.set e.1 e.2) empty

/-- Assignments to distinct fresh keys all stand, in order. -/
theorem entries_foldl_set (es : List (κ × ν)) (d : Dict κ ν) (hnd : (d.keys ++ es.map Prod.fst).Nodup) :
    (es.foldl (fun d e => d.set e.1 e.2) d).entries = d.entries ++ es := by
  induction es generalizing d with
  | nil => rw [List.foldl_nil, List.append_nil]
  | cons e es ih =>
      have hfresh : e.1 ∉ d.keys := by
        intro hmem
        exact (List.nodup_append.mp hnd).2.2 _ hmem _ List.mem_cons_self rfl
      have hset : (d.set e.1 e.2).entries = d.entries ++ [e] := entries_set_fresh hfresh
      rw [List.foldl_cons, ih, hset, List.append_assoc, List.singleton_append]
      rw [keys, hset, List.map_append, List.append_assoc]
      exact hnd

theorem entries_ofList {es : List (κ × ν)} (hnd : (es.map Prod.fst).Nodup) : (ofList es).entries = es :=
  entries_foldl_set es empty (by simpa [keys, empty] using hnd)

/-- The same dictionary with its entries in ascending key order. -/
def sortKeys [LE κ] [DecidableLE κ] (d : Dict κ ν) : Dict κ ν where
  entries := d.entries.insertionSort (fun a b => a.1 ≤ b.1)
  nodup   := ((List.perm_insertionSort _ d.entries).map Prod.fst).nodup_iff.mpr d.nodup

/-! ## Lookup against the entry list -/

@[simp] theorem get?_empty (k : κ) : (empty : Dict κ ν).get? k = none := rfl

theorem lookup_eq_some_iff {es : List (κ × ν)} (hnd : (es.map Prod.fst).Nodup) {k : κ} {v : ν} :
    es.lookup k = some v ↔ (k, v) ∈ es := by
  induction es with
  | nil => simp
  | cons e rest ih =>
      obtain ⟨k', v'⟩ := e
      have hrest : (rest.map Prod.fst).Nodup := (List.nodup_cons.mp hnd).2
      have hfresh : k' ∉ rest.map Prod.fst := (List.nodup_cons.mp hnd).1
      by_cases hk : k = k'
      · subst hk
        have hout : ∀ w, (k, w) ∉ rest := fun w hw => hfresh (List.mem_map.mpr ⟨(k, w), hw, rfl⟩)
        simp [hout, eq_comm]
      · have hbeq : (k == k') = false := by simp [hk]
        rw [List.lookup_cons, hbeq]
        simp [ih hrest, hk]

/-- The lookup finds exactly the entries of the list. -/
theorem get?_eq_some_iff (d : Dict κ ν) {k : κ} {v : ν} : d.get? k = some v ↔ (k, v) ∈ d.entries :=
  lookup_eq_some_iff d.nodup

theorem get?_eq_none_iff (d : Dict κ ν) {k : κ} : d.get? k = none ↔ k ∉ d.keys := by
  rw [get?, List.lookup_eq_none_iff]
  simp only [keys, List.mem_map, not_exists, not_and, bne_iff_ne, ne_eq]
  exact ⟨fun h e he hk => h e he hk.symm, fun h e he hk => h e he hk.symm⟩

theorem get?_of_mem {d : Dict κ ν} {k : κ} {v : ν} (h : (k, v) ∈ d.entries) : d.get? k = some v :=
  d.get?_eq_some_iff.mpr h

theorem entries_eq_nil_of_get? {d : Dict κ ν} (h : ∀ k, d.get? k = none) : d.entries = [] := by
  rw [List.eq_nil_iff_forall_not_mem]
  intro e he
  have hget : d.get? e.1 = some e.2 := get?_of_mem he
  rw [h] at hget
  cases hget

theorem mem_keys_iff {d : Dict κ ν} {k : κ} : k ∈ d.keys ↔ ∃ v, d.get? k = some v := by
  rw [← not_iff_not, ← d.get?_eq_none_iff]
  simp [Option.eq_none_iff_forall_ne_some]

/-! ## Lookup after an update -/

theorem lookup_replaceIn (k j : κ) (f : ν → ν) (es : List (κ × ν)) :
    (replaceIn k f es).lookup j = if j = k then (es.lookup k).map f else es.lookup j := by
  induction es with
  | nil => simp [replaceIn]
  | cons e rest ih =>
      obtain ⟨k', v'⟩ := e
      have hcons : replaceIn k f ((k', v') :: rest)
          = (if k' = k then (k', f v') else (k', v')) :: replaceIn k f rest := rfl
      rw [hcons]
      by_cases hk : k' = k
      · subst hk
        by_cases hj : j = k'
        · subst hj; simp
        · have hbeq : (j == k') = false := by simp [hj]
          simp [List.lookup_cons, hbeq, hj, ih]
      · by_cases hj : j = k'
        · subst hj; simp [hk]
        · have hbeq : (j == k') = false := by simp [hj]
          have hbeq' : (k == k') = false := by simp [Ne.symm hk]
          simp [List.lookup_cons, hbeq, hbeq', hk, ih]

theorem get?_modify (d : Dict κ ν) (k j : κ) (f : ν → ν) :
    (d.modify k f).get? j = if j = k then (d.get? k).map f else d.get? j :=
  lookup_replaceIn k j f d.entries

@[simp] theorem get?_modify_self (d : Dict κ ν) (k : κ) (f : ν → ν) :
    (d.modify k f).get? k = (d.get? k).map f := by
  rw [get?_modify, if_pos rfl]

theorem modify_modify (d : Dict κ ν) (k : κ) (f g : ν → ν) :
    (d.modify k f).modify k g = d.modify k (fun v => g (f v)) := by
  simp only [modify, replaceIn, List.map_map, mk.injEq]
  apply List.map_congr_left
  intro e _
  by_cases h : e.1 = k <;> simp [h]

/-- An update that leaves the one value it meets alone does nothing. -/
theorem modify_eq_self {d : Dict κ ν} {k : κ} {f : ν → ν} (h : ∀ v, d.get? k = some v → f v = v) :
    d.modify k f = d := by
  cases d with
  | mk es hnd =>
      have hes : replaceIn k f es = es := by
        unfold replaceIn
        conv_rhs => rw [← List.map_id es]
        apply List.map_congr_left
        rintro ⟨j, v⟩ hjv
        by_cases hj : j = k
        · subst hj
          have hget : (mk es hnd).get? j = some v := get?_of_mem hjv
          rw [if_pos rfl, h v hget, id]
        · rw [if_neg hj, id]
      simp only [modify, hes]

@[simp] theorem keys_modify (d : Dict κ ν) (k : κ) (f : ν → ν) : (d.modify k f).keys = d.keys :=
  map_fst_replaceIn k f d.entries

theorem get?_set (d : Dict κ ν) (k j : κ) (v : ν) :
    (d.set k v).get? j = if j = k then some v else d.get? j := by
  unfold get? set
  by_cases hk : k ∈ d.keys
  · obtain ⟨w, hw⟩ := mem_keys_iff.mp hk
    have hw' : d.entries.lookup k = some w := hw
    simp only [hk, if_true, lookup_replaceIn, hw', Option.map_some]
  · have hnone : d.entries.lookup k = none := d.get?_eq_none_iff.mpr hk
    simp only [hk, if_false, List.lookup_append, List.lookup_cons, List.lookup_nil]
    by_cases hj : j = k
    · subst hj; simp [hnone]
    · have hbeq : (j == k) = false := by simp [hj]
      simp [hbeq, hj]

@[simp] theorem get?_set_self (d : Dict κ ν) (k : κ) (v : ν) : (d.set k v).get? k = some v := by
  rw [get?_set, if_pos rfl]

theorem get?_set_ne (d : Dict κ ν) {k j : κ} (v : ν) (h : j ≠ k) : (d.set k v).get? j = d.get? j := by
  rw [get?_set, if_neg h]

theorem mem_keys_set (d : Dict κ ν) (k j : κ) (v : ν) : j ∈ (d.set k v).keys ↔ j = k ∨ j ∈ d.keys := by
  rw [mem_keys_iff, mem_keys_iff]
  simp only [get?_set]
  by_cases hj : j = k <;> simp [hj]

/-- What an update leaves under a key: the new value if there is one. -/
theorem get?_update (d d' : Dict κ ν) (k : κ) : (d.update d').get? k = (d'.get? k).or (d.get? k) := by
  have hfold (es : List (κ × ν)) (hnd : (es.map Prod.fst).Nodup) (d : Dict κ ν) :
      (es.foldl (fun d e => d.set e.1 e.2) d).get? k = (es.lookup k).or (d.get? k) := by
    induction es generalizing d with
    | nil => simp
    | cons e es ih =>
        obtain ⟨hfresh, hrest⟩ := List.nodup_cons.mp hnd
        rw [List.foldl_cons, ih hrest, get?_set, List.lookup_cons]
        by_cases hk : k = e.1
        · subst hk
          have hnone : es.lookup e.1 = none := by
            rw [List.lookup_eq_none_iff]
            intro p hp
            rw [bne_iff_ne]
            intro heq
            exact hfresh (heq ▸ List.mem_map_of_mem hp)
          simp [hnone]
        · have hbeq : (k == e.1) = false := by simp [hk]
          simp [hbeq, hk]
  exact hfold d'.entries d'.nodup d

theorem get?_mapValues {μ : Type} (d : Dict κ ν) (f : ν → μ) (k : κ) :
    (d.mapValues f).get? k = (d.get? k).map f := by
  refine Option.ext fun v => ?_
  rw [get?_eq_some_iff, Option.map_eq_some_iff]
  simp [mapValues, ← get?_eq_some_iff]

theorem get?_mapWithKey {μ : Type} (d : Dict κ ν) (f : κ → ν → μ) (k : κ) :
    (d.mapWithKey f).get? k = (d.get? k).map (f k) := by
  refine Option.ext fun v => ?_
  rw [get?_eq_some_iff, Option.map_eq_some_iff]
  simp only [mapWithKey, List.mem_map, Prod.mk.injEq, Prod.exists, get?_eq_some_iff]
  constructor
  · rintro ⟨j, w, hw, rfl, rfl⟩
    exact ⟨w, hw, rfl⟩
  · rintro ⟨w, hw, rfl⟩
    exact ⟨k, w, hw, rfl, rfl⟩

/-! ## Search and sorting -/

theorem get?_of_find? {d : Dict κ ν} {p : ν → Bool} {k : κ} {v : ν} (h : d.find? p = some (k, v)) :
    d.get? k = some v ∧ p v = true :=
  ⟨get?_of_mem (List.mem_of_find?_eq_some h), by simpa using List.find?_some h⟩

@[simp] theorem get?_sortKeys [LE κ] [DecidableLE κ] (d : Dict κ ν) (k : κ) :
    d.sortKeys.get? k = d.get? k := by
  have hmem : ∀ v, d.sortKeys.get? k = some v ↔ d.get? k = some v := fun v => by
    rw [get?_eq_some_iff, get?_eq_some_iff]
    exact (List.perm_insertionSort _ d.entries).mem_iff
  exact Option.ext hmem

end Dict
end Lib
