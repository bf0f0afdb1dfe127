import HermesPayments.Lib.Json.RoundTrip

/-!
# `Lib.Json.Access` — the members of an object, before and after writing it

`Json.get?` is the lookup in an object. An object whose members have distinct keys shows the same members, reread,
after it was written and read back, whatever order the writer gave them (`get?_reread`). So what is read of the members
does not depend on whether the object came from a text (`Carries`).
-/

namespace Lib
namespace Json

/-- The value under a key; none for a value that is no object. -/
def get? : Json → String → Option Json
  | .obj members, k => members.lookup (.text k)
  | _, _ => none

/-- `x` where `isinstance(x, str)`. -/
def pyStr? : Json → Option PyStr
  | .str s => some s
  | _      => none

@[simp] theorem pyStr?_str (s : PyStr) : (Json.str s).pyStr? = some s := rfl

theorem pyStr?_eq_some {j : Json} {s : PyStr} (h : j.pyStr? = some s) : j = .str s := by
  cases j <;> simp_all [pyStr?]

/-- The text of a string value without unpaired surrogates. -/
def str? (j : Json) : Option String := j.pyStr?.bind PyStr.text?

@[simp] theorem str?_str (s : String) : (Json.str s).str? = some s := rfl

theorem str?_eq_some {j : Json} {s : String} (h : j.str? = some s) : j = .str s := by
  obtain ⟨p, hp, hs⟩ := Option.bind_eq_some_iff.mp h
  rw [pyStr?_eq_some hp, PyStr.text?_eq_some.mp hs]

/-! ## Distinct keys -/

/-- Members with distinct keys show what they hold, in any order. -/
theorem lookup_perm {κ α : Type} [DecidableEq κ] {ms ms' : List (κ × α)} (hperm : ms.Perm ms')
    (hnd : (ms.map Prod.fst).Nodup) (k : κ) : ms'.lookup k = ms.lookup k := by
  have hnd' : (ms'.map Prod.fst).Nodup := (hperm.map Prod.fst).nodup_iff.mp hnd
  cases hk : ms.lookup k with
  | some v =>
      rw [Dict.lookup_eq_some_iff hnd] at hk
      rw [Dict.lookup_eq_some_iff hnd']
      exact hperm.mem_iff.mp hk
  | none =>
      cases hk' : ms'.lookup k with
      | none => rfl
      | some v =>
          rw [Dict.lookup_eq_some_iff hnd', ← hperm.mem_iff, ← Dict.lookup_eq_some_iff hnd, hk] at hk'
          cases hk'

theorem lookup_map {κ α β : Type} [DecidableEq κ] (f : α → β) (ms : List (κ × α)) (k : κ) :
    (ms.map (fun m => (m.1, f m.2))).lookup k = (ms.lookup k).map f := by
  induction ms with
  | nil => rfl
  | cons m ms ih =>
      rw [List.map_cons, List.lookup_cons, List.lookup_cons, ih]
      split <;> rfl

theorem objectOf_self {ms : List (PyStr × Json)} (hnd : (ms.map Prod.fst).Nodup) : objectOf ms = .obj ms :=
  congrArg Json.obj (Dict.entries_ofList hnd)

theorem get?_objectOf {ms : List (PyStr × Json)} (hnd : (ms.map Prod.fst).Nodup) (k : String) :
    (objectOf ms).get? k = ms.lookup (.text k) := by
  rw [objectOf_self hnd]
  rfl

/-- A dictionary that is updated, as `{key: value, **members}` is built. -/
theorem get?_objectOf_cons {ms : List (PyStr × Json)} (hnd : (ms.map Prod.fst).Nodup) (key : String) (value : Json)
    (k : String) : (objectOf ((key, value) :: ms)).get? k = (ms.lookup (.text k)).or (if k = key then some value else none) := by
  have hupdate := Dict.get?_update (Dict.empty.set (.text key) value) (Dict.ofList ms) (.text k)
  have hentries : (Dict.ofList ms).entries = ms := Dict.entries_ofList hnd
  have hmembers : (Dict.ofList ms).get? (.text k) = ms.lookup (.text k) := congrArg (List.lookup _) hentries
  rw [Dict.update, hentries, hmembers, Dict.get?_set] at hupdate
  simp only [PyStr.text.injEq] at hupdate
  exact hupdate

theorem DumpsOptions.perm_order {κ α : Type} [LE κ] [DecidableLE κ] (o : DumpsOptions) (ms : List (κ × α)) :
    (o.order ms).Perm ms := by
  unfold DumpsOptions.order
  split
  · exact List.perm_insertionSort _ ms
  · exact .refl _

/-- Distinct texts are distinct keys. -/
theorem nodup_textKeys {α β : Type} {es : List (String × α)} (hnd : (es.map Prod.fst).Nodup) (f : α → β) :
    ((es.map fun e => (PyStr.text e.1, f e.2)).map Prod.fst).Nodup := by
  have hmap := hnd.map (f := PyStr.text) fun _ _ => PyStr.text.inj
  rw [List.map_map] at hmap ⊢
  exact hmap

/-! ## Objects that were read -/

theorem readConstant_ne_obj {text rest : List Char} {ms : List (PyStr × Json)} : readConstant text ≠ some (.obj ms, rest) := by
  intro h
  obtain ⟨e, he, heq⟩ := Option.map_eq_some_iff.mp h
  have hmem := List.mem_of_find?_eq_some he
  simp only [constants, List.mem_cons, List.not_mem_nil, or_false] at hmem
  rcases hmem with rfl | rfl | rfl | rfl | rfl | rfl <;> cases heq

theorem nodup_objectOf {ms ms' : List (PyStr × Json)} (h : objectOf ms = .obj ms') : (ms'.map Prod.fst).Nodup := by
  cases h
  exact Dict.nodup _

/-- The keys of an object that was read are distinct. -/
theorem nodup_of_readValue {readFloat : String → PyFloat} {n : Nat} {text rest : List Char} {ms : List (PyStr × Json)}
    (h : readValue readFloat n text = some (.obj ms, rest)) : (ms.map Prod.fst).Nodup := by
  cases n with
  | zero => cases h
  | succ n =>
    cases text with
    | nil => cases h
    | cons c text =>
      unfold readValue at h
      split at h
      · obtain ⟨_, _, h⟩ := Option.bind_eq_some_iff.mp h
        cases h
      · split at h
        · split at h
          · cases h
          · obtain ⟨_, _, h⟩ := Option.bind_eq_some_iff.mp h
            cases h
        · split at h
          · split at h
            · cases h
              exact List.nodup_nil
            · obtain ⟨⟨found, left⟩, _, h⟩ := Option.bind_eq_some_iff.mp h
              exact nodup_objectOf (Prod.mk.inj (Option.some.inj h)).1
          · cases hconstant : readConstant (c :: text) with
            | some found =>
                rw [hconstant] at h
                obtain rfl : found = _ := Option.some.inj h
                exact absurd hconstant readConstant_ne_obj
            | none =>
                rw [hconstant] at h
                replace h : readNumber readFloat (c :: text) = _ := h
                obtain ⟨_, _, h⟩ := Option.bind_eq_some_iff.mp h
                dsimp only at h
                split at h
                · cases h
                · cases h
theorem nodup_of_loads {readFloat : String → PyFloat} {text : String} {ms : List (PyStr × Json)}
    (h : loads readFloat text = some (.obj ms)) : (ms.map Prod.fst).Nodup := by
  obtain ⟨⟨j, rest⟩, hread, h⟩ := Option.bind_eq_some_iff.mp h
  dsimp only at h
  split at h
  · cases h
    exact nodup_of_readValue hread
  · cases h

section

variable (readFloat : String → PyFloat) (o : DumpsOptions)

/-- What a written object shows when it is read back. -/
theorem get?_reread {ms : List (PyStr × Json)} (hnd : (ms.map Prod.fst).Nodup) (k : String) :
    (reread readFloat o (.obj ms)).get? k = (ms.lookup (.text k)).map (reread readFloat o) := by
  have hperm := o.perm_order ms
  have hnd' : ((o.order ms).map Prod.fst).Nodup := (hperm.map Prod.fst).nodup_iff.mpr hnd
  rw [reread_obj, get?_objectOf (by rw [List.map_map]; exact hnd'), lookup_map,
    lookup_perm hperm.symm hnd]

/-- An object with distinct keys, written in its own order, reads back as itself when its members do. -/
theorem reread_obj_self {ms : List (PyStr × Json)} (ho : o.sortKeys = false) (hnd : (ms.map Prod.fst).Nodup)
    (h : ∀ m ∈ ms, reread readFloat o m.2 = m.2) : reread readFloat o (.obj ms) = .obj ms := by
  have hkeep : ms.map (fun m => (m.1, reread readFloat o m.2)) = ms := by
    refine (List.map_congr_left fun m hm => ?_).trans (List.map_id ms)
    rw [h m hm]
    rfl
  rw [reread_obj, DumpsOptions.order, ho, if_neg Bool.false_ne_true, hkeep, objectOf_self hnd]

/-! ## Optional members -/

theorem keys_members (fields : List (String × Option Json)) :
    ((fields.filterMap (fun f => f.2.map (fun v => (PyStr.text f.1, v)))).map Prod.fst).Sublist
      ((fields.map Prod.fst).map .text) := by
  induction fields with
  | nil => exact .slnil
  | cons f fs ih =>
      obtain ⟨k, _ | v⟩ := f
      · exact ih.cons (.text k)
      · exact ih.cons_cons (.text k)

theorem nodup_members {fields : List (String × Option Json)} (hnd : (fields.map Prod.fst).Nodup) :
    ((fields.filterMap (fun f => f.2.map (fun v => (PyStr.text f.1, v)))).map Prod.fst).Nodup :=
  (hnd.map fun _ _ => PyStr.text.inj).sublist (keys_members fields)

theorem lookup_members {fields : List (String × Option Json)} (hnd : (fields.map Prod.fst).Nodup) (k : String) :
    (fields.filterMap (fun f => f.2.map (fun v => (PyStr.text f.1, v)))).lookup (.text k) = (fields.lookup k).join := by
  induction fields with
  | nil => rfl
  | cons f fs ih =>
      obtain ⟨j, v⟩ := f
      obtain ⟨hfresh, hrest⟩ := List.nodup_cons.mp hnd
      rw [List.lookup_cons]
      by_cases hk : k = j
      · subst hk
        simp only [beq_self_eq_true]
        cases v with
        | some v => simp
        | none =>
            -- the key is absent, and no later field has it
            have hnone : fs.lookup k = none := by
              rw [List.lookup_eq_none_iff]
              intro p hp
              rw [bne_iff_ne]
              intro heq
              have hmem : p.1 ∈ fs.map Prod.fst := List.mem_map_of_mem hp
              exact hfresh (heq ▸ hmem)
            simpa [hnone] using ih hrest
      · have hkj : (k == j) = false := beq_eq_false_iff_ne.mpr hk
        have hkj' : (PyStr.text k == PyStr.text j) = false := by simpa using hk
        rw [hkj]
        cases v with
        | some v => simpa [List.lookup_cons, hkj'] using ih hrest
        | none => simpa using ih hrest

/-- An object with optional members, written in its own order, reads back as itself when its members do. -/
theorem reread_members_self {fields : List (String × Option Json)} (ho : o.sortKeys = false)
    (hnd : (fields.map Prod.fst).Nodup) (h : ∀ k v, (k, some v) ∈ fields → reread readFloat o v = v) :
    reread readFloat o (members fields) = members fields := by
  refine reread_obj_self readFloat o ho (nodup_members hnd) fun m hm => ?_
  obtain ⟨⟨k, v⟩, hmem, hv⟩ := List.mem_filterMap.mp hm
  obtain ⟨w, rfl, rfl⟩ := Option.map_eq_some_iff.mp hv
  exact h k w hmem

end

/-! ## What carries the members over -/

/-- A change of values that keeps scalars, and the members of an object but for their order and the change of each. -/
structure Carries (f : Json → Json) : Prop where
  null : f .null = .null
  bool : ∀ b, f (.bool b) = .bool b
  int  : ∀ n, f (.int n) = .int n
  str  : ∀ s, f (.str s) = .str s
  get? : ∀ {ms : List (PyStr × Json)}, (ms.map Prod.fst).Nodup → ∀ k, (f (.obj ms)).get? k = (ms.lookup (.text k)).map f

theorem carries_id : Carries id where
  null := rfl
  bool _ := rfl
  int _ := rfl
  str _ := rfl
  get? _ _ := Option.map_id_apply.symm

/-- Writing a value and reading it back carries its members over. -/
theorem carries_reread (readFloat : String → PyFloat) (o : DumpsOptions) : Carries (reread readFloat o) where
  null := by rw [reread]
  bool _ := by rw [reread]
  int _ := by rw [reread]
  str _ := by rw [reread]
  get? hnd k := get?_reread readFloat o hnd k

theorem Carries.get?_some {f : Json → Json} (hf : Carries f) {ms : List (PyStr × Json)} (hnd : (ms.map Prod.fst).Nodup)
    {k : String} {v : Json} (h : ms.lookup (.text k) = some v) : (f (.obj ms)).get? k = some (f v) := by
  rw [hf.get? hnd, h]
  rfl

theorem Carries.get?_members {f : Json → Json} (hf : Carries f) {fields : List (String × Option Json)}
    (hnd : (fields.map Prod.fst).Nodup) (k : String) : (f (members fields)).get? k = ((fields.lookup k).join).map f := by
  rw [members, hf.get? (nodup_members hnd), lookup_members hnd]

/-! ## Texts -/

/-- A list of texts. -/
def texts? : Json → Option (List String)
  | .arr items => items.mapM str?
  | _          => none

/-- A member that is a text under a text. -/
def textMember? (m : PyStr × Json) : Option (String × String) := do
  let k ← m.1.text?
  let s ← m.2.str?
  some (k, s)

/-- An object of texts. -/
def textMembers? : Json → Option (Dict String String)
  | .obj ms => (ms.mapM textMember?).map Dict.ofList
  | _       => none

/-- What was written item by item is read item by item. -/
theorem mapM_map_eq_some {α β : Type} (f : α → β) (g : β → Option α) (h : ∀ a, g (f a) = some a) (l : List α) :
    (l.map f).mapM g = some l := by
  induction l with
  | nil => rfl
  | cons a l ih =>
      rw [List.map_cons, List.mapM_cons, h, ih]
      rfl

theorem texts?_map_str (ts : List String) : texts? (.arr (ts.map fun t : String => .str t)) = some ts :=
  mapM_map_eq_some (fun t : String => Json.str t) str? (fun _ => rfl) ts

theorem textMembers?_map_str (es : List (String × String)) :
    textMembers? (.obj (es.map fun e => (.text e.1, .str e.2))) = some (Dict.ofList es) := by
  have hread : (es.map fun e => (PyStr.text e.1, Json.str e.2)).mapM textMember? = some es :=
    mapM_map_eq_some (fun e => (PyStr.text e.1, Json.str e.2)) textMember? (fun _ => rfl) es
  exact congrArg (Option.map Dict.ofList) hread

theorem reread_texts (readFloat : String → PyFloat) (o : DumpsOptions) (ts : List String) :
    reread readFloat o (.arr (ts.map fun t : String => .str t)) = .arr (ts.map fun t : String => .str t) := by
  rw [reread, rereadItems_eq, List.map_map]
  refine congrArg Json.arr (List.map_congr_left fun t _ => ?_)
  show reread readFloat o (.str t) = .str t
  rw [reread]

/-- An object of texts with distinct keys reads back with its members in the order the writer puts them. -/
theorem reread_textMembers (readFloat : String → PyFloat) (o : DumpsOptions) {es : List (String × String)}
    (hnd : (es.map Prod.fst).Nodup) : reread readFloat o (.obj (es.map fun e => (.text e.1, .str e.2)))
      = .obj ((o.order es).map fun e => (.text e.1, .str e.2)) := by
  have hperm := o.perm_order es
  have hnd' : ((o.order es).map Prod.fst).Nodup := (hperm.map Prod.fst).nodup_iff.mpr hnd
  have hmembers : (o.order (es.map fun e => (PyStr.text e.1, Json.str e.2))).map (fun m => (m.1, reread readFloat o m.2))
      = (o.order es).map fun e => (.text e.1, .str e.2) := by
    rw [o.order_mapKeys (fun _ _ => PyStr.text_le_text) (fun s : String => Json.str s), List.map_map]
    refine List.map_congr_left fun e _ => ?_
    show (PyStr.text e.1, reread readFloat o (.str e.2)) = _
    rw [reread]
  rw [reread_obj, hmembers, objectOf_self (nodup_textKeys hnd' fun s : String => Json.str s)]

/-- Objects with one text agree in every member, as far as reading them can tell. -/
theorem reread_eq_of_dumps {o : DumpsOptions} (ho : o.Standard) (readFloat : String → PyFloat) {j j' : Json}
    (h : dumps o j = dumps o j') : reread readFloat o j = reread readFloat o j' := by
  have hj : loads readFloat (dumps o j) = _ := loads_dumps ho j
  rw [h, loads_dumps ho j'] at hj
  exact (Option.some.inj hj).symm

end Json
end Lib
