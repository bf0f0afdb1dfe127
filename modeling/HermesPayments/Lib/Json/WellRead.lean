import HermesPayments.Lib.Python

/-!
# `Lib.Json.WellRead` — values as a reader builds them

A reader builds dictionaries, so the keys of an object are distinct, and a float is what the reader makes of the float's
own text. Such a value is written and read back as an equal one (`same_reread`), with the keys of its objects sorted when
the writer sorts them; writing and reading it once more changes nothing (`reread_reread`). A function that reads scalars,
or members under their keys, does not see the difference (`Stable`).
-/

namespace Lib
namespace Json

/-- The value could have been built by this reader. -/
inductive WellRead (readFloat : String → PyFloat) : Json → Prop
  | null : WellRead readFloat .null
  | bool (b : Bool) : WellRead readFloat (.bool b)
  | int (n : Int) : WellRead readFloat (.int n)
  | float {x : PyFloat} (hread : rereadFloat readFloat x = x) : WellRead readFloat (.float x)
  | str (s : PyStr) : WellRead readFloat (.str s)
  | arr {items : List Json} (hitems : ∀ x ∈ items, WellRead readFloat x) : WellRead readFloat (.arr items)
  | obj {members : List (PyStr × Json)} (hnd : (members.map Prod.fst).Nodup)
      (hmembers : ∀ m ∈ members, WellRead readFloat m.2) : WellRead readFloat (.obj members)

section

variable {readFloat : String → PyFloat} {o o' : DumpsOptions}

/-! ## What is read back is equal -/

theorem sameItems_map {f : Json → Json} {items : List Json} (h : ∀ x ∈ items, same (f x) x = true) :
    sameItems (items.map f) items = true := by
  induction items with
  | nil => simp [sameItems]
  | cons x xs ih =>
      obtain ⟨hx, hxs⟩ := List.forall_mem_cons.mp h
      rw [List.map_cons, sameItems, hx, ih hxs]
      rfl

theorem sameMembers_of_lookup {ms ms' : List (PyStr × Json)}
    (h : ∀ m ∈ ms, ∃ v, ms'.lookup m.1 = some v ∧ same m.2 v = true) : sameMembers ms ms' = true := by
  induction ms with
  | nil => simp [sameMembers]
  | cons m ms ih =>
      obtain ⟨⟨v, hlookup, hsame⟩, hms⟩ := List.forall_mem_cons.mp h
      obtain ⟨k, w⟩ := m
      rw [sameMembers, hlookup]
      simp only
      rw [hsame, ih hms]
      rfl

/-- The members of an object with distinct keys, read back. -/
theorem reread_obj_of_nodup {ms : List (PyStr × Json)} (hnd : (ms.map Prod.fst).Nodup) :
    reread readFloat o (.obj ms) = .obj ((o.order ms).map fun m => (m.1, reread readFloat o m.2)) := by
  have hkeys : (((o.order ms).map fun m => (m.1, reread readFloat o m.2)).map Prod.fst).Nodup := by
    rw [List.map_map]
    exact ((o.perm_order ms).map Prod.fst).nodup_iff.mpr hnd
  rw [reread_obj, objectOf_self hkeys]

/-- **A value that was written and read back is equal to itself.** -/
theorem WellRead.same_reread {j : Json} (h : WellRead readFloat j) : same (reread readFloat o j) j = true := by
  induction h with
  | null | bool b | int n | str s =>
      rw [reread]
      simp [same, number?]
  | @float x hread =>
      rw [reread, hread]
      cases x with
      | finite exact text literal => simp [same, number?, PyFloat.value]
      | nan | inf | negInf => simp [same]
  | arr _ ih =>
      rw [reread, rereadItems_eq, same]
      exact sameItems_map ih
  | @obj ms hnd _ ih =>
      rw [reread_obj_of_nodup hnd, same, List.length_map, (o.perm_order ms).length_eq]
      simp only [decide_true, Bool.true_and]
      refine sameMembers_of_lookup fun m hm => ?_
      obtain ⟨m', hm', rfl⟩ := List.mem_map.mp hm
      have hmem : m' ∈ ms := (o.perm_order ms).mem_iff.mp hm'
      exact ⟨m'.2, (Dict.lookup_eq_some_iff hnd).mpr hmem, ih m' hmem⟩

/-! ## Reading back twice -/

theorem order_order {κ α : Type} [LE κ] [DecidableLE κ] [Std.Total (fun j k : κ => j ≤ k)]
    [IsTrans κ (fun j k => j ≤ k)] (ho : o.sortKeys = true) (ho' : o'.sortKeys = true) (ms : List (κ × α)) :
    o'.order (o.order ms) = o.order ms := by
  have : Std.Total (fun a b : κ × α => a.1 ≤ b.1) := ⟨fun a b => Std.Total.total (r := fun j k : κ => j ≤ k) a.1 b.1⟩
  have : IsTrans (κ × α) (fun a b => a.1 ≤ b.1) :=
    ⟨fun a b c => IsTrans.trans (r := fun j k : κ => j ≤ k) a.1 b.1 c.1⟩
  rw [DumpsOptions.order, DumpsOptions.order, if_pos ho', if_pos ho]
  exact List.Pairwise.insertionSort_eq (List.pairwise_insertionSort (fun a b => a.1 ≤ b.1) ms)

/-- **What a writer that sorts keys wrote once is written the same again.** -/
theorem WellRead.reread_reread {j : Json} (ho : o.sortKeys = true) (ho' : o'.sortKeys = true) (h : WellRead readFloat j) :
    reread readFloat o' (reread readFloat o j) = reread readFloat o j := by
  induction h with
  | null | bool b | int n | str s => simp only [reread]
  | float hread => simp only [reread, hread]
  | arr _ ih =>
      simp only [reread, rereadItems_eq, List.map_map]
      exact congrArg Json.arr (List.map_congr_left ih)
  | @obj ms hnd _ ih =>
      have hkeys : (((o.order ms).map fun m => (m.1, reread readFloat o m.2)).map Prod.fst).Nodup := by
        rw [List.map_map]
        exact ((o.perm_order ms).map Prod.fst).nodup_iff.mpr hnd
      rw [reread_obj_of_nodup hnd, reread_obj_of_nodup hkeys, DumpsOptions.order_map, order_order ho ho', List.map_map]
      refine congrArg Json.obj (List.map_congr_left fun m hm => ?_)
      exact congrArg (Prod.mk m.1) (ih m ((o.perm_order ms).mem_iff.mp hm))

/-- What is read back is as truthy as what was written. -/
theorem WellRead.truthy_reread {j : Json} (h : WellRead readFloat j) : (reread readFloat o j).truthy = j.truthy := by
  cases h with
  | null | bool _ | int _ | str _ => rw [reread]
  | float hread => rw [reread, hread]
  | @arr items _ =>
      rw [reread, rereadItems_eq]
      cases items <;> rfl
  | @obj ms hnd _ =>
      have hempty : ((o.order ms).map fun m => (m.1, reread readFloat o m.2)).isEmpty = ms.isEmpty := by
        rw [List.isEmpty_map, (o.perm_order ms).isEmpty_eq]
      rw [reread_obj_of_nodup hnd]
      exact congrArg not hempty

/-- The members of a value that a reader built are such values. -/
theorem WellRead.getD {j : Json} (h : WellRead readFloat j) (key : String) {default : Json}
    (hdefault : WellRead readFloat default) : WellRead readFloat (j.getD key default) := by
  unfold Json.getD
  cases hget : j.get? key with
  | none => exact hdefault
  | some v =>
      cases h with
      | obj hnd hmembers => exact hmembers _ ((Dict.lookup_eq_some_iff hnd).mp hget)
      | null | bool _ | int _ | float _ | str _ | arr _ => cases hget

/-! ## What was read is well read -/

/-- A float that the reader makes is what it makes of the float's own text. -/
def ReadsBack (readFloat : String → PyFloat) : Prop := ∀ text, rereadFloat readFloat (readFloat text) = readFloat text

variable {value : List Char → Option (Json × List Char)} (hvalue : ∀ text j rest, value text = some (j, rest) → WellRead readFloat j)

include hvalue in
theorem wellRead_of_readItems {n : Nat} {text rest : List Char} {xs : List Json} (h : readItems value n text = some (xs, rest)) :
    ∀ x ∈ xs, WellRead readFloat x := by
  induction n generalizing text xs with
  | zero => cases h
  | succ n ih =>
      obtain ⟨⟨x, left⟩, hx, h⟩ := Option.bind_eq_some_iff.mp h
      have hwell := hvalue _ _ _ hx
      dsimp only at h
      split at h
      · cases h
        exact List.forall_mem_cons.mpr ⟨hwell, by intro y hy; cases hy⟩
      · obtain ⟨⟨ys, left'⟩, hys, h⟩ := Option.bind_eq_some_iff.mp h
        cases h
        exact List.forall_mem_cons.mpr ⟨hwell, ih hys⟩
      · cases h

include hvalue in
theorem wellRead_of_readMembers {n : Nat} {text rest : List Char} {ms : List (PyStr × Json)}
    (h : readMembers value n text = some (ms, rest)) : ∀ m ∈ ms, WellRead readFloat m.2 := by
  induction n generalizing text ms with
  | zero => cases h
  | succ n ih =>
      cases text with
      | nil => cases h
      | cons c text =>
          unfold readMembers at h
          split at h
          · cases h
          · obtain ⟨⟨k, left⟩, _, h⟩ := Option.bind_eq_some_iff.mp h
            dsimp only at h
            split at h
            · obtain ⟨⟨v, left'⟩, hv, h⟩ := Option.bind_eq_some_iff.mp h
              have hwell := hvalue _ _ _ hv
              dsimp only at h
              split at h
              · cases h
                exact List.forall_mem_cons.mpr ⟨hwell, by intro m hm; cases hm⟩
              · obtain ⟨⟨ms', left''⟩, hms, h⟩ := Option.bind_eq_some_iff.mp h
                cases h
                exact List.forall_mem_cons.mpr ⟨hwell, ih hms⟩
              · cases h
            · cases h

theorem WellRead.objectOf {ms : List (PyStr × Json)} (h : ∀ m ∈ ms, WellRead readFloat m.2) :
    WellRead readFloat (Json.objectOf ms) := by
  have hvalues (ms : List (PyStr × Json)) (d : Dict PyStr Json) (hms : ∀ m ∈ ms, WellRead readFloat m.2)
      (hd : ∀ k v, d.get? k = some v → WellRead readFloat v) :
      ∀ k v, (ms.foldl (fun d m => d.set m.1 m.2) d).get? k = some v → WellRead readFloat v := by
    induction ms generalizing d with
    | nil => exact hd
    | cons m ms ih =>
        obtain ⟨hm, hms⟩ := List.forall_mem_cons.mp hms
        refine ih (d.set m.1 m.2) hms fun k v hv => ?_
        rw [Dict.get?_set] at hv
        split at hv
        · cases hv
          exact hm
        · exact hd k v hv
  refine .obj (Dict.nodup _) fun m hm => ?_
  exact hvalues ms Dict.empty h (by intro k v hv; cases hv) m.1 m.2 (Dict.get?_of_mem hm)

theorem wellRead_of_readConstant {text rest : List Char} {j : Json} (h : readConstant text = some (j, rest)) :
    WellRead readFloat j := by
  obtain ⟨e, he, heq⟩ := Option.map_eq_some_iff.mp h
  have hmem := List.mem_of_find?_eq_some he
  simp only [constants, List.mem_cons, List.not_mem_nil, or_false] at hmem
  rcases hmem with rfl | rfl | rfl | rfl | rfl | rfl <;> cases heq
  · exact .null
  · exact .bool true
  · exact .bool false
  · exact .float rfl
  · exact .float rfl
  · exact .float rfl

theorem wellRead_of_readNumber (hback : ReadsBack readFloat) {text rest : List Char} {j : Json}
    (h : readNumber readFloat text = some (j, rest)) : WellRead readFloat j := by
  obtain ⟨_, _, h⟩ := Option.bind_eq_some_iff.mp h
  dsimp only at h
  split at h
  · cases h
    exact .int _
  · cases h
    exact .float (hback _)

theorem wellRead_of_readValue (hback : ReadsBack readFloat) {n : Nat} {text rest : List Char} {j : Json}
    (h : readValue readFloat n text = some (j, rest)) : WellRead readFloat j := by
  induction n generalizing text rest j with
  | zero => cases h
  | succ n ih =>
      have hvalue (text : List Char) (j : Json) (rest : List Char) (h : readValue readFloat n text = some (j, rest)) :
          WellRead readFloat j := ih h
      cases text with
      | nil => cases h
      | cons c text =>
          unfold readValue at h
          split at h
          · obtain ⟨⟨s, left⟩, _, h⟩ := Option.bind_eq_some_iff.mp h
            cases h
            exact .str s
          · split at h
            · split at h
              · cases h
                exact .arr (by intro x hx; cases hx)
              · obtain ⟨⟨xs, left⟩, hxs, h⟩ := Option.bind_eq_some_iff.mp h
                cases h
                exact .arr (wellRead_of_readItems hvalue hxs)
            · split at h
              · split at h
                · cases h
                  exact .obj List.nodup_nil (by intro m hm; cases hm)
                · obtain ⟨⟨ms, left⟩, hms, h⟩ := Option.bind_eq_some_iff.mp h
                  cases h
                  exact .objectOf (wellRead_of_readMembers hvalue hms)
              · cases hconstant : readConstant (c :: text) with
                | some found =>
                    rw [hconstant] at h
                    obtain rfl : found = (j, rest) := Option.some.inj h
                    exact wellRead_of_readConstant hconstant
                | none =>
                    rw [hconstant] at h
                    exact wellRead_of_readNumber hback h

/-- **What was read from a text** is well read. -/
theorem wellRead_of_loads (hback : ReadsBack readFloat) {text : String} {j : Json} (h : loads readFloat text = some j) :
    WellRead readFloat j := by
  obtain ⟨⟨found, rest⟩, hread, h⟩ := Option.bind_eq_some_iff.mp h
  dsimp only at h
  split at h
  · cases h
    exact wellRead_of_readValue hback hread
  · cases h

/-! ## What does not see a rereading -/

/-- The function does not see whether a value has been written and read back. -/
def Stable {α : Type} (readFloat : String → PyFloat) (o : DumpsOptions) (f : Json → α) : Prop :=
  ∀ j, WellRead readFloat j → f (reread readFloat o j) = f j

/-- One value shows the members of another, reread. -/
structure Rereads (readFloat : String → PyFloat) (o : DumpsOptions) (j j' : Json) : Prop where
  get?     : ∀ k, j'.get? k = (j.get? k).map (reread readFloat o)
  wellRead : ∀ k v, j.get? k = some v → WellRead readFloat v

theorem WellRead.rereads {j : Json} (h : WellRead readFloat j) : Rereads readFloat o j (reread readFloat o j) := by
  cases h with
  | null | bool _ | int _ | str _ | float _ | arr _ =>
      refine ⟨fun k => ?_, fun k v hv => by cases hv⟩
      rw [reread]
      rfl
  | obj hnd hmembers =>
      exact ⟨get?_reread readFloat o hnd, fun k v hv => hmembers _ ((Dict.lookup_eq_some_iff hnd).mp hv)⟩

section

variable {j j' : Json} {α : Type}

/-- What is made of a member, or of the default. -/
theorem Rereads.getD (h : Rereads readFloat o j j') {f : Json → α} (hf : Stable readFloat o f) (key : String) (default : Json) :
    f (j'.getD key default) = f (j.getD key default) := by
  rw [Json.getD, Json.getD, h.get? key]
  cases hv : j.get? key with
  | none => rfl
  | some v => exact hf v (h.wellRead key v hv)

theorem Rereads.map (h : Rereads readFloat o j j') {f : Json → α} (hf : Stable readFloat o f) (k : String) :
    (j'.get? k).map f = (j.get? k).map f := by
  rw [h.get? k]
  cases hv : j.get? k with
  | none => rfl
  | some v => exact congrArg some (hf v (h.wellRead k v hv))

theorem Rereads.bind (h : Rereads readFloat o j j') {f : Json → Option α} (hf : Stable readFloat o f) (k : String) :
    (j'.get? k).bind f = (j.get? k).bind f := by
  rw [h.get? k]
  cases hv : j.get? k with
  | none => rfl
  | some v => exact hf v (h.wellRead k v hv)

/-- What is made of the members is made of the value. -/
theorem stable_of_rereads {f : Json → α} (h : ∀ {j j' : Json}, Rereads readFloat o j j' → f j' = f j) :
    Stable readFloat o f := fun _ hj => h hj.rereads

/-- What is made of a scalar, and of no list or object. -/
theorem stable_of_scalars {f : Json → α} {x : α} (harr : ∀ items, f (.arr items) = x) (hobj : ∀ ms, f (.obj ms) = x) :
    Stable readFloat o f := by
  intro j hj
  cases hj with
  | null | bool _ | int _ | str _ => rw [reread]
  | float hread => rw [reread, hread]
  | arr _ => rw [reread, harr, harr]
  | obj _ _ =>
      rw [reread_obj, hobj]
      exact hobj _

theorem stable_str? : Stable readFloat o str? := stable_of_scalars (fun _ => rfl) fun _ => rfl

theorem stable_pyStr? : Stable readFloat o pyStr? := stable_of_scalars (fun _ => rfl) fun _ => rfl

end

end

end Json
end Lib
