import Mathlib.Data.List.Sort
import HermesPayments.Lib.Json.Tokens

/-!
# `Lib.Json.RoundTrip` — reading back what was written

`loads_dumps`: the text of a value reads back as `reread` of that value, which sorts the keys where the writer
did, drops all but the last of the members that share a key, and reads the text of each finite float again.
Nothing is assumed of the value; of the writer only that its separators are the two punctuation marks with space
after them.

The loops read the separated texts of the parts (`readItems_intercalate`, `readMembers_intercalate`), whatever
reads a part; the value lemma is then an induction over the value.
-/

namespace Lib
namespace Json

open Literal

/-- Induction over a value. -/
theorem induction {P : Json → Prop} (null : P .null) (bool : ∀ b, P (.bool b)) (int : ∀ n, P (.int n))
    (float : ∀ x, P (.float x)) (str : ∀ s, P (.str s)) (arr : ∀ items, (∀ x ∈ items, P x) → P (.arr items))
    (obj : ∀ members, (∀ m ∈ members, P m.2) → P (.obj members)) (j : Json) : P j := by
  refine Json.rec (motive_1 := P) (motive_2 := fun items => ∀ x ∈ items, P x)
    (motive_3 := fun members => ∀ m ∈ members, P m.2) (motive_4 := fun m => P m.2)
    null bool int float str (fun items => arr items) (fun members => obj members) ?_ ?_ ?_ ?_ ?_ j
  · exact nofun
  · exact fun x xs hx hxs => List.forall_mem_cons.mpr ⟨hx, hxs⟩
  · exact nofun
  · exact fun m ms hm hms => List.forall_mem_cons.mpr ⟨hm, hms⟩
  · exact fun _ _ hv => hv

/-! ## What is read back -/

/-- Reading the text of a float again. -/
def rereadFloat (readFloat : String → PyFloat) : PyFloat → PyFloat
  | .finite _ text _ => readFloat text
  | x => x

/-- The members in the order the writer puts them. -/
def DumpsOptions.order {κ α : Type} [LE κ] [DecidableLE κ] (o : DumpsOptions) (members : List (κ × α)) : List (κ × α) :=
  if o.sortKeys then members.insertionSort (fun a b => a.1 ≤ b.1) else members

section

variable (readFloat : String → PyFloat) (o : DumpsOptions)

mutual

/-- The value that the text of a value reads back as. -/
def reread : Json → Json
  | .float x     => .float (rereadFloat readFloat x)
  | .arr items   => .arr (rereadItems items)
  | .obj members => objectOf (o.order (rereadMembers members))
  | .null        => .null
  | .bool b      => .bool b
  | .int n       => .int n
  | .str s       => .str s

def rereadItems : List Json → List Json
  | []      => []
  | x :: xs => reread x :: rereadItems xs

def rereadMembers : List (PyStr × Json) → List (PyStr × Json)
  | []             => []
  | (k, v) :: rest => (k, reread v) :: rereadMembers rest

end

theorem rereadItems_eq (items : List Json) : rereadItems readFloat o items = items.map (reread readFloat o) := by
  induction items with
  | nil => rfl
  | cons x xs ih => rw [rereadItems, ih, List.map_cons]

theorem rereadMembers_eq (members : List (PyStr × Json)) :
    rereadMembers readFloat o members = members.map (fun m => (m.1, reread readFloat o m.2)) := by
  induction members with
  | nil => rfl
  | cons m ms ih =>
      obtain ⟨k, v⟩ := m
      rw [rereadMembers, ih, List.map_cons]

theorem dumpsItems_eq (items : List Json) : dumpsItems o items = items.map (dumps o) := by
  induction items with
  | nil => rfl
  | cons x xs ih => rw [dumpsItems, ih, List.map_cons]

theorem dumpsMembers_eq (members : List (PyStr × Json)) :
    dumpsMembers o members = members.map (fun m => (m.1, dumps o m.2)) := by
  induction members with
  | nil => rfl
  | cons m ms ih =>
      obtain ⟨k, v⟩ := m
      rw [dumpsMembers, ih, List.map_cons]

section

variable {κ κ' α β : Type} [LE κ] [DecidableLE κ] [LE κ'] [DecidableLE κ']

/-- Ordering the members looks at the order of their keys only. -/
theorem DumpsOptions.order_mapKeys {g : κ → κ'} (hg : ∀ j k, g j ≤ g k ↔ j ≤ k) (f : α → β) (members : List (κ × α)) :
    o.order (members.map (fun m => (g m.1, f m.2))) = (o.order members).map (fun m => (g m.1, f m.2)) := by
  unfold DumpsOptions.order
  split
  · have hsort := List.map_insertionSort (r := fun (a b : κ × α) => a.1 ≤ b.1)
      (s := fun (a b : κ' × β) => a.1 ≤ b.1) (fun m => (g m.1, f m.2)) members fun a _ b _ => (hg a.1 b.1).symm
    exact hsort.symm
  · rfl

theorem DumpsOptions.order_map (f : α → β) (members : List (κ × α)) :
    o.order (members.map (fun m => (m.1, f m.2))) = (o.order members).map (fun m => (m.1, f m.2)) :=
  o.order_mapKeys (g := id) (fun _ _ => Iff.rfl) f members

theorem DumpsOptions.mem_order {members : List (κ × α)} {m : κ × α} : m ∈ o.order members ↔ m ∈ members := by
  unfold DumpsOptions.order
  split
  · exact (List.perm_insertionSort _ members).mem_iff
  · exact Iff.rfl

end

/-- The text of an object, over its members in order. -/
theorem dumps_obj (members : List (PyStr × Json)) : dumps o (.obj members) = "\x7b" ++
    o.itemSeparator.intercalate ((o.order members).map
      (fun m => quote o.ensureAscii m.1 ++ o.keySeparator ++ dumps o m.2)) ++ "\x7d" := by
  have hfields : (if o.sortKeys then (dumpsMembers o members).insertionSort (fun a b => a.1 ≤ b.1)
      else dumpsMembers o members) = (o.order members).map (fun m => (m.1, dumps o m.2)) := by
    rw [dumpsMembers_eq, ← DumpsOptions.order_map]
    rfl
  rw [dumps, hfields, List.map_map]
  rfl

theorem reread_obj (members : List (PyStr × Json)) : reread readFloat o (.obj members)
    = objectOf ((o.order members).map (fun m => (m.1, reread readFloat o m.2))) := by
  rw [reread, rereadMembers_eq, DumpsOptions.order_map]

end

/-! ## Parts between separators -/

/-- A separator: the punctuation mark, then space. -/
def IsSeparator (mark : Char) (sep : String) : Prop :=
  ∃ space, sep.toList = mark :: space ∧ ∀ c ∈ space, isSpace c = true

structure DumpsOptions.Standard (o : DumpsOptions) : Prop where
  item : IsSeparator ',' o.itemSeparator
  key  : IsSeparator ':' o.keySeparator

/-- The separators that `json.dumps` takes by default. -/
theorem standard_default (sortKeys ensureAscii : Bool) :
    DumpsOptions.Standard { sortKeys := sortKeys, ensureAscii := ensureAscii } where
  item := ⟨[' '], (rfl : ", ".toList = [',', ' ']), List.forall_mem_singleton.mpr rfl⟩
  key  := ⟨[' '], (rfl : ": ".toList = [':', ' ']), List.forall_mem_singleton.mpr rfl⟩

/-- How the text of a value may start. -/
def Opens (text : List Char) : Prop := ∃ c cs, text = c :: cs ∧ isSpace c = false ∧ c ≠ ']'

/-- Whatever follows, the reader takes the text to be this value. -/
def Reads (value : List Char → Option (Json × List Char)) (text : List Char) (j : Json) : Prop :=
  ∀ rest, Stops rest → value (text ++ rest) = some (j, rest)

section

variable {value : List Char → Option (Json × List Char)} {rest : List Char}

theorem skipSpace_cons {c : Char} (hc : isSpace c = false) : skipSpace (c :: rest) = c :: rest := by
  rw [skipSpace, List.dropWhile_cons_of_neg (by simp [hc])]

theorem skipSpace_space {space : List Char} (h : ∀ c ∈ space, isSpace c = true) :
    skipSpace (space ++ rest) = skipSpace rest := by
  unfold skipSpace
  rw [List.dropWhile_append, List.dropWhile_eq_nil_iff.mpr h]
  rfl

theorem Opens.skipSpace {text : List Char} (h : Opens text) : Json.skipSpace (text ++ rest) = text ++ rest := by
  obtain ⟨c, cs, rfl, hc, _⟩ := h
  exact skipSpace_cons hc

theorem Opens.intercalate {text s : List Char} (h : Opens text) (texts : List (List Char)) :
    Opens (s.intercalate (text :: texts)) := by
  obtain ⟨c, cs, rfl, hc⟩ := h
  cases texts with
  | nil =>
      rw [List.intercalate_singleton]
      exact ⟨c, cs, rfl, hc⟩
  | cons t ts =>
      rw [List.intercalate_cons_cons, List.cons_append, List.cons_append]
      exact ⟨c, _, rfl, hc⟩

/-- Behind a separator, the next part starts where the space ends. -/
theorem Opens.skipSpace_intercalate {text space s r : List Char} (h : Opens text) (texts : List (List Char))
    (hspace : ∀ c ∈ space, isSpace c = true) :
    Json.skipSpace (space ++ (s.intercalate (text :: texts) ++ r)) = s.intercalate (text :: texts) ++ r := by
  rw [skipSpace_space hspace, (h.intercalate texts).skipSpace]

/-- The items of an array, whatever reads them. -/
theorem readItems_intercalate {sep : String} (hsep : IsSeparator ',' sep) (parts : List (List Char × Json))
    (hne : parts ≠ []) (hparts : ∀ p ∈ parts, Opens p.1 ∧ Reads value p.1 p.2) {n : Nat} (hn : parts.length ≤ n) :
    readItems value n (sep.toList.intercalate (parts.map Prod.fst) ++ ']' :: rest)
      = some (parts.map Prod.snd, rest) := by
  obtain ⟨space, hsep, hspace⟩ := hsep
  induction parts generalizing n with
  | nil => exact absurd rfl hne
  | cons p ps ih =>
      obtain ⟨m, rfl⟩ : ∃ m, n = m + 1 := ⟨n - 1, by simp at hn; omega⟩
      obtain ⟨hopens, hreads⟩ := hparts p List.mem_cons_self
      cases ps with
      | nil =>
          rw [List.map_singleton, List.intercalate_singleton, readItems, hreads _ (.cons rfl)]
          simp only [Option.bind_eq_bind, Option.bind_some]
          rw [skipSpace_cons rfl]
          rfl
      | cons q qs =>
          have hrest := ih (by simp) (fun p hp => hparts p (List.mem_cons_of_mem _ hp)) (n := m)
            (by simpa using hn)
          have hnext := (hparts q (by simp)).1.skipSpace_intercalate (s := sep.toList)
            (r := ']' :: rest) (qs.map Prod.fst) hspace
          rw [List.map_cons, List.map_cons, List.intercalate_cons_cons, hsep, List.append_assoc,
            List.append_assoc, List.cons_append, readItems, hreads _ (.cons rfl)]
          simp only [Option.bind_eq_bind, Option.bind_some]
          rw [skipSpace_cons rfl]
          simp only []
          rw [← hsep, hnext, ← List.map_cons, hrest]
          rfl

/-- The text of a member of an object. -/
def memberText (ascii : Bool) (keySep : String) (p : PyStr × List Char × Json) : List Char :=
  (quote ascii p.1).toList ++ keySep.toList ++ p.2.1

theorem opens_memberText (ascii : Bool) (keySep : String) (p : PyStr × List Char × Json) :
    Opens (memberText ascii keySep p) := by
  rw [memberText, toList_quote]
  exact ⟨dquote, _, rfl, rfl, by decide⟩

/-- One member: its key, the separator and what reads its value. -/
theorem readMembers_member {ascii : Bool} {keySep : String} (hkey : IsSeparator ':' keySep)
    {p : PyStr × List Char × Json} (hopens : Opens p.2.1) (hreads : Reads value p.2.1 p.2.2)
    (hrest : Stops rest) (n : Nat) : readMembers value (n + 1) (memberText ascii keySep p ++ rest) =
      match skipSpace rest with
      | '\x7d' :: rest => some ([(p.1, p.2.2)], rest)
      | ',' :: rest => do
          let (ms, rest) ← readMembers value n (skipSpace rest)
          some ((p.1, p.2.2) :: ms, rest)
      | _ => none := by
  obtain ⟨space, hsep, hspace⟩ := hkey
  rw [memberText, toList_quote, hsep, List.cons_append, List.cons_append, List.cons_append, List.append_assoc,
    List.append_assoc, List.append_assoc, List.singleton_append, readMembers, if_neg (by simp), readString_quoted]
  simp only [Option.bind_eq_bind, Option.bind_some, List.cons_append]
  rw [skipSpace_cons rfl]
  simp only []
  rw [skipSpace_space hspace, hopens.skipSpace, hreads rest hrest]
  rfl

/-- The members of an object, whatever reads their values. -/
theorem readMembers_intercalate {ascii : Bool} {sep keySep : String} (hsep : IsSeparator ',' sep)
    (hkey : IsSeparator ':' keySep) (parts : List (PyStr × List Char × Json)) (hne : parts ≠ [])
    (hparts : ∀ p ∈ parts, Opens p.2.1 ∧ Reads value p.2.1 p.2.2) {n : Nat} (hn : parts.length ≤ n) :
    readMembers value n (sep.toList.intercalate (parts.map (memberText ascii keySep)) ++ '\x7d' :: rest)
      = some (parts.map (fun p => (p.1, p.2.2)), rest) := by
  obtain ⟨space, hsep, hspace⟩ := hsep
  induction parts generalizing n with
  | nil => exact absurd rfl hne
  | cons p ps ih =>
      obtain ⟨m, rfl⟩ : ∃ m, n = m + 1 := ⟨n - 1, by simp at hn; omega⟩
      obtain ⟨hopens, hreads⟩ := hparts p List.mem_cons_self
      cases ps with
      | nil =>
          rw [List.map_singleton, List.intercalate_singleton,
            readMembers_member hkey hopens hreads (.cons rfl), skipSpace_cons rfl]
          rfl
      | cons q qs =>
          have hrest := ih (by simp) (fun p hp => hparts p (List.mem_cons_of_mem _ hp)) (n := m)
            (by simpa using hn)
          have hnext := (opens_memberText ascii keySep q).skipSpace_intercalate (s := sep.toList)
            (r := '\x7d' :: rest) (qs.map (memberText ascii keySep)) hspace
          rw [List.map_cons, List.map_cons, List.intercalate_cons_cons, List.append_assoc,
            List.append_assoc, readMembers_member hkey hopens hreads (by rw [hsep]; exact .cons rfl), hsep,
            List.cons_append, skipSpace_cons rfl]
          simp only []
          rw [← hsep, hnext, ← List.map_cons, hrest]
          rfl

end

/-! ## Values -/

section

variable {readFloat : String → PyFloat} {o : DumpsOptions} {rest : List Char}

/-- A number literal starts with a digit or a sign. -/
theorem scanNumber_head {text left : List Char} {parts : List Char × List Char × List Char}
    (h : scanNumber text = some (parts, left)) :
    ∃ c cs, text = c :: cs ∧ (c.isDigit = true ∨ c = '-' ∧ ∃ d ds, cs = d :: ds ∧ d.isDigit = true) := by
  have hwhole {cs whole left : List Char} (hw : scanWhole cs = some (whole, left)) :
      ∃ d ds, cs = d :: ds ∧ d.isDigit = true := by
    cases cs with
    | nil => cases hw
    | cons d ds =>
        refine ⟨d, ds, rfl, ?_⟩
        by_cases hd : d = '0'
        · rw [hd]
          rfl
        · rw [scanWhole_of_ne hd] at hw
          by_contra hdigit
          rw [scanDigits, List.takeWhile_cons_of_neg hdigit, if_pos rfl] at hw
          cases hw
  rw [scanNumber_eq] at h
  obtain ⟨⟨whole, r⟩, hw, _⟩ := Option.map_eq_some_iff.mp h
  cases text with
  | nil => cases hw
  | cons c cs =>
      refine ⟨c, cs, rfl, ?_⟩
      by_cases hc : c = '-'
      · subst hc
        exact .inr ⟨rfl, hwhole hw⟩
      · have hminus : scanMinus (c :: cs) = ([], c :: cs) := by simp [scanMinus, hc]
        rw [hminus] at hw
        obtain ⟨d, ds, heq, hd⟩ := hwhole hw
        obtain ⟨rfl, rfl⟩ := List.cons.inj heq
        exact .inl hd

theorem isDigit_ne {c d : Char} (hc : c.isDigit = true) (hd : d.isDigit = false) : c ≠ d := by
  rintro rfl
  rw [hc] at hd
  cases hd

theorem opens_number {text left : List Char} {parts : List Char × List Char × List Char}
    (h : scanNumber text = some (parts, left)) : Opens text := by
  obtain ⟨c, cs, rfl, hc⟩ := scanNumber_head h
  refine ⟨c, cs, rfl, ?_⟩
  rcases hc with hc | ⟨rfl, _⟩
  · simp [isSpace, isDigit_ne hc (d := ' ') rfl, isDigit_ne hc (d := '\t') rfl, isDigit_ne hc (d := '\n') rfl,
      isDigit_ne hc (d := '\r') rfl, isDigit_ne hc (d := ']') rfl]
  · exact ⟨rfl, by decide⟩

/-- A number literal is no constant. -/
theorem readConstant_number {text left : List Char} {parts : List Char × List Char × List Char}
    (h : scanNumber text = some (parts, left)) : readConstant (text ++ rest) = none := by
  obtain ⟨c, cs, rfl, hc⟩ := scanNumber_head h
  rcases hc with hc | ⟨rfl, d, ds, rfl, hd⟩
  · have hne {d : Char} (hd : d.isDigit = false) : ¬ d = c := (isDigit_ne hc hd).symm
    simp [readConstant, constants, hne (d := 'n') rfl, hne (d := 't') rfl, hne (d := 'f') rfl,
      hne (d := 'N') rfl, hne (d := 'I') rfl, hne (d := '-') rfl]
  · simp [readConstant, constants, (isDigit_ne hd (d := 'I') rfl).symm]

/-- A number literal is no string, array, object or constant. -/
theorem readValue_number {text left : List Char} {parts : List Char × List Char × List Char}
    (h : scanNumber text = some (parts, left)) (n : Nat) :
    readValue readFloat (n + 1) (text ++ rest) = readNumber readFloat (text ++ rest) := by
  have hconstant : readConstant (text ++ rest) = none := readConstant_number h
  obtain ⟨c, cs, rfl, hc⟩ := scanNumber_head h
  have hquote : ¬ c = dquote ∧ ¬ c = '[' ∧ ¬ c = '\x7b' := by
    rcases hc with hc | ⟨rfl, _⟩
    · exact ⟨isDigit_ne hc rfl, isDigit_ne hc rfl, isDigit_ne hc rfl⟩
    · decide
  rw [List.cons_append] at hconstant ⊢
  rw [readValue, if_neg hquote.1, if_neg hquote.2.1, if_neg hquote.2.2, hconstant]
  rfl

theorem scanNumber_of_isFloat {text : List Char} (h : isFloat text = true) :
    ∃ parts, scanNumber text = some (parts, []) := by
  unfold isFloat at h
  split at h
  · next hscan => exact ⟨_, hscan⟩
  · cases h

theorem opens_dumps (j : Json) : Opens (dumps o j).toList := by
  cases j with
  | null =>
      rw [dumps]
      exact ⟨'n', "ull".toList, rfl, rfl, by decide⟩
  | bool b =>
      cases b with
      | true =>
          rw [dumps]
          exact ⟨'t', "rue".toList, rfl, rfl, by decide⟩
      | false =>
          rw [dumps]
          exact ⟨'f', "alse".toList, rfl, rfl, by decide⟩
  | int n =>
      rw [dumps]
      exact opens_number (scanNumber_int n)
  | float x =>
      rw [dumps]
      cases x with
      | finite exact text literal =>
          obtain ⟨parts, hscan⟩ := scanNumber_of_isFloat literal
          exact opens_number hscan
      | nan => exact ⟨'N', "aN".toList, rfl, rfl, by decide⟩
      | inf => exact ⟨'I', "nfinity".toList, rfl, rfl, by decide⟩
      | negInf => exact ⟨'-', "Infinity".toList, rfl, rfl, by decide⟩
  | str s =>
      rw [dumps, toList_quote]
      exact ⟨dquote, _, rfl, rfl, by decide⟩
  | arr items =>
      rw [dumps, String.toList_append, String.toList_append]
      exact ⟨'[', _, rfl, rfl, by decide⟩
  | obj members =>
      rw [dumps_obj, String.toList_append, String.toList_append]
      exact ⟨'\x7b', _, rfl, rfl, by decide⟩

/-- The text of an item is shorter than the text of its array. -/
theorem length_le_intercalate (sep : List Char) {texts : List (List Char)} {text : List Char} (h : text ∈ texts) :
    text.length ≤ (sep.intercalate texts).length := by
  induction texts with
  | nil => cases h
  | cons t ts ih =>
      cases ts with
      | nil =>
          rw [List.intercalate_singleton, List.mem_singleton.mp h]
      | cons t' ts' =>
          rw [List.intercalate_cons_cons, List.length_append, List.length_append]
          rcases List.mem_cons.mp h with rfl | h
          · omega
          · have := ih h
            omega

theorem length_parts_le_intercalate (sep : List Char) {texts : List (List Char)} (h : ∀ t ∈ texts, Opens t) :
    texts.length ≤ (sep.intercalate texts).length := by
  have hpos {t : List Char} (ht : Opens t) : 1 ≤ t.length := by
    obtain ⟨c, cs, rfl, _⟩ := ht
    simp
  induction texts with
  | nil => exact Nat.le_refl _
  | cons t ts ih =>
      have ht := hpos (h t List.mem_cons_self)
      cases ts with
      | nil =>
          rw [List.intercalate_singleton]
          exact ht
      | cons t' ts' =>
          have hrest := ih fun t ht => h t (List.mem_cons_of_mem _ ht)
          rw [List.intercalate_cons_cons, List.length_append, List.length_append, List.length_cons]
          omega

/-- An array, whatever reads its items. -/
theorem readValue_arr {n : Nat} {sep : String} (hsep : IsSeparator ',' sep) (parts : List (List Char × Json))
    (hparts : ∀ p ∈ parts, Opens p.1 ∧ Reads (readValue readFloat n) p.1 p.2) :
    readValue readFloat (n + 1) ('[' :: (sep.toList.intercalate (parts.map Prod.fst) ++ ']' :: rest))
      = some (.arr (parts.map Prod.snd), rest) := by
  rw [readValue, if_neg (by decide), if_pos rfl]
  cases parts with
  | nil =>
      rw [List.map_nil, List.intercalate_nil, List.nil_append, skipSpace_cons rfl]
      rfl
  | cons p ps =>
      have hlen : (p :: ps).length ≤ (sep.toList.intercalate ((p :: ps).map Prod.fst) ++ ']' :: rest).length + 1 := by
        have hle : ((p :: ps).map Prod.fst).length ≤ _ := length_parts_le_intercalate sep.toList fun t ht => by
          obtain ⟨q, hq, rfl⟩ := List.mem_map.mp ht
          exact (hparts q hq).1
        rw [List.length_map] at hle
        rw [List.length_append]
        omega
      have hopens : Opens (sep.toList.intercalate ((p :: ps).map Prod.fst)) :=
        (hparts p List.mem_cons_self).1.intercalate _
      rw [hopens.skipSpace]
      split
      · next heq =>
        -- no item starts with the closing bracket
        obtain ⟨c, cs, htext, _, hne⟩ := hopens
        rw [htext] at heq
        exact absurd (List.cons.inj heq).1 hne
      · rw [readItems_intercalate hsep (p :: ps) (by simp) hparts hlen]
        rfl

/-- An object, whatever reads the values of its members. -/
theorem readValue_obj {n : Nat} {ascii : Bool} {sep keySep : String} (hsep : IsSeparator ',' sep)
    (hkey : IsSeparator ':' keySep) (parts : List (PyStr × List Char × Json))
    (hparts : ∀ p ∈ parts, Opens p.2.1 ∧ Reads (readValue readFloat n) p.2.1 p.2.2) :
    readValue readFloat (n + 1)
        ('\x7b' :: (sep.toList.intercalate (parts.map (memberText ascii keySep)) ++ '\x7d' :: rest))
      = some (objectOf (parts.map (fun p => (p.1, p.2.2))), rest) := by
  rw [readValue, if_neg (by decide), if_neg (by decide), if_pos rfl]
  cases parts with
  | nil =>
      rw [List.map_nil, List.intercalate_nil, List.nil_append, skipSpace_cons rfl]
      rfl
  | cons p ps =>
      have hlen : (p :: ps).length ≤
          (sep.toList.intercalate ((p :: ps).map (memberText ascii keySep)) ++ '\x7d' :: rest).length + 1 := by
        have hle : ((p :: ps).map (memberText ascii keySep)).length ≤ _ :=
          length_parts_le_intercalate sep.toList fun t ht => by
            obtain ⟨q, _, rfl⟩ := List.mem_map.mp ht
            exact opens_memberText ascii keySep q
        rw [List.length_map] at hle
        rw [List.length_append]
        omega
      have hopens : Opens (sep.toList.intercalate ((p :: ps).map (memberText ascii keySep))) :=
        (opens_memberText ascii keySep p).intercalate _
      rw [hopens.skipSpace]
      split
      · next heq =>
        -- a member starts with a quote
        rw [List.map_cons, memberText, toList_quote] at heq
        cases ps with
        | nil =>
            rw [List.map_nil, List.intercalate_singleton] at heq
            exact absurd (List.cons.inj heq).1 (by decide)
        | cons q qs =>
            rw [List.map_cons, List.intercalate_cons_cons] at heq
            exact absurd (List.cons.inj heq).1 (by decide)
      · rw [readMembers_intercalate hsep hkey (p :: ps) (by simp) hparts hlen]
        rfl

/-- The text of an array, over the texts of its items. -/
theorem toList_dumps_arr (readFloat : String → PyFloat) (items : List Json) :
    (dumps o (.arr items)).toList = '[' :: (o.itemSeparator.toList.intercalate
      ((items.map (fun x => ((dumps o x).toList, reread readFloat o x))).map Prod.fst) ++ [']']) := by
  have hparts : (items.map (fun x => ((dumps o x).toList, reread readFloat o x))).map Prod.fst
      = (items.map (dumps o)).map String.toList := by
    rw [List.map_map, List.map_map]
    rfl
  rw [dumps, dumpsItems_eq, String.toList_append, String.toList_append, String.toList_intercalate, hparts]
  rfl

/-- The text of an object, over the texts of its members. -/
theorem toList_dumps_obj (readFloat : String → PyFloat) (members : List (PyStr × Json)) :
    (dumps o (.obj members)).toList = '\x7b' :: (o.itemSeparator.toList.intercalate
      (((o.order members).map (fun e => (e.1, (dumps o e.2).toList, reread readFloat o e.2))).map
        (memberText o.ensureAscii o.keySeparator)) ++ ['\x7d']) := by
  have hmember : (String.toList ∘ fun e : PyStr × Json => quote o.ensureAscii e.1 ++ o.keySeparator ++ dumps o e.2)
      = memberText o.ensureAscii o.keySeparator ∘ fun e => (e.1, (dumps o e.2).toList, reread readFloat o e.2) := by
    funext e
    simp [memberText]
  rw [dumps_obj, String.toList_append, String.toList_append, String.toList_intercalate, List.map_map,
    List.map_map, hmember]
  rfl

/-- **The text of a value is read as that value, reread**, whatever follows it. -/
theorem reads_dumps (ho : o.Standard) (j : Json) : ∀ n, (dumps o j).toList.length ≤ n →
    Reads (readValue readFloat n) (dumps o j).toList (reread readFloat o j) := by
  induction j using Json.induction with
  | null =>
      rintro (_ | n) hn rest _
      · rw [dumps] at hn
        exact absurd hn (by decide)
      · rw [dumps, reread]
        rfl
  | bool b =>
      rintro (_ | n) hn rest _
      · cases b <;> rw [dumps] at hn <;> exact absurd hn (by decide)
      · cases b <;> rw [dumps, reread] <;> rfl
  | int k =>
      intro n hn rest hrest
      rw [dumps, reread] at *
      obtain ⟨c, cs, htext, _⟩ := opens_number (scanNumber_int k)
      obtain ⟨m, rfl⟩ : ∃ m, n = m + 1 := ⟨n - 1, by rw [htext] at hn; simp at hn; omega⟩
      rw [readValue_number (scanNumber_int k), readNumber_int k hrest]
  | float x =>
      intro n hn rest hrest
      rw [dumps, reread] at *
      cases x with
      | finite exact text literal =>
          obtain ⟨parts, hscan⟩ := scanNumber_of_isFloat literal
          obtain ⟨c, cs, htext, _⟩ := opens_number hscan
          obtain ⟨m, rfl⟩ : ∃ m, n = m + 1 :=
            ⟨n - 1, by rw [PyFloat.jsonText, htext] at hn; simp at hn; omega⟩
          rw [PyFloat.jsonText, readValue_number hscan, readNumber_float literal hrest]
          rfl
      | nan | inf | negInf =>
          cases n with
          | zero => cases hn
          | succ n => rfl
  | str s =>
      rintro (_ | n) hn rest _
      · rw [dumps, toList_quote] at hn
        cases hn
      · rw [dumps, reread, toList_quote, List.cons_append, readValue, if_pos rfl, List.append_assoc,
          List.singleton_append, readString_quoted]
        rfl
  | arr items ih =>
      intro n hn rest _
      rw [toList_dumps_arr readFloat] at hn ⊢
      obtain ⟨m, rfl⟩ : ∃ m, n = m + 1 := ⟨n - 1, by simp at hn; omega⟩
      rw [List.cons_append, List.append_assoc, List.singleton_append, readValue_arr ho.item, reread,
        rereadItems_eq, List.map_map]
      · rfl
      · rintro p hp
        obtain ⟨x, hx, rfl⟩ := List.mem_map.mp hp
        refine ⟨opens_dumps x, ih x hx m ?_⟩
        have hmem := length_le_intercalate o.itemSeparator.toList (List.mem_map_of_mem (f := Prod.fst) hp)
        rw [List.length_cons, List.length_append] at hn
        exact hmem.trans (by omega)
  | obj members ih =>
      intro n hn rest _
      rw [toList_dumps_obj readFloat] at hn ⊢
      obtain ⟨m, rfl⟩ : ∃ m, n = m + 1 := ⟨n - 1, by simp at hn; omega⟩
      rw [List.cons_append, List.append_assoc, List.singleton_append, readValue_obj ho.item ho.key, reread_obj,
        List.map_map]
      · rfl
      · rintro p hp
        obtain ⟨e, he, rfl⟩ := List.mem_map.mp hp
        refine ⟨opens_dumps e.2, ih e (o.mem_order.mp he) m ?_⟩
        have hmem := length_le_intercalate o.itemSeparator.toList
          (List.mem_map_of_mem (f := memberText o.ensureAscii o.keySeparator) hp)
        rw [memberText, List.length_append] at hmem
        rw [List.length_cons, List.length_append] at hn
        simp only at hmem ⊢
        omega

/-- **A document reads back.** -/
theorem loads_dumps (ho : o.Standard) (j : Json) : loads readFloat (dumps o j) = some (reread readFloat o j) := by
  have hopens := opens_dumps (o := o) j
  have hstart : skipSpace (dumps o j).toList = (dumps o j).toList := by
    have hskip : skipSpace ((dumps o j).toList ++ []) = (dumps o j).toList ++ [] := hopens.skipSpace
    rwa [List.append_nil] at hskip
  have hread : readValue readFloat ((dumps o j).toList.length + 1) ((dumps o j).toList ++ []) =
      some (reread readFloat o j, []) := reads_dumps ho j _ (by omega) [] .nil
  rw [List.append_nil] at hread
  rw [loads, hstart]
  simp only [Option.bind_eq_bind]
  rw [hread]
  rfl

end

end Json
end Lib
