import HermesPayments.Redact.Scan

/-!
# `HermesPayments.Redact.Patterns` — what the three patterns match

An invoice is a tag and every letter and digit after it (`invoicePattern_eq`); a macaroon path starts at a slash and
ends with the last `.macaroon` before a space or a colon (`macaroonPattern_some`, `macaroonPattern_none`); a hash is a
word of 64 lower-case hex digits (`hashPattern_eq`).
-/

namespace HermesPayments
namespace Redact

open Lib

/-! ## Character ranges -/

theorem isAlphanum_iff {c : Char} : c.isAlphanum = true ↔
    (48 ≤ c.toNat ∧ c.toNat ≤ 57) ∨ (65 ≤ c.toNat ∧ c.toNat ≤ 90) ∨ (97 ≤ c.toNat ∧ c.toNat ≤ 122) := by
  unfold Char.isAlphanum Char.isAlpha Char.isUpper Char.isLower Char.isDigit
  simp only [Bool.or_eq_true, Bool.and_eq_true, decide_eq_true_eq, UInt32.le_iff_toNat_le, ge_iff_le]
  show ((65 ≤ c.toNat ∧ c.toNat ≤ 90) ∨ (97 ≤ c.toNat ∧ c.toNat ≤ 122)) ∨ (48 ≤ c.toNat ∧ c.toNat ≤ 57) ↔ _
  omega

theorem hexChar_range {c : Char} (h : hexChar c = true) :
    (48 ≤ c.toNat ∧ c.toNat ≤ 57) ∨ (97 ≤ c.toNat ∧ c.toNat ≤ 102) := by
  simp only [hexChar, Bool.or_eq_true, Bool.and_eq_true, decide_eq_true_eq, Char.le_def,
    UInt32.le_iff_toNat_le] at h
  exact h

theorem invoiceChar_range {c : Char} (h : invoiceChar c = true) :
    (48 ≤ c.toNat ∧ c.toNat ≤ 57) ∨ (65 ≤ c.toNat ∧ c.toNat ≤ 90) ∨ (97 ≤ c.toNat ∧ c.toNat ≤ 122) ∨
      c.toNat = 304 ∨ c.toNat = 305 ∨ c.toNat = 383 ∨ c.toNat = 8490 := by
  rw [invoiceChar, Bool.or_eq_true, isAlphanum_iff] at h
  simp only [List.contains_eq_mem, List.mem_cons, List.not_mem_nil, or_false, decide_eq_true_eq] at h
  omega

theorem isAlphanum_of_hexChar {c : Char} (h : hexChar c = true) : c.isAlphanum = true := by
  have hrange := hexChar_range h
  rw [isAlphanum_iff]
  omega

theorem invoiceChar_of_hexChar {c : Char} (h : hexChar c = true) : invoiceChar c = true := by
  rw [invoiceChar, isAlphanum_of_hexChar h, Bool.true_or]

/-- The letter l in either case. -/
theorem toNat_of_toLower {c : Char} (h : c.toLower = 'l') : c.toNat = 76 ∨ c.toNat = 108 := by
  unfold Char.toLower at h
  split at h
  · have hvalue : (c.val + 32).toNat = 108 := congrArg Char.toNat h
    rename_i hupper
    simp only [ge_iff_le, UInt32.le_iff_toNat_le] at hupper
    have hletter : 65 ≤ c.toNat ∧ c.toNat ≤ 90 := hupper
    have hval : c.val.toNat = c.toNat := rfl
    rw [UInt32.toNat_add, hval, show (32 : UInt32).toNat = 32 from rfl] at hvalue
    omega
  · subst h
    exact .inr rfl

/-! ## Invoices -/

/-- A tag with a letter or digit after it. A third tag, `lnbcrt`, begins with the first. -/
def tagged (s : List Char) : Bool :=
  ((s.take 4).map Char.toLower = "lnbc".toList || (s.take 4).map Char.toLower = "lntb".toList)
    && (s.drop 4).head?.any invoiceChar

def invoiceText : List Char := "<INVOICE>".toList

theorem isAlpha_of_toLower {c : Char} (h : c.toLower.isLower = true) : c.isAlpha = true := by
  unfold Char.isAlpha
  unfold Char.toLower at h
  split at h
  · next hupper =>
    have hc : c.isUpper = true := by
      unfold Char.isUpper
      simpa using hupper
    rw [hc, Bool.true_or]
  · rw [h, Bool.or_true]

theorem invoiceChar_of_toLower {c : Char} (h : c.toLower.isLower = true) : invoiceChar c = true := by
  simp [invoiceChar, Char.isAlphanum, isAlpha_of_toLower h]

/-- The letters of a tag are letters in any case. -/
theorem invoiceChar_of_tag {m : List Char} {tag : String} (htag : tag.toList.all Char.isLower = true)
    (h : m.map Char.toLower = tag.toList) : ∀ c ∈ m, invoiceChar c = true := by
  intro c hc
  have hlower : c.toLower ∈ tag.toList := by
    rw [← h]
    exact List.mem_map_of_mem hc
  exact invoiceChar_of_toLower (List.all_eq_true.mp htag _ hlower)

theorem head?_any_eq {q : Char → Bool} (s : List Char) : s.head?.any q = decide ((s.takeWhile q).length ≠ 0) := by
  cases s with
  | nil => rfl
  | cons c s =>
      rw [List.takeWhile_cons]
      cases hc : q c <;> simp [hc]

theorem taggedInvoice_eq {tag : String} (htag : tag.toList.all Char.isLower = true) (s : List Char) :
    taggedInvoice tag s =
      if (s.take tag.length).map Char.toLower = tag.toList ∧ (s.drop tag.length).head?.any invoiceChar = true then
        some ((s.takeWhile invoiceChar).length, invoiceText)
      else none := by
  unfold taggedInvoice
  by_cases h : (s.take tag.length).map Char.toLower = tag.toList
  · have hall := invoiceChar_of_tag htag h
    have hlen : (s.take tag.length).length = tag.length := by
      have := congrArg List.length h
      rwa [List.length_map, String.length_toList] at this
    have hrun : (s.takeWhile invoiceChar).length = tag.length + ((s.drop tag.length).takeWhile invoiceChar).length := by
      conv_lhs => rw [← List.take_append_drop tag.length s]
      rw [List.takeWhile_append_of_pos hall, List.length_append, hlen]
    rw [head?_any_eq, hrun]
    simp only [if_pos h]
    cases ((s.drop tag.length).takeWhile invoiceChar).length with
    | zero => rw [if_neg (by simp)]
    | succ m => rw [if_pos ⟨h, by simp⟩]; rfl
  · rw [if_neg h, if_neg fun hand => h hand.1]

/-- The longer tag is the shorter one with a letter after it. -/
theorem tagged_of_bcrt {s : List Char} (h : (s.take 6).map Char.toLower = "lnbcrt".toList) : tagged s = true := by
  have hfour : (s.take 4).map Char.toLower = "lnbc".toList := by
    have := congrArg (List.take 4) h
    rwa [← List.map_take, List.take_take] at this
  have hfifth : ((s.drop 4).head?).map Char.toLower = some 'r' := by
    have := congrArg (fun l => l[4]?) h
    simpa [List.getElem?_take] using this
  have hnext : (s.drop 4).head?.any invoiceChar = true := by
    cases hhead : (s.drop 4).head? with
    | none =>
        rw [hhead] at hfifth
        cases hfifth
    | some c =>
        rw [hhead] at hfifth
        refine invoiceChar_of_toLower ?_
        rw [Option.some.inj hfifth]
        decide
  simp only [tagged, Bool.and_eq_true, Bool.or_eq_true, decide_eq_true_eq]
  exact ⟨.inl hfour, hnext⟩

theorem invoicePattern_eq (prev : Option Char) (s : List Char) :
    invoicePattern prev s =
      if tagged s = true then some ((s.takeWhile invoiceChar).length, invoiceText) else none := by
  have hbc := @taggedInvoice_eq "lnbc" (by decide) s
  have htb := @taggedInvoice_eq "lntb" (by decide) s
  have hbcrt := @taggedInvoice_eq "lnbcrt" (by decide) s
  by_cases ht : tagged s = true
  · rw [if_pos ht]
    simp only [tagged, Bool.and_eq_true, Bool.or_eq_true, decide_eq_true_eq] at ht
    obtain ⟨hl, hnext⟩ := ht
    by_cases hfirst : (s.take 4).map Char.toLower = "lnbc".toList
    · rw [if_pos ⟨hfirst, hnext⟩] at hbc
      simp [invoicePattern, hbc]
    · rw [if_neg (fun hand => hfirst hand.1)] at hbc
      rw [if_pos ⟨hl.resolve_left hfirst, hnext⟩] at htb
      simp [invoicePattern, hbc, htb]
  · rw [if_neg ht]
    have huntagged := ht
    simp only [tagged, Bool.and_eq_true, Bool.or_eq_true, decide_eq_true_eq, not_and] at huntagged
    rw [if_neg fun hand => huntagged (.inl hand.1) hand.2] at hbc
    rw [if_neg fun hand => huntagged (.inr hand.1) hand.2] at htb
    have hthird : ¬ ((s.take "lnbcrt".length).map Char.toLower = "lnbcrt".toList ∧
        (s.drop "lnbcrt".length).head?.any invoiceChar = true) := by
      rintro ⟨h, -⟩
      exact ht (tagged_of_bcrt h)
    rw [if_neg hthird] at hbcrt
    simp [invoicePattern, hbc, htb, hbcrt]

theorem invoicePattern_some {prev : Option Char} {s r : List Char} {n : Nat}
    (h : invoicePattern prev s = some (n, r)) :
    tagged s = true ∧ n = (s.takeWhile invoiceChar).length ∧ r = invoiceText := by
  rw [invoicePattern_eq] at h
  by_cases ht : tagged s = true
  · rw [if_pos ht] at h
    cases h
    exact ⟨ht, rfl, rfl⟩
  · rw [if_neg ht] at h
    cases h

/-! ## Macaroon paths -/

/-- `[^\s:]`. -/
def pathChar (c : Char) : Bool := !spaceChar c && c != ':'

theorem pathChar_of_invoiceChar {c : Char} (h : invoiceChar c = true) : pathChar c = true := by
  have hrange := invoiceChar_range h
  have hcolon : c ≠ ':' := by
    rintro rfl
    have hvalue : ':'.toNat = 58 := rfl
    omega
  simp [pathChar, spaceChar, hcolon]
  omega

def macaroonSuffix : List Char := ".macaroon".toList

def macaroonText : List Char := "<MACAROON_PATH>".toList

/-- The text is `.macaroon` and `z`, after the path characters `y`. -/
def PathTo (y z s : List Char) : Prop := s = y ++ (macaroonSuffix ++ z) ∧ ∀ c ∈ y, pathChar c = true

theorem lastOccurrence_some {suffix text : List Char} {k j : Nat} (h : lastOccurrence suffix text k = some j) :
    1 ≤ j ∧ suffix <+: text.drop j ∧ ∀ i, j < i → i ≤ k → ¬ suffix <+: text.drop i := by
  induction k with
  | zero => cases h
  | succ k ih =>
      rw [lastOccurrence] at h
      by_cases hk : suffix.isPrefixOf (text.drop (k + 1)) = true
      · rw [if_pos hk] at h
        cases h
        refine ⟨by omega, List.isPrefixOf_iff_prefix.mp hk, ?_⟩
        intro i hlt hle
        omega
      · rw [if_neg hk] at h
        obtain ⟨hpos, hpre, hlast⟩ := ih h
        refine ⟨hpos, hpre, ?_⟩
        intro i hlt hle
        by_cases hi : i = k + 1
        · subst hi
          exact fun hmore => hk (List.isPrefixOf_iff_prefix.mpr hmore)
        · exact hlast i hlt (by omega)

theorem lastOccurrence_none {suffix text : List Char} {k : Nat} (h : lastOccurrence suffix text k = none) :
    ∀ i, 1 ≤ i → i ≤ k → ¬ suffix <+: text.drop i := by
  induction k with
  | zero =>
      intro i hpos hle
      omega
  | succ k ih =>
      rw [lastOccurrence] at h
      by_cases hk : suffix.isPrefixOf (text.drop (k + 1)) = true
      · rw [if_pos hk] at h
        cases h
      · rw [if_neg hk] at h
        intro i hpos hle
        by_cases hi : i = k + 1
        · subst hi
          exact fun hmore => hk (List.isPrefixOf_iff_prefix.mpr hmore)
        · exact ih h i hpos (by omega)

theorem pathChar_macaroonSuffix : ∀ c ∈ macaroonSuffix, pathChar c = true := by
  exact forall_mem_of_all (by decide)

/-- `.macaroon` stands somewhere in the path characters at the head of a text. -/
theorem suffix_prefix_drop {s : List Char} {i : Nat} :
    macaroonSuffix <+: (s.takeWhile pathChar).drop i ↔ ∃ y z, y.length = i ∧ PathTo y z s := by
  constructor
  · rintro ⟨z, hz⟩
    have hsplit := List.takeWhile_append_dropWhile (p := pathChar) (l := s)
    refine ⟨(s.takeWhile pathChar).take i, z ++ s.dropWhile pathChar, ?_, ?_, ?_⟩
    · rw [List.length_take]
      have hlen := congrArg List.length hz
      rw [List.length_append, List.length_drop] at hlen
      have hsuffix : macaroonSuffix.length = 9 := rfl
      omega
    · rw [← List.append_assoc macaroonSuffix, hz, ← List.append_assoc, List.take_append_drop, hsplit]
    · intro c hc
      exact List.mem_takeWhile_imp (List.mem_of_mem_take hc)
  · rintro ⟨y, z, rfl, rfl, hy⟩
    rw [List.takeWhile_append_of_pos hy, List.drop_left, List.takeWhile_append_of_pos pathChar_macaroonSuffix]
    exact List.prefix_append _ _

/-- A macaroon path starts at a slash and ends with the last `.macaroon` that its path characters hold. -/
theorem macaroonPattern_some {prev : Option Char} {s r : List Char} {n : Nat}
    (h : macaroonPattern prev s = some (n, r)) :
    ∃ t y z, s = '/' :: t ∧ PathTo y z t ∧ y ≠ [] ∧ n = ('/' :: (y ++ macaroonSuffix)).length ∧ r = macaroonText ∧
      ∀ y' z', PathTo y' z' t → y'.length ≤ y.length := by
  unfold macaroonPattern at h
  split at h
  · rename_i t
    obtain ⟨k, hk, hfound⟩ := Option.map_eq_some_iff.mp h
    obtain ⟨hpos, hpre, hlast⟩ := lastOccurrence_some hk
    obtain ⟨y, z, rfl, hpath⟩ := suffix_prefix_drop.mp hpre
    cases hfound
    refine ⟨t, y, z, rfl, hpath, ?_, ?_, rfl, ?_⟩
    · rintro rfl
      cases hpos
    · rw [List.length_cons, List.length_append]
      show 1 + y.length + 9 = y.length + 9 + 1
      omega
    · intro y' z' hpath'
      by_contra hlt
      have hmore := suffix_prefix_drop.mpr ⟨y', z', rfl, hpath'⟩
      refine hlast y'.length (by omega) ?_ hmore
      obtain ⟨w, hw⟩ := hmore
      have hlen := congrArg List.length hw
      rw [List.length_append, List.length_drop] at hlen
      have hsuffix : macaroonSuffix.length = 9 := rfl
      show y'.length ≤ (t.takeWhile pathChar).length
      omega
  · cases h

theorem macaroonPattern_none {prev : Option Char} {t : List Char} (h : macaroonPattern prev ('/' :: t) = none) :
    ∀ y z, PathTo y z t → y = [] := by
  intro y z hpath
  have hnone : lastOccurrence macaroonSuffix (t.takeWhile pathChar) (t.takeWhile pathChar).length = none :=
    Option.map_eq_none_iff.mp h
  by_contra hy
  have hmore := suffix_prefix_drop.mpr ⟨y, z, rfl, hpath⟩
  refine lastOccurrence_none hnone y.length (List.length_pos_iff.mpr hy) ?_ hmore
  obtain ⟨w, hw⟩ := hmore
  have hlen := congrArg List.length hw
  rw [List.length_append, List.length_drop] at hlen
  have hsuffix : macaroonSuffix.length = 9 := rfl
  omega

/-! ## Hashes -/

section

variable (isAlnum : Char → Bool)

/-- `\w`. -/
def wordChar (c : Char) : Bool := isAlnum c || c == '_'

/-- What `\w` says of the ASCII characters. -/
def AsciiClass : Prop := ∀ c : Char, c.toNat < 128 → isAlnum c = c.isAlphanum

/-- No word goes over the place between the two characters. -/
def Bounded (next : Option Char) : Prop := next.any (wordChar isAlnum) = false

instance (next : Option Char) : Decidable (Bounded isAlnum next) := inferInstanceAs (Decidable (_ = _))

variable {isAlnum}

theorem hashPattern_eq {prev : Option Char} {w b : List Char} (hw : w.length = 64) :
    hashPattern isAlnum prev (w ++ b) =
      if Bounded isAlnum prev ∧ w.all hexChar = true ∧ Bounded isAlnum b.head? then
        some (64, w.take 8 ++ "...".toList)
      else none := by
  have htake : (w ++ b).take 64 = w := by rw [← hw, List.take_left]
  have hdrop : (w ++ b).drop 64 = b := by rw [← hw, List.drop_left]
  have height : (w ++ b).take 8 = w.take 8 := List.take_append_of_le_length (by omega)
  unfold hashPattern Bounded
  simp only [htake, hdrop, height, hw]
  congr 1
  have hword : (fun c => isAlnum c || c == '_') = wordChar isAlnum := rfl
  simp [hword, and_assoc]

theorem hashPattern_some {prev : Option Char} {s r : List Char} {n : Nat}
    (h : hashPattern isAlnum prev s = some (n, r)) :
    ∃ w b, s = w ++ b ∧ w.length = 64 ∧ n = 64 ∧ r = w.take 8 ++ "...".toList ∧
      Bounded isAlnum prev ∧ (∀ c ∈ w, hexChar c = true) ∧ Bounded isAlnum b.head? := by
  by_cases hlen : (s.take 64).length = 64
  · rw [← List.take_append_drop 64 s, hashPattern_eq hlen] at h
    split at h
    · rename_i hcond
      cases h
      obtain ⟨hleft, hhex, hright⟩ := hcond
      exact ⟨_, _, (List.take_append_drop 64 s).symm, hlen, rfl, rfl, hleft, List.all_eq_true.mp hhex, hright⟩
    · cases h
  · unfold hashPattern at h
    simp only [hlen, decide_false, Bool.and_false, Bool.false_and, Bool.false_eq_true, if_false] at h
    cases h

end

/-! ## How the patterns match -/

/-- A tag and what follows it are told by five letters and digits. -/
theorem tagged_split {s : List Char} (h : tagged s = true) :
    ∃ m s', s = m ++ s' ∧ m.length = 5 ∧ (∀ c ∈ m, invoiceChar c = true) ∧
      (∃ c, m.head? = some c ∧ c.toLower = 'l') ∧ ∀ s'', tagged (m ++ s'') = true := by
  simp only [tagged, Bool.and_eq_true, Bool.or_eq_true, decide_eq_true_eq] at h
  obtain ⟨htag, hnext⟩ := h
  have hlen : (s.take 4).length = 4 := by
    rcases htag with htag | htag
    all_goals
      have := congrArg List.length htag
      rwa [List.length_map] at this
  have hall : ∀ c ∈ s.take 4, invoiceChar c = true := by
    rcases htag with htag | htag
    · exact @invoiceChar_of_tag _ "lnbc" (by decide) htag
    · exact @invoiceChar_of_tag _ "lntb" (by decide) htag
  obtain ⟨c, s', hs⟩ : ∃ c s', s.drop 4 = c :: s' := by
    cases hdrop : s.drop 4 with
    | nil =>
        rw [hdrop] at hnext
        cases hnext
    | cons c s' => exact ⟨c, s', rfl⟩
  rw [hs] at hnext
  refine ⟨s.take 4 ++ [c], s', ?_, ?_, ?_, ?_, ?_⟩
  · rw [List.append_assoc, List.singleton_append, ← hs, List.take_append_drop]
  · rw [List.length_append, hlen]
    rfl
  · intro d hd
    rcases List.mem_append.mp hd with hd | hd
    · exact hall d hd
    · obtain rfl := List.mem_singleton.mp hd
      exact hnext
  · cases hhead : s.take 4 with
    | nil =>
        rw [hhead] at hlen
        cases hlen
    | cons d m =>
        rw [hhead] at htag
        refine ⟨d, rfl, ?_⟩
        rcases htag with htag | htag
        all_goals exact (List.cons_eq_cons.mp htag).1
  · intro s''
    have htake : (s.take 4 ++ [c] ++ s'').take 4 = s.take 4 := by
      rw [List.append_assoc, List.take_left' hlen]
    have hdrop : (s.take 4 ++ [c] ++ s'').drop 4 = c :: s'' := by
      rw [List.append_assoc, List.drop_left' hlen]
      rfl
    simp only [tagged, htake, hdrop, Bool.and_eq_true, Bool.or_eq_true, decide_eq_true_eq]
    exact ⟨htag, hnext⟩

theorem invoicePattern_valid : invoicePattern.Valid := by
  intro prev s n r h
  obtain ⟨ht, rfl, rfl⟩ := invoicePattern_some h
  obtain ⟨m, s', rfl, hm, hall, -⟩ := tagged_split ht
  rw [List.takeWhile_append_of_pos hall, List.length_append, List.length_append]
  have := (List.takeWhile_sublist invoiceChar (l := s')).length_le
  exact ⟨by omega, by omega, by decide⟩

theorem macaroonPattern_valid : macaroonPattern.Valid := by
  intro prev s n r h
  obtain ⟨t, y, z, rfl, ⟨rfl, -⟩, -, rfl, rfl, -⟩ := macaroonPattern_some h
  simp only [List.length_cons, List.length_append]
  exact ⟨by omega, by omega, by decide⟩

theorem hashPattern_valid (isAlnum : Char → Bool) : (hashPattern isAlnum).Valid := by
  intro prev s n r h
  obtain ⟨w, b, rfl, hw, rfl, rfl, -⟩ := hashPattern_some h
  rw [List.length_append]
  exact ⟨by omega, by omega, List.append_ne_nil_of_right_ne_nil _ (by decide)⟩

theorem invoice_mark (prev : Option Char) (s : List Char) (n : Nat) (r : List Char)
    (h : invoicePattern prev s = some (n, r)) : r.head? = some '<' := by
  obtain ⟨-, -, rfl⟩ := invoicePattern_some h
  rfl

theorem macaroon_mark (prev : Option Char) (s : List Char) (n : Nat) (r : List Char)
    (h : macaroonPattern prev s = some (n, r)) : r.head? = some '<' := by
  obtain ⟨_, _, _, -, -, -, -, rfl, -⟩ := macaroonPattern_some h
  rfl

/-- A replacement that starts with the mark shows nothing before it. -/
theorem Pattern.marked_of_head {p : Pattern} {mark : Char}
    (h : ∀ prev s n r, p prev s = some (n, r) → r.head? = some mark) : p.Marked mark := by
  intro prev m s r hmatch
  cases r with
  | nil => cases h _ _ _ _ hmatch
  | cons d r =>
      obtain rfl := Option.some.inj (h _ _ _ _ hmatch)
      exact ⟨[], r, rfl, List.nil_prefix⟩

theorem hashPattern_marked (isAlnum : Char → Bool) : (hashPattern isAlnum).Marked '.' := by
  intro prev m s r h
  obtain ⟨w, b, hs, hw, hn, rfl, -⟩ := hashPattern_some h
  obtain rfl : m = w := (List.append_inj hs (by omega)).1
  exact ⟨m.take 8, "..".toList, rfl, List.take_prefix 8 m⟩

end Redact
end HermesPayments
