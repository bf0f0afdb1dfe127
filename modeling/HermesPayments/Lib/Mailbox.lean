import HermesPayments.Lib.Run
import Mathlib.Data.List.TakeWhile
import Mathlib.Logic.Function.Basic

/-!
# `Lib.Mailbox` — members that post to each other, each with a mailbox of its own

A member joins once. What one posts is put at the end of every other member's box, and a member takes a prefix of its
own. Along every run, what a member has taken followed by what is left in its box is what the others have posted since
it joined, in order (`Moves.exactly_once`): nothing is lost, nothing comes twice, and nobody gets its own posts.
-/

namespace Lib

variable {κ μ : Type}

/-- What happens to the members of a mailbox system. -/
inductive Post (κ μ : Type) where
  | join (p : κ)
  | post (p : κ) (m : μ)
  /-- `p` takes the messages `ms` out of its box. -/
  | take (p : κ) (ms : List μ)

/-- The box of each member. -/
abbrev Mailboxes (κ μ : Type) := κ → Option (List μ)

namespace Post

variable [DecidableEq κ]

def isJoin (p : κ) : Post κ μ → Bool
  | .join q => q = p
  | _       => false

/-- The message is posted by somebody other than `p`. -/
def byOther (p : κ) : Post κ μ → Option μ
  | .post q m => if q = p then none else some m
  | _         => none

def takenBy (p : κ) : Post κ μ → List μ
  | .take q ms => if q = p then ms else []
  | _          => []

end Post

section

variable [DecidableEq κ]

/-- What `p` has taken so far. -/
def taken (p : κ) (h : List (Post κ μ)) : List μ := h.flatMap (Post.takenBy p)

/-- What the others have posted since `p` joined. -/
def dueTo (p : κ) (h : List (Post κ μ)) : List μ := (h.dropWhile (fun i => !i.isJoin p)).filterMap (Post.byOther p)

/-- The steps of a mailbox system. -/
inductive Moves : Mailboxes κ μ → Post κ μ → Mailboxes κ μ → Prop
  | join {s : Mailboxes κ μ} {p : κ} (hnew : s p = none) : Moves s (.join p) (Function.update s p (some []))
  | post (s : Mailboxes κ μ) (p : κ) (m : μ) :
      Moves s (.post p m) (fun q => if q = p then s q else (s q).map (· ++ [m]))
  | take {s : Mailboxes κ μ} {p : κ} {ms rest : List μ} (hbox : s p = some (ms ++ rest)) :
      Moves s (.take p ms) (Function.update s p (some rest))

/-- Nobody has joined. -/
def Unjoined (s : Mailboxes κ μ) : Prop := ∀ p, s p = none

/-! ## One more event -/

variable {p : κ} {h : List (Post κ μ)} {i : Post κ μ}

theorem taken_snoc : taken p (h ++ [i]) = taken p h ++ i.takenBy p := by
  simp [taken]

/-- A member that has joined is owed whatever another posts next. -/
theorem dueTo_snoc (hjoined : ∃ j ∈ h, j.isJoin p = true) :
    dueTo p (h ++ [i]) = dueTo p h ++ (i.byOther p).toList := by
  have hne : h.dropWhile (fun i => !i.isJoin p) ≠ [] := by
    intro hnil
    obtain ⟨j, hj, hjoin⟩ := hjoined
    have hall := List.dropWhile_eq_nil_iff.mp hnil j hj
    simp [hjoin] at hall
  unfold dueTo
  rw [List.dropWhile_append, if_neg (by simpa using hne), List.filterMap_append]
  cases hi : i.byOther p <;> simp [hi]

/-- Nothing is owed to a member at the moment it joins. -/
theorem dueTo_join (hunjoined : ∀ j ∈ h, j.isJoin p = false) : dueTo p (h ++ [.join p]) = [] := by
  have hdrop : h.dropWhile (fun i => !i.isJoin p) = [] := by
    rw [List.dropWhile_eq_nil_iff]
    intro j hj
    rw [hunjoined j hj]
    rfl
  unfold dueTo
  rw [List.dropWhile_append, if_pos (by rw [hdrop]; rfl)]
  simp [Post.isJoin, Post.byOther]

/-- What a step does to one box: the member stays out, it joins, or what is taken out and what is put in add up. -/
theorem Moves.box {s s' : Mailboxes κ μ} (hmove : Moves s i s') (p : κ) :
    (s p = none ∧ s' p = none ∧ i.isJoin p = false ∧ i.takenBy p = []) ∨
    (s p = none ∧ s' p = some [] ∧ i = .join p) ∨
    (∃ old new, s p = some old ∧ s' p = some new ∧ i.takenBy p ++ new = old ++ (i.byOther p).toList) := by
  cases hmove with
  | @join q hnew =>
      by_cases hqp : q = p
      · subst hqp
        exact .inr (.inl ⟨hnew, by simp, rfl⟩)
      · have hsame : Function.update s q (some []) p = s p := Function.update_of_ne (Ne.symm hqp) _ _
        cases hp : s p with
        | none     => exact .inl ⟨rfl, hsame.trans hp, by simp [Post.isJoin, hqp], rfl⟩
        | some old => exact .inr (.inr ⟨old, old, rfl, hsame.trans hp, by simp [Post.takenBy, Post.byOther]⟩)
  | post q m =>
      cases hp : s p with
      | none     => exact .inl ⟨rfl, by simp [hp], rfl, rfl⟩
      | some old =>
          by_cases hpq : p = q
          · exact .inr (.inr ⟨old, old, rfl, by simp [← hpq, hp], by simp [Post.takenBy, Post.byOther, hpq]⟩)
          · refine .inr (.inr ⟨old, old ++ [m], rfl, by simp [hpq, hp], ?_⟩)
            simp [Post.takenBy, Post.byOther, Ne.symm hpq]
  | @take q ms rest hbox =>
      by_cases hqp : q = p
      · subst hqp
        exact .inr (.inr ⟨ms ++ rest, rest, hbox, by simp, by simp [Post.takenBy, Post.byOther]⟩)
      · have hsame : Function.update s q (some rest) p = s p := Function.update_of_ne (Ne.symm hqp) _ _
        cases hp : s p with
        | none     => exact .inl ⟨rfl, hsame.trans hp, rfl, by simp [Post.takenBy, hqp]⟩
        | some old =>
            exact .inr (.inr ⟨old, old, rfl, hsame.trans hp, by simp [Post.takenBy, Post.byOther, hqp]⟩)

/-! ## Every run -/

/-- How a member's box and the past agree: before it joins it has taken nothing, and from then on what it has taken and
    what it has left make up what it is owed. -/
structure Owes (p : κ) (h : List (Post κ μ)) (s : Mailboxes κ μ) : Prop where
  unjoined : s p = none → (∀ j ∈ h, j.isJoin p = false) ∧ taken p h = []
  joined   : ∀ box, s p = some box → (∃ j ∈ h, j.isJoin p = true) ∧ taken p h ++ box = dueTo p h

theorem Owes.moves {s s' : Mailboxes κ μ} (ho : Owes p h s) (hmove : Moves s i s') : Owes p (h ++ [i]) s' := by
  rcases hmove.box p with ⟨hs, hs', hjoin, htake⟩ | ⟨hs, hs', rfl⟩ | ⟨old, new, hs, hs', hsum⟩
  · obtain ⟨hnone, htaken⟩ := ho.unjoined hs
    refine ⟨?_, by simp [hs']⟩
    intro _
    refine ⟨?_, by rw [taken_snoc, htaken, htake]; rfl⟩
    intro j hj
    rcases List.mem_append.mp hj with hj | hj
    · exact hnone j hj
    · rw [List.mem_singleton.mp hj]
      exact hjoin
  · obtain ⟨hnone, htaken⟩ := ho.unjoined hs
    refine ⟨by simp [hs'], ?_⟩
    intro box hbox
    obtain rfl : [] = box := by simpa [hs'] using hbox
    refine ⟨⟨.join p, by simp, by simp [Post.isJoin]⟩, ?_⟩
    rw [taken_snoc, htaken, dueTo_join hnone]
    rfl
  · obtain ⟨⟨j, hj, hjoin⟩, heq⟩ := ho.joined old hs
    refine ⟨by simp [hs'], ?_⟩
    intro box hbox
    obtain rfl : new = box := by simpa [hs'] using hbox
    refine ⟨⟨j, List.mem_append_left _ hj, hjoin⟩, ?_⟩
    calc taken p (h ++ [i]) ++ new
        = taken p h ++ (i.takenBy p ++ new) := by rw [taken_snoc, List.append_assoc]
      _ = taken p h ++ old ++ (i.byOther p).toList := by rw [hsum, List.append_assoc]
      _ = dueTo p (h ++ [i]) := by rw [heq, dueTo_snoc ⟨j, hj, hjoin⟩]

/-- **Exactly once, in order.** In every run, what a member has taken and what is left in its box are what the others
    have posted since it joined. -/
theorem Moves.exactly_once {h : List (Event (Mailboxes κ μ) (Post κ μ))} {s : Mailboxes κ μ}
    (hrun : Run Unjoined Moves h s) {box : List μ} (hbox : s p = some box) :
    taken p (h.map Event.seen) ++ box = dueTo p (h.map Event.seen) := by
  have howes : Owes p (h.map Event.seen) s := by
    refine hrun.history (P := fun h s => Owes p (h.map Event.seen) s) ?_ ?_
    · intro s hs
      exact ⟨fun _ => ⟨by simp, rfl⟩, by simp [hs p]⟩
    · intro h s i s' _ ho hmove
      rw [List.map_append]
      exact ho.moves hmove
  exact (howes.joined box hbox).2

end

end Lib
