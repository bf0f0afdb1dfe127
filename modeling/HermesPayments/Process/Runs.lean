import HermesPayments.Process.Commands

/-!
# `HermesPayments.Process.Runs` — what holds along every run of a node

`NodeRun.sound`: after any sequence of commands, kills, starts and failed starts, the files are in order, and
a running process is ready and synced with them. The intents about which nothing is promised are exactly those
that a kill of the run has lost.
-/

namespace HermesPayments

open Lib PaymentState

/-- An intent that some kill of the run has lost. -/
def Lost (h : List (Event Node NodeEvent)) (id : String) : Prop := ∃ e ∈ h, e.seen.loses id

/-- The files are in order, and so is the process over them. -/
def Node.Sound (lost : String → Prop) (n : Node) : Prop :=
  match n.proc with
  | none   => Durable lost ⟨n.world, none⟩
  | some s => Ready lost s ⟨n.world, none⟩ ∧ Synced s n.world

section

variable {lost lost' : String → Prop} {config : ProcessConfig} {h : List (Event Node NodeEvent)} {n n' : Node}

theorem Durable.of_lost {t : Watched} (hd : Durable lost t) (hsub : ∀ id, lost id → lost' id) :
    Durable lost' t :=
  ⟨hd.records, hd.inbox, fun id hl => hd.once id (fun hid => hl (hsub id hid)),
    fun id hl => hd.known id (fun hid => hl (hsub id hid)),
    fun id hl => hd.spent id (fun hid => hl (hsub id hid))⟩

theorem Ready.of_lost {s : ProcessState} {t : Watched} (hr : Ready lost s t) (hsub : ∀ id, lost id → lost' id) :
    Ready lost' s t :=
  ⟨⟨hr.toDurable.of_lost hsub, hr.store, hr.consistent, hr.file,
    fun id hl => hr.memory id (fun hid => hl (hsub id hid))⟩, hr.pending⟩

/-- A kill leaves the audit file as it may be, and loses the dispatch that was pending. -/
theorem Durable.cut {w : World} {pending : Option String} (hd : Durable lost ⟨w, pending⟩) (audit : AuditFile)
    (hsub : ∀ id, lost id → lost' id) (hpending : ∀ id, pending = some id → lost' id) :
    Durable lost' ⟨{ w with audit := audit }, none⟩ := by
  have hd' := hd.of_lost hsub
  refine ⟨hd'.records, hd'.inbox, hd'.once, hd'.known, fun id hl hmem => ?_⟩
  rcases hd'.spent id hl hmem with hp | hspent
  · exact absurd (hpending id hp) hl
  · exact .inr hspent

theorem Node.Sound.durable (hn : n.Sound lost) : Durable lost ⟨n.world, none⟩ := by
  unfold Node.Sound at hn
  split at hn
  · exact hn
  · exact hn.1.toDurable

theorem Durable.empty : Durable lost ⟨.empty, none⟩ where
  records id d hd := by
    have hnone : World.empty.record? id = none := rfl
    rw [hnone] at hd
    cases hd
  inbox := List.nodup_nil
  once _ _ := Nat.zero_le _
  known _ _ hmem := absurd hmem List.not_mem_nil
  spent _ _ hmem := absurd hmem List.not_mem_nil

/-- One step: more may be lost, if the event loses it. -/
theorem NodeStep.sound {i : NodeEvent} (hstep : NodeStep config n i n') (hn : n.Sound lost)
    (hsub : ∀ id, lost id → lost' id) (hloses : ∀ id, i.loses id → lost' id) : n'.Sound lost' := by
  cases hstep with
  | handled w s penv parsed =>
      obtain ⟨hready, hsynced⟩ := hn
      obtain ⟨_, hready', hsynced'⟩ := crash_handleLine config penv parsed s ⟨w, none⟩ ⟨hready, hsynced⟩
      have hpending := hready'.pending
      rw [Watched.applyAll_eq] at hready' hsynced' hpending
      simp only at hpending
      rw [hpending] at hready'
      exact ⟨hready'.of_lost hsub, hsynced'⟩
  | killed w s penv parsed c =>
      obtain ⟨hready, hsynced⟩ := hn
      obtain ⟨hcrash, _⟩ := crash_handleLine config penv parsed s ⟨w, none⟩ ⟨hready, hsynced⟩
      have hcut := hcrash c.performed
      rw [Watched.applyAll_eq] at hcut
      obtain ⟨audit, hworld⟩ := c.world_eq w (s.handle config penv parsed).effects
      rw [hworld]
      exact hcut.cut audit hsub hloses
  | started w pass _ hok =>
      obtain ⟨hready, hsynced⟩ := (crash_start config pass hn).2 hok
      exact ⟨hready.of_lost hsub, hsynced⟩
  | startCut w pass c _ =>
      have hcut := (crash_start config pass hn).1 c.performed
      rw [Watched.applyAll_eq] at hcut
      obtain ⟨audit, hworld⟩ := c.world_eq w (w.start config pass).effects
      rw [hworld]
      exact hcut.cut audit hsub hloses

/-- **Every run** of a node leaves it sound, but for the intents its kills have lost. -/
theorem NodeRun.sound (hrun : NodeRun config h n) : n.Sound (Lost h) := by
  refine hrun.history (P := fun h n => n.Sound (Lost h)) ?_ ?_
  · rintro n rfl
    exact Durable.empty
  · intro h n i n' _ hn hstep
    refine hstep.sound hn ?_ ?_
    · rintro id ⟨e, he, hloses⟩
      exact ⟨e, List.mem_append_left _ he, hloses⟩
    · intro id hloses
      exact ⟨_, List.mem_append_right _ (List.mem_singleton.mpr rfl), hloses⟩

/-! ## Commands in a row -/

/-- The world and the process that a list of commands leads to. -/
def commands (config : ProcessConfig) (penv : ProcessEnv) : World × ProcessState → List Command →
    World × ProcessState
  | n, [] => n
  | (w, s), c :: cs =>
      let out := s.handle config penv (.ok c)
      commands config penv (w.after out.effects, out.state) cs

/-- A step that loses no dispatch. -/
theorem not_lost_snoc {e : Event Node NodeEvent} (hlost : ∀ id, ¬ Lost h id) (he : ∀ id, ¬ e.seen.loses id) :
    ∀ id, ¬ Lost (h ++ [e]) id := by
  rintro id ⟨e', he', hloses⟩
  rcases List.mem_append.mp he' with he' | he'
  · exact hlost id ⟨e', he', hloses⟩
  · rw [List.mem_singleton.mp he'] at hloses
    exact he id hloses

theorem NodeRun.commands {w : World} {s : ProcessState} (hrun : NodeRun config h ⟨w, some s⟩)
    (hlost : ∀ id, ¬ Lost h id) (penv : ProcessEnv) (cs : List Command) :
    ∃ g, NodeRun config g ⟨(HermesPayments.commands config penv (w, s) cs).1,
      some (HermesPayments.commands config penv (w, s) cs).2⟩ ∧ ∀ id, ¬ Lost g id := by
  induction cs generalizing h w s with
  | nil => exact ⟨h, hrun, hlost⟩
  | cons c cs ih => exact ih (hrun.snoc (.handled w s penv (.ok c))) (not_lost_snoc hlost fun _ hloses => hloses)

end

namespace Sample

def process : ProcessConfig :=
  ⟨"alice", party, "channel", "root", "regtest", auditPath, storePath, some party, fun _ => "digest",
    Char.isAlphanum⟩

/-- One command's environment: the wallet pays, the transport is silent. -/
def penv : ProcessEnv where
  now       := 0
  adapter   := adapter paid
  transport := ⟨fun _ => .ok "message", fun _ => .ok []⟩
  firstPass := ⟨fun _ => adapter paid, 0⟩
  passes    := []
  waited    := .finite 0 "0.0" (by decide)

def pass : StartPass := ⟨0, fun _ => adapter paid⟩

/-- The commands up to the approval. -/
def approving : List Command :=
  [.submitIntent (intent "i" 100), .submitQuoteLocal (quote "i" "invoice A" 100), .prepare,
    .approve "i" "quote 1" "hash"]

/-- A process just started over a fresh state root. -/
def booted : World × ProcessState :=
  (World.empty.after (World.empty.start process pass).effects, (World.empty.start process pass).state)

theorem booted_run : ∃ h, NodeRun process h ⟨booted.1, some booted.2⟩ ∧ ∀ id, ¬ Lost h id := by
  have hstart : NodeRun process [] ⟨.empty, none⟩ := .nil rfl
  refine ⟨_, hstart.snoc (.started World.empty pass rfl rfl), ?_⟩
  rintro id ⟨e, he, hloses⟩
  rw [List.nil_append] at he
  rw [List.mem_singleton.mp he] at hloses
  exact hloses

end Sample

end HermesPayments
