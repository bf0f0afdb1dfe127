import HermesPayments.AuditLog.Correctness.TornWrites
import HermesPayments.Process.AuditLines

/-!
# `HermesPayments.Process.AuditText` — the lines of the audit file in its text

`AuditFile` forgets the characters of the audit file. Here they are: each entry stands as a text that `AuditLog.append`
writes for it, and a kill leaves any number of characters of one. The lines tell of the characters what counts. A new
log opens over the text exactly where the file opens (`AuditFile.Text.opens_iff`), and the characters that a whole append
or a kill leaves are those of an append or of a cut (`AuditFile.Text.write`). So the steps of the log on its characters
are steps of the file (`LogState.Shows.step`), and its runs are runs of the file (`LogRun.shows`).
-/

namespace HermesPayments

open Lib AuditLog

/-! ## Texts -/

def AuditValue.toJson : AuditValue → Json
  | .str s => .str s
  | .int n => .int n

/-- The call of `append` for an entry. -/
def AuditEntry.call (e : AuditEntry) (now : PyFloat) : AuditAppend :=
  ⟨e.event, Dict.ofList (e.fields.map fun f => (f.1, some f.2.toJson)), now⟩

/-- What a log writes for an entry whose number is its own. -/
def AuditEntry.Text (e : AuditEntry) (t : List Char) : Prop :=
  ∃ now j, (AuditLog.mk (.int e.seq)).entry (e.call now) = .ok j ∧ (e.call now).kwargs.get? "seq" = none ∧ t = text j

/-- The characters of a line: the texts of its entries, and behind them what is there of another. -/
inductive AuditLine.Text : AuditLine → List Char → Prop
  | texts {es : List AuditEntry} {ts : List (List Char)} (hts : List.Forall₂ AuditEntry.Text es ts) :
      AuditLine.Text ⟨es, false⟩ ts.flatten
  | part {es : List AuditEntry} {ts : List (List Char)} (hts : List.Forall₂ AuditEntry.Text es ts) {e : AuditEntry}
      {t : List Char} (ht : e.Text t) {count : Nat} (hsome : count ≠ 0) (hcut : count < t.length) :
      AuditLine.Text ⟨es, true⟩ (ts.flatten ++ t.take count)

/-- The characters of a file. -/
def AuditFile.Text (f : AuditFile) (file : List Char) : Prop :=
  ∃ ls last, List.Forall₂ AuditLine.Text f.lines ls ∧ f.last.Text last ∧ file = ls.flatMap (· ++ ['\n']) ++ last

/-- A line that a new log goes on from. -/
def Readable (rt : AuditRuntime) (line : List Char) : Prop :=
  ∃ w, IsEntry w ∧ line = text w ∧ ∃ n, (back rt w).get? "seq" = some (.int n)

section

variable {rt : AuditRuntime} {e : AuditEntry} {l : AuditLine} {f : AuditFile} {t s file : List Char}

/-! ## Reading -/

theorem AuditEntry.Text.readable (rt : AuditRuntime) (ht : e.Text t) : Readable rt t := by
  obtain ⟨now, j, hentry, hseq, rfl⟩ := ht
  refine ⟨j, ⟨_, _, hentry⟩, rfl, e.seq, ?_⟩
  rw [get?_seq hentry, hseq]
  show some (back rt (.int e.seq)) = _
  rw [back, Json.reread]

theorem Readable.line (h : Readable rt t) : Line t := by
  obtain ⟨w, ⟨log, a, hentry⟩, rfl, -⟩ := h
  exact line_text hentry

/-- Characters that begin like a text, without a line end. -/
def Begun (t : List Char) : Prop := ∃ cs, t = '\x7b' :: cs ∧ ∀ c ∈ cs, lineEnd c = false

theorem AuditEntry.Text.take (ht : e.Text t) {count : Nat} (hsome : count ≠ 0) : Begun (t.take count) := by
  obtain ⟨now, j, hentry, -, rfl⟩ := ht
  obtain ⟨cs, hcs⟩ := take_text hentry hsome
  refine ⟨cs, hcs, fun c hc => (line_text hentry).unbroken c ?_⟩
  exact List.mem_of_mem_take (hcs ▸ List.mem_cons_of_mem _ hc)

theorem AuditEntry.Text.begun (ht : e.Text t) : Begun t := by
  have hsome : t.length ≠ 0 := by
    obtain ⟨_, _, hentry, -, rfl⟩ := ht
    exact (List.length_pos_iff.mpr (line_text hentry).nonempty).ne'
  have hall := ht.take hsome
  rwa [List.take_length] at hall

theorem Begun.append (ht : Begun t) (hs : ∀ c ∈ s, lineEnd c = false) : Begun (t ++ s) := by
  obtain ⟨cs, rfl, hcs⟩ := ht
  refine ⟨cs ++ s, rfl, fun c hc => ?_⟩
  exact (List.mem_append.mp hc).elim (hcs c) (hs c)

theorem Begun.unbroken (ht : Begun t) : ∀ c ∈ t, lineEnd c = false := by
  obtain ⟨cs, rfl, hcs⟩ := ht
  exact List.forall_mem_cons.mpr ⟨by decide, hcs⟩

/-- What stands behind a text on the same line makes it unreadable. -/
theorem AuditEntry.Text.spoiled (ht : e.Text t) (hs : Begun s) :
    ∃ line ∈ strippedLines (t ++ s), Json.loads rt.readFloat (String.ofList line) = none := by
  obtain ⟨now, j, hentry, -, rfl⟩ := ht
  obtain ⟨cs, rfl, hcs⟩ := hs
  obtain ⟨line, hline, hloads⟩ := unreadable_spoiled rt ⟨_, _, hentry⟩ hcs
  exact ⟨line, hline ▸ List.mem_singleton_self line, hloads⟩

theorem unbroken_flatten {es : List AuditEntry} {ts : List (List Char)} (hts : List.Forall₂ AuditEntry.Text es ts) :
    ∀ c ∈ ts.flatten, lineEnd c = false := by
  induction hts with
  | nil => simp
  | cons ht hts ih =>
      intro c hc
      exact (List.mem_append.mp hc).elim (ht.begun.unbroken c) (ih c)

/-- Texts in front of what begins like one. -/
theorem Begun.behind {es : List AuditEntry} {ts : List (List Char)} (hts : List.Forall₂ AuditEntry.Text es ts)
    (hs : Begun s) : Begun (ts.flatten ++ s) := by
  induction hts with
  | nil => exact hs
  | cons ht hts ih =>
      rw [List.flatten_cons, List.append_assoc]
      exact ht.begun.append ih.unbroken

/-- **A line is read** exactly where the model does: what comes of it is one readable text at most, or no JSON. -/
theorem AuditLine.Text.cases (rt : AuditRuntime) (h : l.Text s) :
    (l.reads = true ∧ ∀ line ∈ strippedLines s, Readable rt line) ∨
      (l.reads = false ∧ ∃ line ∈ strippedLines s, Json.loads rt.readFloat (String.ofList line) = none) := by
  cases h with
  | texts hts =>
      cases hts with
      | nil => exact .inl ⟨rfl, by simp⟩
      | cons ht hts =>
          cases hts with
          | nil =>
              refine .inl ⟨rfl, ?_⟩
              rw [List.flatten_cons, List.flatten_nil, List.append_nil, (ht.readable rt).line.strippedLines]
              intro line hline
              rw [List.mem_singleton.mp hline]
              exact ht.readable rt
          | @cons e' t' es ts ht' hts =>
              -- the second text is the first thing behind the first
              have hbegun : Begun (t' ++ ts.flatten) := ht'.begun.append (unbroken_flatten hts)
              refine .inr ⟨rfl, ?_⟩
              rw [List.flatten_cons, List.flatten_cons]
              exact ht.spoiled hbegun
  | part hts ht hsome hcut =>
      cases hts with
      | nil =>
          obtain ⟨now, j, hentry, -, rfl⟩ := ht
          obtain ⟨line, hline, hloads⟩ := unreadable_cut rt hentry hsome hcut
          exact .inr ⟨rfl, line, hline ▸ List.mem_singleton_self line, hloads⟩
      | cons ht' hts =>
          refine .inr ⟨by simp [AuditLine.reads], ?_⟩
          rw [List.flatten_cons, List.append_assoc]
          exact ht'.spoiled ((ht.take hsome).behind hts)

/-- The same of many lines. -/
theorem AuditLine.Text.cases_all (rt : AuditRuntime) {ls : List AuditLine} {ss : List (List Char)}
    (h : List.Forall₂ AuditLine.Text ls ss) :
    (ls.all AuditLine.reads = true ∧ ∀ line ∈ ss.flatMap strippedLines, Readable rt line) ∨
      (ls.all AuditLine.reads = false ∧
        ∃ line ∈ ss.flatMap strippedLines, Json.loads rt.readFloat (String.ofList line) = none) := by
  induction h with
  | nil => exact .inl ⟨rfl, by simp⟩
  | @cons l s ls ss hl hls ih =>
      rw [List.all_cons, List.flatMap_cons]
      rcases hl.cases rt with ⟨hreads, hlines⟩ | ⟨hreads, line, hmem, hloads⟩
      · rw [hreads, Bool.true_and]
        rcases ih with ⟨hall, hrest⟩ | ⟨hall, line, hmem, hloads⟩
        · refine .inl ⟨hall, fun line hline => ?_⟩
          exact (List.mem_append.mp hline).elim (hlines line) (hrest line)
        · exact .inr ⟨hall, line, List.mem_append_right _ hmem, hloads⟩
      · rw [hreads, Bool.false_and]
        exact .inr ⟨rfl, line, List.mem_append_left _ hmem, hloads⟩

/-! ## Opening -/

/-- The lines of a file, one after the other. -/
theorem strippedLines_lines (ls : List (List Char)) (rest : List Char) :
    strippedLines (ls.flatMap (· ++ ['\n']) ++ rest) = ls.flatMap strippedLines ++ strippedLines rest := by
  induction ls with
  | nil => rfl
  | cons l ls ih =>
      have hfirst : (l :: ls).flatMap (· ++ ['\n']) ++ rest = l ++ '\n' :: (ls.flatMap (· ++ ['\n']) ++ rest) := by simp
      rw [hfirst, strippedLines_append_newline, ih, List.flatMap_cons, List.append_assoc]

/-- Over readable lines a log finds its number. -/
theorem loadSeq_readable {lines : List (List Char)} (hlines : ∀ line ∈ lines, Readable rt line) (seq : PyNumber) :
    ∃ seq', loadSeq rt seq lines = .ok seq' := by
  induction lines generalizing seq with
  | nil => exact ⟨seq, rfl⟩
  | cons line lines ih =>
      obtain ⟨⟨w, ⟨log, a, hentry⟩, rfl, n, hseq⟩, hrest⟩ := List.forall_mem_cons.mp hlines
      have hdict : (back rt w).isDict = true := by
        rw [entry_eq hentry]
        rfl
      rw [loadSeq, loads_text]
      simp only [hdict, if_true, Json.getD, hseq, Option.getD_some, PyNumber.ofJson]
      exact ih hrest _

/-- A line that is no JSON stops it. -/
theorem loadSeq_unreadable {lines : List (List Char)} (line : List Char) (hmem : line ∈ lines)
    (hloads : Json.loads rt.readFloat (String.ofList line) = none) (seq seq' : PyNumber) :
    loadSeq rt seq lines ≠ .ok seq' := by
  intro h
  induction lines generalizing seq with
  | nil => cases hmem
  | cons first lines ih =>
      rw [loadSeq] at h
      rcases List.mem_cons.mp hmem with rfl | hmem
      · rw [hloads] at h
        cases h
      · split at h
        · cases h
        · split at h
          · split at h
            · cases h
            · exact ih hmem _ h
          · cases h

/-- **A new log opens over the characters** exactly where the file opens. -/
theorem AuditFile.Text.opens_iff (h : f.Text file) : f.opens = true ↔ ∃ log, AuditLog.new rt file = .ok log := by
  obtain ⟨ls, last, hls, hlast, rfl⟩ := h
  have hall : List.Forall₂ AuditLine.Text f.all (ls ++ [last]) := List.rel_append hls (.cons hlast .nil)
  have hlines : strippedLines (ls.flatMap (· ++ ['\n']) ++ last) = (ls ++ [last]).flatMap strippedLines := by
    rw [strippedLines_lines, List.flatMap_append, List.flatMap_singleton]
  rw [AuditFile.opens, AuditLog.new, hlines]
  rcases AuditLine.Text.cases_all rt hall with ⟨hreads, hreadable⟩ | ⟨hreads, line, hmem, hloads⟩
  · obtain ⟨seq, hseq⟩ := loadSeq_readable hreadable (.int 0)
    exact iff_of_true hreads ⟨⟨seq⟩, by rw [hseq]; rfl⟩
  · refine iff_of_false (by simp [hreads]) ?_
    rintro ⟨log, hlog⟩
    cases hseq : loadSeq rt (.int 0) ((ls ++ [last]).flatMap strippedLines) with
    | ok seq => exact loadSeq_unreadable line hmem hloads _ _ hseq
    | error x =>
        rw [hseq] at hlog
        cases hlog

/-! ## Writing -/

/-- A whole text behind a line without part of one. -/
theorem AuditLine.Text.text (h : l.Text s) (hend : l.part = false) (ht : e.Text t) :
    (l.write e .text).Text (s ++ t) := by
  cases h with
  | texts hts =>
      have hsnoc := AuditLine.Text.texts (List.rel_append hts (.cons ht .nil))
      rwa [List.flatten_append, List.flatten_singleton] at hsnoc
  | part => cases hend

/-- What a kill leaves of a text there. -/
theorem AuditLine.Text.cut (h : l.Text s) (hend : l.part = false) (ht : e.Text t) {count : Nat}
    (hcount : count ≤ t.length) : ∃ left, (l.write e left).Text (s ++ t.take count) := by
  by_cases hnone : count = 0
  · refine ⟨.nothing, ?_⟩
    rwa [hnone, List.take_zero, List.append_nil]
  by_cases hwhole : count = t.length
  · refine ⟨.text, ?_⟩
    rw [hwhole, List.take_length]
    exact h.text hend ht
  · refine ⟨.part, ?_⟩
    cases h with
    | texts hts => exact .part hts ht hnone (by omega)
    | part => cases hend

/-- An append, where the last line holds no part of a text. -/
theorem AuditFile.Text.append (h : f.Text file) (hend : f.last.part = false) (ht : e.Text t) :
    (f.append e).Text (file ++ (t ++ ['\n'])) := by
  obtain ⟨ls, last, hls, hlast, rfl⟩ := h
  exact ⟨ls ++ [last ++ t], [], List.rel_append hls (.cons (hlast.text hend ht) .nil), .texts .nil, by simp⟩

/-- **The characters of an append, or of a part of one**, are those of an append or of a cut. -/
theorem AuditFile.Text.write (h : f.Text file) (hend : f.last.part = false) (ht : e.Text t) (count : Nat) :
    ∃ f', f'.Text (file ++ (t ++ ['\n']).take count) ∧ (f' = f.append e ∨ ∃ left, f' = f.cut e left) := by
  by_cases hcount : count ≤ t.length
  · obtain ⟨ls, last, hls, hlast, rfl⟩ := h
    obtain ⟨left, hleft⟩ := hlast.cut hend ht hcount
    refine ⟨f.cut e left, ⟨ls, _, hls, hleft, ?_⟩, .inr ⟨left, rfl⟩⟩
    rw [List.take_append_of_le_length hcount, List.append_assoc]
  · refine ⟨f.append e, ?_, .inl rfl⟩
    rw [List.take_of_length_le (by rw [List.length_append, List.length_singleton]; omega)]
    exact h.append hend ht

/-! ## The log's own steps -/

/-- The file of the model tells of the log's characters, and nothing is written behind part of a text. -/
structure LogState.Shows (s : LogState) (f : AuditFile) : Prop where
  text    : f.Text s.file
  unended : s.log.isSome = true → f.last.part = false

/-- The calls of the step, if it makes one, are those for entries. -/
def WritesEntries (s : LogState) (op : LogOp) : Prop :=
  ∀ log a j, s.log = some log → (op = .appended a ∨ ∃ count, op = .torn a count) → log.entry a = .ok j →
    ∃ e : AuditEntry, e.Text (AuditLog.text j)

/-- A step leaves the file as it is, appends to it, or is cut short. -/
def AuditFile.Moves (f f' : AuditFile) : Prop := f' = f ∨ ∃ e, f' = f.append e ∨ ∃ left, f' = f.cut e left

/-- Every step of the log is one of the model's file. -/
theorem LogState.Shows.step {s s' : LogState} {op : LogOp} (hs : s.Shows f) (hstep : LogStep rt s op s')
    (hentries : WritesEntries s op) : ∃ f', s'.Shows f' ∧ f.Moves f' := by
  rcases hstep.cases with ⟨-, rfl⟩ | ⟨log, a, x, hlog, -, -, hfile, hnext⟩ | ⟨log, a, j, hlog, hentry, hop, rfl⟩ |
    ⟨log, a, j, count, hlog, hentry, hop, rfl⟩
  · -- a log that opens has read every line
    refine ⟨f, ⟨hs.text, fun hopen => ?_⟩, .inl rfl⟩
    have hnew : ∃ log, AuditLog.new rt s.file = .ok log := by
      cases h : AuditLog.new rt s.file with
      | ok log => exact ⟨log, rfl⟩
      | error x =>
          rw [h] at hopen
          cases hopen
    exact (AuditLine.reads_iff.mp (AuditFile.opens_iff.mp (hs.text.opens_iff.mpr hnew)).2).1
  · refine ⟨f, ⟨hfile ▸ hs.text, fun hopen => hs.unended ?_⟩, .inl rfl⟩
    rw [hlog]
    rfl
  · obtain ⟨e, ht⟩ := hentries log a j hlog (.inl hop) hentry
    exact ⟨f.append e, ⟨hs.text.append (hs.unended (by rw [hlog]; rfl)) ht, fun _ => rfl⟩, .inr ⟨e, .inl rfl⟩⟩
  · obtain ⟨e, ht⟩ := hentries log a j hlog (.inr ⟨count, hop⟩) hentry
    obtain ⟨f', htext, hf'⟩ := hs.text.write (hs.unended (by rw [hlog]; rfl)) ht count
    exact ⟨f', ⟨htext, nofun⟩, .inr ⟨e, hf'⟩⟩

/-- **Every run of the log is one of the model's file**: appends and cuts lead from no file to one that shows the
    characters. -/
theorem LogRun.shows {h : LogHistory} {s : LogState} (hrun : LogRun rt h s)
    (hentries : ∀ e ∈ h, WritesEntries e.before e.seen) :
    ∃ f, s.Shows f ∧ Relation.ReflTransGen AuditFile.Moves .empty f := by
  let I (s : LogState) : Prop := ∃ f, s.Shows f ∧ Relation.ReflTransGen AuditFile.Moves .empty f
  refine (hrun.guarded hentries).invariant (I := I) ?_ ?_
  · rintro s rfl
    exact ⟨.empty, ⟨⟨[], [], .nil, .texts .nil, rfl⟩, nofun⟩, .refl⟩
  · rintro s op s' ⟨f, hs, hmoves⟩ ⟨hstep, hentry⟩
    obtain ⟨f', hs', hmove⟩ := hs.step hstep hentry
    exact ⟨f', hs', hmoves.tail hmove⟩

end

end HermesPayments
