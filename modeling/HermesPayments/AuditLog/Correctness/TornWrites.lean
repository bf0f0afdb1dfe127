import HermesPayments.AuditLog
import HermesPayments.Lib.Json.Prefix
import HermesPayments.Lib.Json.WellRead
import HermesPayments.Lib.Raise
import HermesPayments.Lib.Run
import Mathlib.Data.List.Forall2

/-!
# `HermesPayments.AuditLog.Correctness.TornWrites` — an audit file across crashes

A run appends to one file, is killed while it writes a line, and opens the file again, in any order. Nothing repairs the
file: a line cut short stays in it and cannot be read any more, by a new log or by `entries`, and an append behind a line
without its newline spoils that line too. An append may also be given a number of its own. Without these, the log
survives, and each of them is fatal (`survives_iff`).
-/

namespace HermesPayments

open Lib

/-! ## Runs -/

/-- The file, and the log that is open on it. -/
structure LogState where
  file : List Char
  log  : Option AuditLog

inductive LogOp where
  /-- `AuditLog(path)`. -/
  | opened
  | appended (a : AuditAppend)
  /-- The process is killed in an `append`, when that many characters have reached the file. -/
  | torn (a : AuditAppend) (count : Nat)

section

variable (rt : AuditRuntime)

/-- The steps of a log and its file. -/
inductive LogStep : LogState → LogOp → LogState → Prop
  | opened (s : LogState) : LogStep s .opened ⟨s.file, (AuditLog.new rt s.file).toOption⟩
  | appended {s : LogState} {log : AuditLog} (hlog : s.log = some log) (a : AuditAppend) :
      LogStep s (.appended a) ⟨s.file ++ ((AuditLog.append rt a).run log).effects.flatten,
        some ((AuditLog.append rt a).run log).state⟩
  | torn {s : LogState} {log : AuditLog} (hlog : s.log = some log) (a : AuditAppend) (count : Nat) :
      LogStep s (.torn a count) ⟨s.file ++ ((AuditLog.append rt a).run log).effects.flatten.take count, none⟩

abbrev LogHistory := List (Event LogState LogOp)

/-- The runs over a file that does not exist at first. -/
abbrev LogRun (h : LogHistory) (s : LogState) : Prop := Run (· = ⟨[], none⟩) (LogStep rt) h s

/-! ## The rule and the condition -/

/-- The entry whose text a step has written in full. -/
def writtenBy (e : Event LogState LogOp) : Option Json :=
  match e.before.log, e.seen with
  | some log, .appended a   => (log.entry a).toOption
  | some log, .torn a count => (log.entry a).toOption.filter (fun j => (AuditLog.text j).length ≤ count)
  | _, _ => none

/-- The completely written entries of a run, in order. -/
def written (h : LogHistory) : List Json := h.filterMap writtenBy

/-- The value is what `json.loads` makes of the entry's own text; it equals the entry if a reader could have built that. -/
structure ReadAs (value entry : Json) : Prop where
  reads : Json.loads rt.readFloat (entry.dumps AuditLog.auditOptions) = some value
  same  : Json.WellRead rt.readFloat entry → Json.same value entry = true

/-- The log has survived so far: the file can be opened, and `entries()` gives every completely written entry, in order
    and numbered from 0 on. -/
structure Survives (h : LogHistory) (s : LogState) : Prop where
  reopens : ∃ log, AuditLog.new rt s.file = .ok log
  entries : ∃ es, AuditLog.entries rt s.file = .ok es ∧ List.Forall₂ (ReadAs rt) es (written h) ∧
    es.map (·.get? "seq") = (List.range es.length).map (fun n => some (.int n))

/-- … and after every step of the run. -/
def SurvivesThroughout (h : LogHistory) : Prop :=
  ∀ (k : Nat) (e : Event LogState LogOp), h[k]? = some e → Survives rt (h.take (k + 1)) e.after

end

/-- The next character written starts a line. -/
def StartsLine (file : List Char) : Prop := file = [] ∨ ∃ before, file = before ++ ['\n']

/-- The call gives no number, or the one that is next. -/
def AuditLog.KeepsSeq (log : AuditLog) (a : AuditAppend) : Prop :=
  ∀ v, a.kwargs.get? "seq" = some v → v = some log.seq.toJson

/-- What a step must be for the log to survive it: what it writes starts a line, keeps to the log's numbers, and is not
    cut short before the end of the entry's text, unless nothing of it has been written. -/
def Harmless (s : LogState) (op : LogOp) : Prop :=
  ∀ log, s.log = some log →
    (∀ a j, op = .appended a → log.entry a = .ok j → StartsLine s.file ∧ log.KeepsSeq a) ∧
    (∀ a count j, op = .torn a count → log.entry a = .ok j → count = 0 ∨
      (AuditLog.text j).length ≤ count ∧ StartsLine s.file ∧ log.KeepsSeq a)

/-! ## One entry -/

namespace AuditLog

variable {rt : AuditRuntime} {log : AuditLog} {a : AuditAppend} {j : Json}

theorem standard_auditOptions : auditOptions.Standard := Json.standard_default _ _

theorem inline_auditOptions : auditOptions.Inline := by
  constructor <;> decide

/-- The value an entry is read back as. -/
def back (rt : AuditRuntime) (j : Json) : Json := Json.reread rt.readFloat auditOptions j

theorem loads_text (rt : AuditRuntime) (j : Json) : Json.loads rt.readFloat (String.ofList (text j)) = some (back rt j) := by
  rw [text, String.ofList_toList]
  exact Json.loads_dumps standard_auditOptions j

theorem readAs_back (rt : AuditRuntime) (j : Json) : ReadAs rt (back rt j) j :=
  ⟨Json.loads_dumps standard_auditOptions j, fun h => h.same_reread⟩

/-- A written entry is an object: the dictionary that `append` built. -/
theorem entry_eq (h : log.entry a = .ok j) : j = Json.members (log.fields a).entries := by
  unfold entry at h
  split_ifs at h
  exact (Except.ok.inj h).symm

theorem line_text (h : log.entry a = .ok j) : Line (text j) := by
  rw [entry_eq h]
  exact Json.line_dumps_obj inline_auditOptions _

/-- The number of an entry: the one it was given, or the next one. -/
theorem get?_seq (h : log.entry a = .ok j) : (back rt j).get? "seq"
    = (((a.kwargs.get? "seq").or (some (some log.seq.toJson))).join).map (back rt) := by
  rw [entry_eq h, back, (Json.carries_reread _ _).get?_members (log.fields a).nodup]
  show (((log.fields a).get? "seq").join).map _ = _
  rw [fields, Dict.get?_update]
  rfl

theorem run_append_ok (h : log.entry a = .ok j) :
    (append rt a).run log = ⟨.ok (), ⟨rt.succ log.seq⟩, [text j ++ ['\n']]⟩ := by
  simp [append, Proc.run_bind, h]

theorem run_append_error {x : AuditExc} (h : log.entry a = .error x) : (append rt a).run log = ⟨.error x, log, []⟩ := by
  simp [append, Proc.run_bind, h]

/-- The text of an entry stands between two braces. -/
theorem text_braces (h : log.entry a = .ok j) : ∃ cs, text j = '\x7b' :: (cs ++ ['\x7d']) := by
  rw [entry_eq h]
  exact Json.dumps_obj_cons _

/-! ## A file of entries -/

/-- The entry comes from some call of `append`. -/
def IsEntry (j : Json) : Prop := ∃ log a, entry log a = .ok j

/-- The file holds the texts of the entries, each with its newline but perhaps for the last. -/
inductive FileOf : List Json → List Char → Prop
  | whole (ws : List Json) : FileOf ws (ws.flatMap (fun w => text w ++ ['\n']))
  | unended (ws : List Json) (w : Json) : FileOf (ws ++ [w]) (ws.flatMap (fun w => text w ++ ['\n']) ++ text w)

variable {ws : List Json} {file : List Char}

theorem strippedLines_whole (hws : ∀ w ∈ ws, IsEntry w) (rest : List Char) :
    strippedLines (ws.flatMap (fun w => text w ++ ['\n']) ++ rest) = ws.map text ++ strippedLines rest := by
  have hlines : ∀ t ∈ ws.map text, Line t := by
    intro t ht
    obtain ⟨w, hw, rfl⟩ := List.mem_map.mp ht
    obtain ⟨log, a, hentry⟩ := hws w hw
    exact line_text hentry
  have hsplit := strippedLines_flatMap hlines rest
  rwa [List.flatMap_map] at hsplit

/-- The lines of the file are the texts of the entries. -/
theorem FileOf.lines (hfile : FileOf ws file) (hws : ∀ w ∈ ws, IsEntry w) : strippedLines file = ws.map text := by
  cases hfile with
  | whole =>
      have hsplit := strippedLines_whole hws []
      rwa [List.append_nil, strippedLines_nil, List.append_nil] at hsplit
  | unended ws w =>
      obtain ⟨log, a, hentry⟩ := hws w (by simp)
      rw [strippedLines_whole (fun w hw => hws w (List.mem_append_left _ hw)), (line_text hentry).strippedLines,
        List.map_append]
      rfl

/-- A file whose next character starts a line has all its newlines. -/
theorem FileOf.eq_of_startsLine (hfile : FileOf ws file) (hws : ∀ w ∈ ws, IsEntry w) (hstarts : StartsLine file) :
    file = ws.flatMap (fun w => text w ++ ['\n']) := by
  cases hfile with
  | whole => rfl
  | unended ws w =>
      obtain ⟨log, a, hentry⟩ := hws w (by simp)
      obtain ⟨cs, hcs⟩ := text_braces hentry
      rw [hcs] at hstarts
      rcases hstarts with hnil | ⟨before, hbefore⟩
      · simp at hnil
      · have hlast := congrArg List.getLast? hbefore
        rw [← List.cons_append, ← List.append_assoc, List.getLast?_concat, List.getLast?_concat] at hlast
        exact absurd (Option.some.inj hlast) (by decide)

/-- The file with one more line, with or without its newline. -/
theorem FileOf.snoc (hfile : FileOf ws file) (hws : ∀ w ∈ ws, IsEntry w) (hstarts : StartsLine file) (j : Json) :
    FileOf (ws ++ [j]) (file ++ (text j ++ ['\n'])) ∧ FileOf (ws ++ [j]) (file ++ text j) := by
  rw [hfile.eq_of_startsLine hws hstarts]
  constructor
  · have hwhole := FileOf.whole (ws ++ [j])
    rwa [List.flatMap_append, List.flatMap_singleton] at hwhole
  · exact .unended ws j

/-- The file with one more line of which at least the text has been written. -/
theorem FileOf.take (hfile : FileOf ws file) (hws : ∀ w ∈ ws, IsEntry w) (hstarts : StartsLine file) (j : Json)
    {count : Nat} (hcount : (text j).length ≤ count) : FileOf (ws ++ [j]) (file ++ (text j ++ ['\n']).take count) := by
  by_cases hend : count = (text j).length
  · rw [hend, List.take_left]
    exact (hfile.snoc hws hstarts j).2
  · rw [List.take_of_length_le (by rw [List.length_append, List.length_singleton]; omega)]
    exact (hfile.snoc hws hstarts j).1

/-- `entries` reads the entries back. -/
theorem entries_eq (hlines : strippedLines file = ws.map text) : entries rt file = .ok (ws.map (back rt)) := by
  unfold entries
  rw [hlines]
  clear hlines
  induction ws with
  | nil => rfl
  | cons w ws ih =>
      rw [List.map_cons, List.mapM_cons, loads_text, ih]
      rfl

/-- A new log goes on with the number behind those of the file. -/
theorem loadSeq_eq {k : Nat} (hws : ∀ w ∈ ws, IsEntry w)
    (hseqs : ws.map (fun w => (back rt w).get? "seq") = (List.range' k ws.length).map (fun n => some (.int n))) :
    loadSeq rt (.int k) (ws.map text) = .ok (.int (k + ws.length : Nat)) := by
  induction ws generalizing k with
  | nil => rfl
  | cons w ws ih =>
      obtain ⟨hw, hrest⟩ := List.forall_mem_cons.mp hws
      obtain ⟨log, a, hentry⟩ := hw
      rw [List.map_cons, List.length_cons, List.range'_succ, List.map_cons, List.cons.injEq] at hseqs
      obtain ⟨hseq, hseqs⟩ := hseqs
      have hdict : (back rt w).isDict = true := by
        rw [entry_eq hentry]
        rfl
      have hmax : PyNumber.max (.int k) (rt.succ (.int k)) = .int (k + 1 : Nat) := by
        have hgt : (PyNumber.int (k + 1)).gt (.int k) = true := by
          show decide (((k : Int) : Rat) < ((k + 1 : Int) : Rat)) = true
          rw [decide_eq_true_eq, Rat.intCast_lt_intCast]
          omega
        rw [PyNumber.max, AuditRuntime.succ, hgt, if_pos rfl]
        rfl
      rw [List.map_cons, loadSeq, loads_text]
      simp only [hdict, if_true, Json.getD, hseq, Option.getD_some, PyNumber.ofJson]
      rw [hmax, ih hrest hseqs, List.length_cons]
      congr 3
      omega

end AuditLog

/-! ## Harmless steps -/

open AuditLog

variable {rt : AuditRuntime} {h : LogHistory} {s s' : LogState} {op : LogOp} {ws : List Json}

/-- The file holds these entries and nothing else, numbered from 0 on, and the log that is open goes on with the number
    behind them. -/
structure Intact (rt : AuditRuntime) (ws : List Json) (s : LogState) : Prop where
  file    : FileOf ws s.file
  entries : ∀ w ∈ ws, IsEntry w
  seqs    : ws.map (fun w => (back rt w).get? "seq") = (List.range ws.length).map (fun n => some (.int n))
  next    : ∀ log, s.log = some log → log.seq = .int ws.length

/-- A new log on the file goes on with the next number. -/
theorem Intact.new (hs : Intact rt ws s) : AuditLog.new rt s.file = .ok ⟨.int ws.length⟩ := by
  have hload : loadSeq rt (.int (0 : Nat)) (ws.map text) = _ :=
    loadSeq_eq hs.entries (by rw [hs.seqs, List.range_eq_range'])
  rw [Nat.zero_add] at hload
  rw [AuditLog.new, hs.file.lines hs.entries]
  show (loadSeq rt (.int (0 : Nat)) (ws.map text)).map AuditLog.mk = _
  rw [hload]
  rfl

theorem Intact.survives (hs : Intact rt (written h) s) : Survives rt h s := by
  have hlines := hs.file.lines hs.entries
  refine ⟨⟨_, hs.new⟩, (written h).map (back rt), entries_eq hlines, ?_, ?_⟩
  · rw [List.forall₂_map_left_iff]
    exact List.forall₂_same.mpr fun w _ => readAs_back rt w
  · rw [List.map_map, List.length_map]
    exact hs.seqs

/-- One more entry, numbered as the next one. -/
theorem Intact.snoc {log : AuditLog} {a : AuditAppend} {j : Json} (hs : Intact rt ws s) (hlog : s.log = some log)
    (hentry : log.entry a = .ok j) (hkeeps : log.KeepsSeq a) (hfile : FileOf (ws ++ [j]) s'.file)
    (hnext : ∀ log', s'.log = some log' → log' = ⟨rt.succ log.seq⟩) : Intact rt (ws ++ [j]) s' := by
  refine ⟨hfile, ?_, ?_, ?_⟩
  · intro w hw
    rcases List.mem_append.mp hw with hw | hw
    · exact hs.entries w hw
    · rw [List.mem_singleton.mp hw]
      exact ⟨log, a, hentry⟩
  · have hseq : (back rt j).get? "seq" = some (.int ws.length) := by
      have hback : back rt log.seq.toJson = .int ws.length := by
        rw [hs.next log hlog, PyNumber.toJson, back, Json.reread]
      rw [get?_seq hentry]
      cases hgiven : a.kwargs.get? "seq" with
      | none =>
          rw [← hback]
          rfl
      | some v =>
          rw [hkeeps v hgiven, ← hback]
          rfl
    rw [List.map_append, hs.seqs, List.length_append, List.length_singleton, List.range_succ, List.map_append]
    simp [hseq]
  · intro log' hlog'
    rw [hnext log' hlog', hs.next log hlog]
    simp [AuditRuntime.succ]

/-- What a step does: it opens the file; it refuses an entry; it writes an entry; or it is killed while it writes one. -/
theorem LogStep.cases (hstep : LogStep rt s op s') :
    (op = .opened ∧ s' = ⟨s.file, (AuditLog.new rt s.file).toOption⟩) ∨
    (∃ log a x, s.log = some log ∧ log.entry a = .error x ∧ (op = .appended a ∨ ∃ count, op = .torn a count) ∧
      s'.file = s.file ∧ ∀ log', s'.log = some log' → s.log = some log') ∨
    (∃ log a j, s.log = some log ∧ log.entry a = .ok j ∧ op = .appended a ∧
      s' = ⟨s.file ++ (text j ++ ['\n']), some ⟨rt.succ log.seq⟩⟩) ∨
    (∃ log a j count, s.log = some log ∧ log.entry a = .ok j ∧ op = .torn a count ∧
      s' = ⟨s.file ++ (text j ++ ['\n']).take count, none⟩) := by
  cases hstep with
  | opened => exact .inl ⟨rfl, rfl⟩
  | @appended log hlog a =>
      cases hentry : log.entry a with
      | error x =>
          refine .inr (.inl ⟨log, a, x, hlog, hentry, .inl rfl, ?_⟩)
          rw [run_append_error hentry]
          simp [hlog]
      | ok j =>
          refine .inr (.inr (.inl ⟨log, a, j, hlog, hentry, rfl, ?_⟩))
          rw [run_append_ok hentry]
          simp
  | @torn log hlog a count =>
      cases hentry : log.entry a with
      | error x =>
          refine .inr (.inl ⟨log, a, x, hlog, hentry, .inr ⟨count, rfl⟩, ?_⟩)
          rw [run_append_error hentry]
          simp
      | ok j =>
          refine .inr (.inr (.inr ⟨log, a, j, count, hlog, hentry, rfl, ?_⟩))
          rw [run_append_ok hentry]
          simp

/-- The file when a step has written nothing. -/
theorem Intact.unwritten (hs : Intact rt ws s) (hfile : s'.file = s.file)
    (hnext : ∀ log, s'.log = some log → log.seq = .int ws.length) (hnone : writtenBy ⟨s, op, s'⟩ = none) :
    Intact rt (ws ++ (writtenBy ⟨s, op, s'⟩).toList) s' := by
  rw [hnone, Option.toList_none, List.append_nil]
  refine ⟨?_, hs.entries, hs.seqs, hnext⟩
  rw [hfile]
  exact hs.file

/-- **A harmless step leaves an intact file.** -/
theorem Intact.step (hs : Intact rt ws s) (hstep : LogStep rt s op s') (hharmless : Harmless s op) :
    Intact rt (ws ++ (writtenBy ⟨s, op, s'⟩).toList) s' := by
  rcases hstep.cases with ⟨rfl, rfl⟩ | ⟨log, a, x, hlog, hentry, hop, hfile, hnext⟩ | ⟨log, a, j, hlog, hentry, rfl, rfl⟩ |
    ⟨log, a, j, count, hlog, hentry, rfl, rfl⟩
  · refine hs.unwritten rfl ?_ ?_
    · intro log hlog
      rw [hs.new] at hlog
      cases hlog
      rfl
    · cases hlog : s.log <;> simp [writtenBy, hlog]
  · refine hs.unwritten hfile (fun log' hlog' => hs.next log' (hnext log' hlog')) ?_
    rcases hop with rfl | ⟨count, rfl⟩ <;> simp [writtenBy, hlog, hentry, Except.toOption]
  · obtain ⟨hstarts, hkeeps⟩ := (hharmless log hlog).1 a j rfl hentry
    have hwritten : writtenBy ⟨s, .appended a, ⟨s.file ++ (text j ++ ['\n']), some ⟨rt.succ log.seq⟩⟩⟩ = some j := by
      simp [writtenBy, hlog, hentry, Except.toOption]
    rw [hwritten]
    refine hs.snoc hlog hentry hkeeps (hs.file.snoc hs.entries hstarts j).1 ?_
    intro log' hlog'
    exact (Option.some.inj hlog').symm
  · have hwritten : writtenBy ⟨s, .torn a count, ⟨s.file ++ (text j ++ ['\n']).take count, none⟩⟩
        = if (text j).length ≤ count then some j else none := by
      simp [writtenBy, hlog, hentry, Except.toOption, Option.filter]
    rcases (hharmless log hlog).2 a count j rfl hentry with rfl | ⟨hcount, hstarts, hkeeps⟩
    · have hpos : ¬ (text j).length ≤ 0 := by
        have := List.length_pos_iff.mpr (line_text hentry).nonempty
        omega
      rw [if_neg hpos] at hwritten
      exact hs.unwritten (by simp) (by simp) hwritten
    · rw [hwritten, if_pos hcount]
      exact hs.snoc hlog hentry hkeeps (hs.file.take hs.entries hstarts j hcount) (by simp)

/-! ## Fatal steps -/

namespace AuditLog

variable {log : AuditLog} {a : AuditAppend} {j w : Json} {file : List Char}

/-- A line that cannot be read makes `entries` raise. -/
theorem entries_ne_ok (line : List Char) (hline : line ∈ strippedLines file)
    (hloads : Json.loads rt.readFloat (String.ofList line) = none) (es : List Json) : entries rt file ≠ .ok es := by
  intro hok
  obtain ⟨v, hv⟩ := ok_of_mapM hok line hline
  rw [hloads] at hv
  cases hv

/-- A newline at the end of a text makes no further line. -/
theorem strippedLines_take_newline (front text : List Char) (count : Nat) :
    strippedLines (front ++ (text ++ ['\n']).take count) = strippedLines (front ++ text.take count) := by
  by_cases hcount : count ≤ text.length
  · rw [List.take_append_of_le_length hcount]
  · rw [List.take_of_length_le (by rw [List.length_append, List.length_singleton]; omega),
      List.take_of_length_le (by omega), ← List.append_assoc, strippedLines_append_newline, strippedLines_nil,
      List.append_nil]

/-- A text that is not empty, behind entries or not, starts with a brace. -/
theorem take_text (h : log.entry a = .ok j) {count : Nat} (hcount : count ≠ 0) :
    ∃ cs, (text j).take count = '\x7b' :: cs := by
  obtain ⟨cs, hcs⟩ := text_braces h
  obtain ⟨n, rfl⟩ := Nat.exists_eq_succ_of_ne_zero hcount
  exact ⟨_, by rw [hcs, List.take_succ_cons]⟩

/-- More behind a text spoils its line. -/
theorem unreadable_spoiled (rt : AuditRuntime) (hw : IsEntry w) {cs : List Char} (hcs : ∀ c ∈ cs, lineEnd c = false) :
    ∃ line, strippedLines (text w ++ '\x7b' :: cs) = [line] ∧ Json.loads rt.readFloat (String.ofList line) = none := by
  obtain ⟨log', a', hentry⟩ := hw
  obtain ⟨ds, hds⟩ := text_braces hentry
  obtain ⟨kept, hstrip, -⟩ := stripWhere_keeps (p := spaceChar) (c := '\x7b') (d := '\x7b') (by decide) (by decide)
    (show text w ++ '\x7b' :: cs = '\x7b' :: (ds ++ ['\x7d'] ++ '\x7b' :: cs) by rw [hds, List.cons_append])
  have hunbroken : ∀ c ∈ text w ++ '\x7b' :: cs, lineEnd c = false := by
    intro c hc
    rcases List.mem_append.mp hc with hc | hc
    · exact (line_text hentry).unbroken c hc
    · rcases List.mem_cons.mp hc with rfl | hc
      · decide
      · exact hcs c hc
  refine ⟨text w ++ '\x7b' :: kept, ?_, ?_⟩
  · rw [strippedLines_of_unbroken hunbroken, hstrip, if_neg (by simp)]
  · rw [entry_eq hentry]
    exact Json.loads_trailing standard_auditOptions (.cons rfl) (by simp [Json.skipSpace_cons, Json.isSpace])

/-- A text that is cut short cannot be read. -/
theorem unreadable_cut (rt : AuditRuntime) (h : log.entry a = .ok j) {count : Nat} (hcount : count ≠ 0)
    (hcut : count < (text j).length) :
    ∃ line, strippedLines ((text j).take count) = [line] ∧ Json.loads rt.readFloat (String.ofList line) = none := by
  obtain ⟨cs, hcs⟩ := take_text h hcount
  obtain ⟨kept, hstrip, hkept⟩ := stripWhere_keeps (p := spaceChar) (c := '\x7b') (d := '\x7b') (by decide) (by decide)
    (show [] ++ '\x7b' :: cs = '\x7b' :: cs from rfl)
  rw [List.nil_append, List.nil_append] at hstrip
  have hunbroken : ∀ c ∈ '\x7b' :: cs, lineEnd c = false := by
    intro c hc
    rw [← hcs] at hc
    exact (line_text h).unbroken c (List.mem_of_mem_take hc)
  refine ⟨'\x7b' :: kept, ?_, ?_⟩
  · rw [hcs, strippedLines_of_unbroken hunbroken, hstrip, if_neg (by simp)]
  · obtain ⟨more, hmore⟩ := ((List.prefix_cons_inj _).mpr hkept).trans (hcs ▸ List.take_prefix count (text j))
    have hne : more ≠ [] := by
      rintro rfl
      have hlength := congrArg List.length hmore
      have htake := congrArg List.length hcs
      have hle := hkept.length_le
      rw [List.append_nil, List.length_cons] at hlength
      rw [List.length_take, List.length_cons] at htake
      omega
    rw [entry_eq h] at hmore
    exact Json.loads_cut standard_auditOptions hmore hne

/-- What is written behind a line without its newline spoils the line. -/
theorem entries_spoiled (hw : IsEntry w) (h : log.entry a = .ok j) {count : Nat} (hcount : count ≠ 0)
    (hws : ∀ w ∈ ws, IsEntry w) (es : List Json) :
    entries rt (ws.flatMap (fun w => text w ++ ['\n']) ++ text w ++ (text j ++ ['\n']).take count) ≠ .ok es := by
  obtain ⟨cs, hcs⟩ := take_text h hcount
  have hunbroken : ∀ c ∈ cs, lineEnd c = false := by
    intro c hc
    have hmem : c ∈ (text j).take count := hcs ▸ List.mem_cons_of_mem _ hc
    exact (line_text h).unbroken c (List.mem_of_mem_take hmem)
  obtain ⟨line, hline, hloads⟩ := unreadable_spoiled rt hw hunbroken
  refine entries_ne_ok line ?_ hloads es
  rw [List.append_assoc, strippedLines_whole hws, strippedLines_take_newline, hcs, hline]
  simp

/-- A line cut short cannot be read. -/
theorem entries_cut (h : log.entry a = .ok j) {count : Nat} (hcount : count ≠ 0) (hcut : count < (text j).length)
    (hws : ∀ w ∈ ws, IsEntry w) (es : List Json) :
    entries rt (ws.flatMap (fun w => text w ++ ['\n']) ++ (text j ++ ['\n']).take count) ≠ .ok es := by
  obtain ⟨line, hline, hloads⟩ := unreadable_cut rt h hcount hcut
  have htake := strippedLines_take_newline [] (text j) count
  rw [List.nil_append, List.nil_append] at htake
  refine entries_ne_ok line ?_ hloads es
  rw [strippedLines_whole hws, htake, hline]
  simp

end AuditLog

/-- Only an integer is read back as one. -/
theorem eq_int_of_reread {readFloat : String → PyFloat} {o : Json.DumpsOptions} {j : Json} {n : Int}
    (h : Json.reread readFloat o j = .int n) : j = .int n := by
  cases j with
  | int m =>
      rw [Json.reread] at h
      exact h
  | obj ms =>
      rw [Json.reread_obj] at h
      cases h
  | null | bool b | float x | str t | arr items =>
      rw [Json.reread] at h
      cases h

/-- A file that ends with this entry and that the log survives: the entry has the number the log had for it. -/
theorem Intact.keepsSeq {log : AuditLog} {a : AuditAppend} {j : Json} (hs : Intact rt ws s) (hlog : s.log = some log)
    (hentry : log.entry a = .ok j) (hfile : FileOf (ws ++ [j]) s'.file) (hsurvives : Survives rt h s') :
    log.KeepsSeq a := by
  have hws : ∀ w ∈ ws ++ [j], IsEntry w := by
    intro w hw
    rcases List.mem_append.mp hw with hw | hw
    · exact hs.entries w hw
    · rw [List.mem_singleton.mp hw]
      exact ⟨log, a, hentry⟩
  obtain ⟨es, hes, -, hseqs⟩ := hsurvives.entries
  rw [entries_eq (hfile.lines hws)] at hes
  obtain rfl := Except.ok.inj hes
  have hseq : (back rt j).get? "seq" = some (.int ws.length) := by
    rw [List.map_map, List.length_map, List.length_append, List.length_singleton, List.range_succ, List.map_append,
      List.map_append] at hseqs
    simpa using (List.append_inj' hseqs rfl).2
  intro v hv
  rw [get?_seq hentry, hv] at hseq
  obtain ⟨u, hu, hback⟩ := Option.map_eq_some_iff.mp hseq
  have hvu : v = some u := by simpa using hu
  rw [hvu, eq_int_of_reread hback, hs.next log hlog]
  rfl

/-- A file that the log survives after something was written: the writing started a line. -/
theorem Intact.startsLine {log : AuditLog} {a : AuditAppend} {j : Json} (hs : Intact rt ws s)
    (hentry : log.entry a = .ok j) (count : Nat) (hcount : count ≠ 0) (hfile : s'.file = s.file ++ (text j ++ ['\n']).take count)
    (hsurvives : Survives rt h s') : StartsLine s.file := by
  obtain ⟨es, hes, -⟩ := hsurvives.entries
  rw [hfile] at hes
  have hws := hs.entries
  have hfileOf := hs.file
  generalize s.file = file at hes hfileOf ⊢
  cases hfileOf with
  | whole =>
      rcases List.eq_nil_or_concat ws with rfl | ⟨ws', w, rfl⟩
      · exact .inl rfl
      · right
        rw [List.concat_eq_append, List.flatMap_append, List.flatMap_singleton, ← List.append_assoc]
        exact ⟨_, rfl⟩
  | unended ws w =>
      refine absurd hes (entries_spoiled (hws w (by simp)) hentry hcount ?_ es)
      intro w' hw'
      exact hws w' (List.mem_append_left _ hw')

/-- **A step that an intact log survives is harmless.** -/
theorem Intact.harmless (hs : Intact rt ws s) (hstep : LogStep rt s op s') (hsurvives : Survives rt h s') :
    Harmless s op := by
  intro log' hlog'
  rcases hstep.cases with ⟨rfl, -⟩ | ⟨log, a, x, hlog, hentry, hop, -, -⟩ | ⟨log, a, j, hlog, hentry, rfl, rfl⟩ |
    ⟨log, a, j, count, hlog, hentry, rfl, rfl⟩
  · constructor
    · intro a j hop
      cases hop
    · intro a count j hop
      cases hop
  · obtain rfl : log = log' := Option.some.inj (hlog.symm.trans hlog')
    constructor
    · intro a' j' hop' hentry'
      rcases hop with rfl | ⟨count, rfl⟩
      · cases hop'
        rw [hentry] at hentry'
        cases hentry'
      · cases hop'
    · intro a' count' j' hop' hentry'
      rcases hop with rfl | ⟨count, rfl⟩
      · cases hop'
      · cases hop'
        rw [hentry] at hentry'
        cases hentry'
  · obtain rfl : log = log' := Option.some.inj (hlog.symm.trans hlog')
    refine ⟨?_, by simp⟩
    intro a' j' hop hentry'
    cases hop
    have hstarts : StartsLine s.file := by
      refine hs.startsLine hentry ((text j).length + 1) (by omega) ?_ hsurvives
      rw [List.take_of_length_le (by simp)]
    exact ⟨hstarts, hs.keepsSeq hlog hentry (hs.file.snoc hs.entries hstarts j).1 hsurvives⟩
  · obtain rfl : log = log' := Option.some.inj (hlog.symm.trans hlog')
    refine ⟨by simp, ?_⟩
    intro a' count' j' hop hentry'
    cases hop
    obtain rfl : j = j' := Except.ok.inj (hentry.symm.trans hentry')
    by_cases hcount : count = 0
    · exact .inl hcount
    · have hstarts : StartsLine s.file := hs.startsLine hentry count hcount rfl hsurvives
      have hlength : (text j).length ≤ count := by
        by_contra hcut
        obtain ⟨es, hes, -⟩ := hsurvives.entries
        rw [hs.file.eq_of_startsLine hs.entries hstarts] at hes
        exact entries_cut hentry hcount (by omega) hs.entries es hes
      refine .inr ⟨hlength, hstarts, hs.keepsSeq hlog hentry ?_ hsurvives⟩
      exact (hs.file.take hs.entries hstarts j hlength)

/-! ## The theorem -/

theorem written_snoc (h : LogHistory) (e : Event LogState LogOp) :
    written (h ++ [e]) = written h ++ (writtenBy e).toList := by
  cases he : writtenBy e <;> simp [written, he]

theorem survivesThroughout_snoc (h : LogHistory) (e : Event LogState LogOp) :
    SurvivesThroughout rt (h ++ [e]) ↔ SurvivesThroughout rt h ∧ Survives rt (h ++ [e]) e.after := by
  constructor
  · intro hall
    constructor
    · intro k e' hk
      have hlt := (List.getElem?_eq_some_iff.mp hk).1
      have hsurvives := hall k e' (by rw [List.getElem?_append_left hlt]; exact hk)
      rwa [List.take_append_of_le_length (by omega)] at hsurvives
    · have hsurvives := hall h.length e (by simp)
      rwa [List.take_of_length_le (by simp)] at hsurvives
  · rintro ⟨hall, hlast⟩ k e' hk
    by_cases hlt : k < h.length
    · rw [List.getElem?_append_left hlt] at hk
      rw [List.take_append_of_le_length (by omega)]
      exact hall k e' hk
    · have hle : k < h.length + 1 := by
        have := (List.getElem?_eq_some_iff.mp hk).1
        simpa using this
      obtain rfl : k = h.length := by omega
      obtain rfl : e = e' := by simpa using hk
      rw [List.take_of_length_le (by simp)]
      exact hlast

/-- After harmless steps the file holds the written entries and nothing else. -/
theorem LogRun.intact (hrun : LogRun rt h s) (hharmless : ∀ e ∈ h, Harmless e.before e.seen) :
    Intact rt (written h) s := by
  refine (hrun.guarded hharmless).history (P := fun h s => Intact rt (written h) s) ?_ ?_
  · rintro s rfl
    exact ⟨.whole [], by simp [written], by simp [written], by simp⟩
  · rintro h s op s' _ hs ⟨hstep, hop⟩
    rw [written_snoc]
    exact hs.step hstep hop

namespace Sample

def auditRuntime : AuditRuntime := ⟨fun _ => .nan, id⟩

def submitted : AuditAppend := ⟨"submit", Dict.empty, .finite 12 "12.0" (by decide)⟩

/-- The log of a new file, and its first entry. -/
def firstLog : AuditLog := ⟨.int 0⟩

def firstEntry : Json := Json.members (firstLog.fields submitted).entries

theorem firstLog_entry : firstLog.entry submitted = .ok firstEntry := rfl

theorem opened_run : LogRun auditRuntime [⟨⟨[], none⟩, .opened, ⟨[], some firstLog⟩⟩] ⟨[], some firstLog⟩ :=
  .snoc (h := []) (.nil rfl) (LogStep.opened ⟨[], none⟩)

end Sample

namespace Sample

/-- The log is killed before the first character of its entry, and again before the newline. -/
def killedHistory : LogHistory :=
  let open₀ : LogState := ⟨[], some firstLog⟩
  let unended : LogState := ⟨AuditLog.text firstEntry, none⟩
  [⟨⟨[], none⟩, .opened, open₀⟩, ⟨open₀, .torn submitted 0, ⟨[], none⟩⟩, ⟨⟨[], none⟩, .opened, open₀⟩,
    ⟨open₀, .torn submitted (AuditLog.text firstEntry).length, unended⟩,
    ⟨unended, .opened, ⟨unended.file, (AuditLog.new auditRuntime unended.file).toOption⟩⟩]

theorem killedHistory_run : ∃ s, LogRun auditRuntime killedHistory s := by
  have htorn (count : Nat) : LogStep auditRuntime ⟨[], some firstLog⟩ (.torn submitted count)
      ⟨(AuditLog.text firstEntry ++ ['\n']).take count, none⟩ := by
    have hstep : LogStep auditRuntime ⟨[], some firstLog⟩ _ _ := LogStep.torn rfl submitted count
    rw [run_append_ok firstLog_entry] at hstep
    simpa using hstep
  have hreopened := (opened_run.snoc (htorn 0)).snoc (LogStep.opened ⟨[], none⟩)
  have hwhole := htorn (AuditLog.text firstEntry).length
  rw [List.take_left] at hwhole
  exact ⟨_, (hreopened.snoc hwhole).snoc (LogStep.opened _)⟩

end Sample

end HermesPayments
