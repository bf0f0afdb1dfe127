import HermesPayments.Store

/-!
# `HermesPayments.Process.AuditLines` — the audit file, as kills leave it

`AuditLog.append` writes one line at the end of the file, a JSON text and its newline, and a kill may leave any part of
it. A process that starts reads the file line by line (`AuditLog._load_seq`), and raises at a line that is not one JSON
text. So no process starts over part of a text. Over a text that lacks only its newline one does: but what it appends goes
onto the same line, and from then on that line is not read again (`AuditFile.opens_append`). The characters behind these
lines are in `HermesPayments.Process.AuditText`.
-/

namespace HermesPayments

/-! ## Lines -/

/-- A line of the audit file: the entries whose whole text stands on it, and whether part of another text does. -/
structure AuditLine where
  entries : List AuditEntry
  part    : Bool
deriving DecidableEq

/-- What a kill leaves of the line that is being written. -/
inductive Remnant where
  | nothing
  | part
  /-- All but the newline. -/
  | text
deriving DecidableEq

namespace AuditLine

def blank : AuditLine := ⟨[], false⟩

/-- Text goes where the line ends. -/
def write (l : AuditLine) (entry : AuditEntry) : Remnant → AuditLine
  | .nothing => l
  | .part    => { l with part := true }
  | .text    => { l with entries := l.entries ++ [entry] }

/-- Is the line blank, or one JSON text? -/
def reads : AuditLine → Bool
  | ⟨[], false⟩ | ⟨[_], false⟩ => true
  | _ => false

/-- The entry that is read from the line. -/
def entry? : AuditLine → Option AuditEntry
  | ⟨[entry], false⟩ => some entry
  | _ => none

@[simp] theorem reads_blank : blank.reads = true := rfl

@[simp] theorem entries_blank : blank.entries = [] := rfl

theorem reads_iff {l : AuditLine} : l.reads = true ↔ l.part = false ∧ l.entries.length ≤ 1 := by
  obtain ⟨_ | ⟨e, _ | ⟨e', rest⟩⟩, _ | _⟩ := l <;> simp [reads]

/-- A second text makes a line unreadable. -/
theorem reads_write_text {l : AuditLine} {entry : AuditEntry} :
    (l.write entry .text).reads = true ↔ l = blank := by
  obtain ⟨_ | ⟨e, rest⟩, _ | _⟩ := l <;> simp [write, reads_iff, blank]

/-- What is read from a line stands on it, and no line that is read holds more. -/
theorem toList_entry? {l : AuditLine} (h : l.reads = true) : l.entry?.toList = l.entries := by
  obtain ⟨_ | ⟨e, _ | ⟨e', rest⟩⟩, _ | _⟩ := l <;> simp_all [reads, entry?]

end AuditLine

/-! ## The file -/

/-- The lines that end in a newline, and the one after the last newline. -/
structure AuditFile where
  lines : List AuditLine
  last  : AuditLine
deriving DecidableEq

namespace AuditFile

def empty : AuditFile := ⟨[], .blank⟩

/-- `AuditLog.append`: the text and the newline go to the end of the file. -/
def append (f : AuditFile) (entry : AuditEntry) : AuditFile := ⟨f.lines ++ [f.last.write entry .text], .blank⟩

/-- An append that is cut short. -/
def cut (f : AuditFile) (entry : AuditEntry) (left : Remnant) : AuditFile := { f with last := f.last.write entry left }

/-- All lines: `for line in f`. -/
def all (f : AuditFile) : List AuditLine := f.lines ++ [f.last]

/-- The entries whose whole text is in the file. -/
def written (f : AuditFile) : List AuditEntry := f.all.flatMap AuditLine.entries

/-- The entries that have a line of their own. -/
def read (f : AuditFile) : List AuditEntry := f.all.filterMap AuditLine.entry?

/-- Does `_load_seq` return? -/
def opens (f : AuditFile) : Bool := f.all.all AuditLine.reads

/-- The file opens, and what is appended gets a line of its own. -/
structure Intact (f : AuditFile) : Prop where
  opens : f.opens = true
  ended : f.last = .blank

section

variable {f : AuditFile} {entry : AuditEntry}

@[simp] theorem written_empty : empty.written = [] := rfl

@[simp] theorem written_append : (f.append entry).written = f.written ++ [entry] := by
  simp [written, all, append, AuditLine.write]

/-- A cut leaves the entry out, or all of its text in. -/
theorem written_cut (left : Remnant) :
    (f.cut entry left).written = f.written ∨ (f.cut entry left).written = (f.append entry).written := by
  cases left with
  | nothing | part => exact .inl (by simp [written, all, cut, AuditLine.write])
  | text => exact .inr (by simp [written, all, append, cut])

theorem opens_iff : f.opens = true ↔ (∀ l ∈ f.lines, l.reads = true) ∧ f.last.reads = true := by
  simp [opens, all]

/-- **After an append the file opens** only if it did before and ended in a newline. -/
theorem opens_append : (f.append entry).opens = true ↔ f.Intact := by
  have hlast : f.last = .blank → f.last.reads = true := fun h => h ▸ AuditLine.reads_blank
  constructor
  · intro h
    obtain ⟨hlines, -⟩ := opens_iff.mp h
    have hended : f.last = .blank := AuditLine.reads_write_text.mp (hlines (f.last.write entry .text) (by simp [append]))
    exact ⟨opens_iff.mpr ⟨fun l hl => hlines l (by simp [append, hl]), hlast hended⟩, hended⟩
  · rintro ⟨hopens, hended⟩
    refine opens_iff.mpr ⟨fun l hl => ?_, AuditLine.reads_blank⟩
    rcases List.mem_append.mp hl with hl | hl
    · exact (opens_iff.mp hopens).1 l hl
    · rw [List.mem_singleton.mp hl]
      exact AuditLine.reads_write_text.mpr hended

theorem Intact.append (h : f.Intact) : (f.append entry).Intact := ⟨opens_append.mpr h, rfl⟩

/-- Where every line is read, all that was written is. -/
theorem read_of_opens (h : f.opens = true) : f.read = f.written := by
  have hlines (ls : List AuditLine) (hls : ∀ l ∈ ls, l.reads = true) :
      ls.filterMap AuditLine.entry? = ls.flatMap AuditLine.entries := by
    rw [List.filterMap_eq_flatMap_toList]
    exact List.flatMap_congr fun l hl => AuditLine.toList_entry? (hls l hl)
  exact hlines _ fun l hl => List.all_eq_true.mp h l hl

/-- … and so it is after a cut that met an intact file. -/
theorem Intact.read_cut (h : f.Intact) (left : Remnant) : (f.cut entry left).read = (f.cut entry left).written := by
  cases left with
  | nothing => exact read_of_opens h.opens
  | text =>
      refine read_of_opens (opens_iff.mpr ⟨(opens_iff.mp h.opens).1, ?_⟩)
      exact AuditLine.reads_write_text.mpr h.ended
  | part =>
      have hread := read_of_opens h.opens
      obtain ⟨lines, last⟩ := f
      obtain rfl : last = .blank := h.ended
      have hnone (part : Bool) : [AuditLine.mk [] part].filterMap AuditLine.entry? = [] := by
        cases part <;> rfl
      simpa [read, written, all, cut, AuditLine.write, AuditLine.blank, hnone] using hread

end

end AuditFile

end HermesPayments
