import HermesPayments.Lib.Lines

/-!
# `Lib.Pipes` — a process that answers lines, behind its pipes

A `Worker` reads lines from one pipe and writes lines to another. What it writes reaches the pipe in pieces (`flushed`),
and when it is killed, what has not reached it is lost. Who is at the other ends asks for one thing at a time: it writes a
line (`Worker.asked`) and waits for a line (`readLine`).

Between two questions a worker is `Idle`, then it is `Asked`, then it is `Answering`. Each act of the worker goes one step
along, or is a piece of the same answer, or its end; and whatever is read of it is the answer to the question, or a part
of it that the death of the worker has cut off (`Answering.read`).
-/

namespace Lib

/-! ## Reading lines -/

/-- `readline`: the next line of a stream, without its end, and what is left; none when it has to wait. A stream that is
    closed ends its last line. -/
def readLine (closed : Bool) (text : List Char) : Option (List Char × List Char) :=
  match text.dropWhile (fun c => !lineEnd c) with
  | _ :: rest => some (text.takeWhile (fun c => !lineEnd c), rest)
  | []        => if closed then some (text, []) else none

/-- A text without line ends. -/
def Unbroken (text : List Char) : Prop := ∀ c ∈ text, lineEnd c = false

theorem readLine_line {closed : Bool} {line : List Char} (h : Unbroken line) (rest : List Char) :
    readLine closed (line ++ '\n' :: rest) = some (line, rest) := by
  have hp : ∀ c ∈ line, (!lineEnd c) = true := fun c hc => by rw [h c hc]; rfl
  have hdrop : (line ++ '\n' :: rest).dropWhile (fun c => !lineEnd c) = '\n' :: rest := by
    rw [List.dropWhile_append_of_pos hp, List.dropWhile_cons_of_neg (by decide)]
  have htake : (line ++ '\n' :: rest).takeWhile (fun c => !lineEnd c) = line := by
    rw [List.takeWhile_append_of_pos hp, List.takeWhile_cons_of_neg (by decide), List.append_nil]
  rw [readLine, hdrop, htake]

/-- What is left of a stream without a line end is no line until the stream is closed. -/
theorem readLine_unbroken {closed : Bool} {text : List Char} (h : Unbroken text) :
    readLine closed text = if closed then some (text, []) else none := by
  have hp : ∀ c ∈ text, (!lineEnd c) = true := fun c hc => by rw [h c hc]; rfl
  rw [readLine, List.dropWhile_eq_nil_iff.mpr hp]

/-! ## Workers -/

structure Worker where
  running : Bool
  /-- What has been written to it and it has not read. -/
  stdin   : List Char
  /-- What it has written and not flushed. -/
  buffer  : List Char
  /-- What it has flushed and nobody has read. -/
  stdout  : List Char

/-- What a worker does. -/
inductive WorkerAct where
  /-- It writes a line that nobody asked for. -/
  | spoke (text : List Char)
  /-- It reads a line and writes one. -/
  | answered (line text : List Char)
  /-- It reads a line and writes none. -/
  | skipped (line : List Char)
  | flushed
  | killed

namespace Worker

/-- A worker that has been started. -/
def fresh : Worker := ⟨true, [], [], []⟩

/-- A worker that has not. -/
def absent : Worker := ⟨false, [], [], []⟩

inductive Step : Worker → WorkerAct → Worker → Prop
  | spoke {w : Worker} (hrunning : w.running = true) (text : List Char) :
      Step w (.spoke text) { w with buffer := w.buffer ++ text ++ ['\n'] }
  | answered {w : Worker} {line rest : List Char} (hrunning : w.running = true) (hbuffer : w.buffer = [])
      (hread : readLine false w.stdin = some (line, rest)) (text : List Char) :
      Step w (.answered line text) { w with stdin := rest, buffer := text ++ ['\n'] }
  | skipped {w : Worker} {line rest : List Char} (hrunning : w.running = true)
      (hread : readLine false w.stdin = some (line, rest)) : Step w (.skipped line) { w with stdin := rest }
  | flushed {w : Worker} {front back : List Char} (hrunning : w.running = true) (hbuffer : w.buffer = front ++ back) :
      Step w .flushed { w with buffer := back, stdout := w.stdout ++ front }
  | killed {w : Worker} (hrunning : w.running = true) : Step w .killed { w with running := false, buffer := [] }

/-- A line is written to it. -/
def asked (w : Worker) (line : List Char) : Worker := { w with stdin := w.stdin ++ line ++ ['\n'] }

theorem Step.running {w w' : Worker} {a : WorkerAct} (h : Step w a w') : w.running = true := by
  cases h with
  | spoke hrunning _ | answered hrunning _ _ _ | skipped hrunning _ | flushed hrunning _ | killed hrunning =>
      exact hrunning

theorem Step.down_of_killed {w w' : Worker} (h : Step w .killed w') : w'.running = false := by
  cases h with
  | killed _ => rfl

/-! ## One question at a time -/

/-- It has nothing to do. -/
structure Idle (w : Worker) : Prop where
  stdout : w.stdout = []
  buffer : w.running = true → w.buffer = []
  stdin  : w.running = true → w.stdin = []

/-- It has a line to read. -/
structure Asked (w : Worker) (line : List Char) : Prop where
  stdout : w.stdout = []
  buffer : w.running = true → w.buffer = []
  stdin  : w.running = true → w.stdin = line ++ ['\n']

/-- It has written a line, of which some may have been lost. -/
structure Answering (w : Worker) (text : List Char) : Prop where
  stdin : w.running = true → w.stdin = []
  line  : ∃ lost, w.stdout ++ w.buffer ++ lost = text ++ ['\n'] ∧ (w.running = true → lost = [])

theorem Idle.fresh : Idle fresh := ⟨rfl, fun _ => rfl, fun _ => rfl⟩

theorem Idle.absent : Idle absent := ⟨rfl, fun _ => rfl, fun _ => rfl⟩

/-- A running worker that has nothing to do is as if it had just been started. -/
theorem Idle.eq_fresh {w : Worker} (h : Idle w) (hrunning : w.running = true) : w = Worker.fresh := by
  obtain ⟨running, stdin, buffer, stdout⟩ := w
  obtain rfl : running = true := hrunning
  obtain rfl : stdin = [] := h.stdin rfl
  obtain rfl : buffer = [] := h.buffer rfl
  obtain rfl : stdout = [] := h.stdout
  rfl

theorem readLine_nil : readLine false [] = none := rfl

variable {w w' : Worker} {a : WorkerAct} {line text : List Char}

/-- The question is written to it. -/
theorem Idle.asked (h : Idle w) (line : List Char) : Asked (w.asked line) line :=
  ⟨h.stdout, h.buffer, fun hrunning => by rw [Worker.asked, h.stdin hrunning]; rfl⟩

/-- A worker that is not asked does not answer. -/
theorem Idle.step (h : Idle w) (hstep : Step w a w') : (∃ text, a = .spoke text ∧ Answering w' text) ∨
    (a = .flushed ∨ a = .killed) ∧ Idle w' := by
  obtain ⟨hstdout, hbuffer, hstdin⟩ := h
  cases hstep with
  | spoke hrunning text =>
      refine .inl ⟨text, rfl, hstdin, [], ?_, fun _ => rfl⟩
      simp [hstdout, hbuffer hrunning]
  | answered hrunning _ hread text =>
      rw [hstdin hrunning, readLine_nil] at hread
      cases hread
  | skipped hrunning hread =>
      rw [hstdin hrunning, readLine_nil] at hread
      cases hread
  | flushed hrunning hsplit =>
      obtain ⟨rfl, rfl⟩ := List.append_eq_nil_iff.mp (hsplit.symm.trans (hbuffer hrunning))
      exact .inr ⟨.inl rfl, by simpa using hstdout, fun _ => rfl, hstdin⟩
  | killed _ => exact .inr ⟨.inr rfl, hstdout, fun _ => rfl, by intro hrunning; cases hrunning⟩

/-- A worker that is asked reads the question, whole, and answers it. -/
theorem Asked.step (h : Asked w line) (hline : Unbroken line) (hstep : Step w a w') :
    (∃ text, a = .spoke text) ∨ a = .skipped line ∨ (∃ text, a = .answered line text ∧ Answering w' text) ∨
      (a = .flushed ∨ a = .killed) ∧ Asked w' line := by
  obtain ⟨hstdout, hbuffer, hstdin⟩ := h
  have hnext {line' rest : List Char} (hrunning : w.running = true) (hread : readLine false w.stdin = some (line', rest)) :
      line' = line ∧ rest = [] := by
    rw [hstdin hrunning, readLine_line hline] at hread
    cases hread
    exact ⟨rfl, rfl⟩
  cases hstep with
  | spoke _ text => exact .inl ⟨text, rfl⟩
  | answered hrunning _ hread text =>
      obtain ⟨rfl, rfl⟩ := hnext hrunning hread
      refine .inr (.inr (.inl ⟨text, rfl, fun _ => rfl, [], ?_, fun _ => rfl⟩))
      simp [hstdout]
  | skipped hrunning hread =>
      obtain ⟨rfl, rfl⟩ := hnext hrunning hread
      exact .inr (.inl rfl)
  | flushed hrunning hsplit =>
      obtain ⟨rfl, rfl⟩ := List.append_eq_nil_iff.mp (hsplit.symm.trans (hbuffer hrunning))
      exact .inr (.inr (.inr ⟨.inl rfl, by simpa using hstdout, fun _ => rfl, hstdin⟩))
  | killed _ => exact .inr (.inr (.inr ⟨.inr rfl, hstdout, fun _ => rfl, by intro hrunning; cases hrunning⟩))

/-- A worker that answers passes its answer on, and does nothing else. -/
theorem Answering.step (h : Answering w text) (hstep : Step w a w') :
    (∃ text, a = .spoke text) ∨ (a = .flushed ∨ a = .killed) ∧ Answering w' text := by
  obtain ⟨hstdin, lost, hsplit, hlost⟩ := h
  cases hstep with
  | spoke _ text => exact .inl ⟨text, rfl⟩
  | answered hrunning _ hread _ =>
      rw [hstdin hrunning, readLine_nil] at hread
      cases hread
  | skipped hrunning hread =>
      rw [hstdin hrunning, readLine_nil] at hread
      cases hread
  | @flushed front back hrunning hbuffer =>
      refine .inr ⟨.inl rfl, hstdin, lost, ?_, hlost⟩
      rw [← hsplit, hbuffer]
      simp
  | killed _ =>
      refine .inr ⟨.inr rfl, (by intro hrunning; cases hrunning), w.buffer ++ lost, ?_, (by intro hrunning; cases hrunning)⟩
      rw [← hsplit]
      simp

/-! ## What is read -/

/-- Nothing is read of a worker that has not answered, unless it has died. -/
theorem read_of_no_output {rest : List Char} (h : w.stdout = []) (hread : readLine (!w.running) w.stdout = some (text, rest)) :
    w.running = false ∧ text = [] := by
  rw [h] at hread
  cases hrunning : w.running with
  | true =>
      rw [hrunning] at hread
      cases hread
  | false =>
      rw [hrunning] at hread
      cases hread
      exact ⟨rfl, rfl⟩

/-- **What is read is the answer**, and nothing is left; or it is a part of the answer, which the death of the worker has
    cut off. -/
theorem Answering.read {read rest : List Char} (h : Answering w text) (htext : Unbroken text)
    (hread : readLine (!w.running) w.stdout = some (read, rest)) :
    (read = text ∧ Idle { w with stdout := rest }) ∨ w.running = false ∧ ∃ more, more ≠ [] ∧ read ++ more = text := by
  obtain ⟨hstdin, lost, hsplit, hlost⟩ := h
  rw [List.append_assoc] at hsplit
  rcases List.eq_nil_or_concat (w.buffer ++ lost) with hnil | ⟨more, c, hmore⟩
  · -- all of it has come through
    rw [hnil, List.append_nil] at hsplit
    rw [hsplit, readLine_line htext []] at hread
    cases hread
    exact .inl ⟨rfl, rfl, fun _ => (List.append_eq_nil_iff.mp hnil).1, hstdin⟩
  · -- the line end has not
    rw [hmore, List.concat_eq_append, ← List.append_assoc] at hsplit
    have hparts : w.stdout ++ more = text := (List.append_inj' hsplit rfl).1
    have hunbroken : Unbroken w.stdout := fun c hc => htext c (by rw [← hparts]; exact List.mem_append_left _ hc)
    rw [readLine_unbroken hunbroken] at hread
    cases hrunning : w.running with
    | true =>
        rw [hrunning] at hread
        cases hread
    | false =>
        rw [hrunning] at hread
        cases hread
        by_cases hnone : more = []
        · rw [hnone, List.append_nil] at hparts
          refine .inl ⟨hparts, rfl, ?_, ?_⟩
          · intro h
            cases h
          · intro h
            cases h
        · exact .inr ⟨rfl, more, hnone, hparts⟩

/-- **An answer comes through**: there is a line to read, or the worker passes on all it has, and then there is. -/
theorem Answering.progress (h : Answering w text) (htext : Unbroken text) :
    (readLine (!w.running) w.stdout).isSome = true ∨
      ∃ w', Step w .flushed w' ∧ (readLine (!w'.running) w'.stdout).isSome = true := by
  obtain ⟨_, lost, hsplit, hlost⟩ := h
  cases hrunning : w.running with
  | true =>
      rw [hlost hrunning, List.append_nil] at hsplit
      refine .inr ⟨_, .flushed hrunning (List.append_nil w.buffer).symm, ?_⟩
      rw [hsplit, readLine_line htext []]
      rfl
  | false =>
      refine .inl ?_
      unfold readLine
      split
      · rfl
      · rfl

end Worker
end Lib
