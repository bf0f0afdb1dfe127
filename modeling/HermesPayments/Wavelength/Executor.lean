import HermesPayments.Lib.Json.WellRead
import HermesPayments.Wavelength

/-!
# `HermesPayments.Wavelength.Executor` — wavecli as a subprocess

The executor that `run_hermes` hands to the adapter runs wavecli and decodes what it prints. Every way it can fail is an
`AdapterError`, but for the exceptions of the standard library that it does not catch; what it returns was read from a text
(`SubprocessWavecliExecutor.wellRead`).
-/

namespace HermesPayments

open Lib

/-- How `subprocess.run` ends. -/
inductive Subprocess where
  | fileNotFound
  | timeoutExpired
  | completed (returncode : Int) (stdout stderr : String)
  /-- Any other exception. -/
  | raised (message : String)

/-- `text.strip()`. -/
def pyStrip (text : String) : String := String.ofList (stripWhere spaceChar text.toList)

namespace SubprocessWavecliExecutor

/-- The default of `timeout`, in seconds. -/
def TIMEOUT : Int := 30

section

variable (py : PyRuntime)

/-- `json.loads` of the output. -/
def decodeOutput (stdout : String) : Except AdapterExc Json :=
  match py.limit stdout, Json.loads py.readFloat stdout with
  | some m, _    => .error (.other m)
  | none, some j => .ok j
  | none, none   => .error (.adapterError s!"wavecli returned invalid JSON: {py.undecodable (Utf8.encode stdout)}")

/-- `SubprocessWavecliExecutor.run`, given how the subprocess of each command ends. -/
def run (spawn : List String → Subprocess) (cmd : List String) : Except AdapterExc Json :=
  match spawn cmd with
  | .fileNotFound   => .error (.adapterError "wavecli binary not found; install wavecli")
  | .timeoutExpired => .error (.adapterError s!"wavecli timed out after {TIMEOUT}s")
  | .raised m       => .error (.other m)
  | .completed returncode stdout stderr => do
      raiseIf (returncode ≠ 0) (.adapterError
        s!"wavecli exited with code {returncode}: {redactSensitive py.isAlnum (pyStrip stderr)}")
      raiseIf (pyStrip stdout = "") (.adapterError "wavecli returned empty output")
      decodeOutput py (pyStrip stdout)

end

section

variable {py : PyRuntime} {spawn : List String → Subprocess} {cmd : List String} {data : Json}

/-- What it returns was printed by a subprocess that ended well. -/
theorem run_eq_ok : run py spawn cmd = .ok data ↔ ∃ stdout stderr, spawn cmd = .completed 0 stdout stderr ∧
    pyStrip stdout ≠ "" ∧ py.limit (pyStrip stdout) = none ∧ Json.loads py.readFloat (pyStrip stdout) = some data := by
  have hdecode (text : String) : decodeOutput py text = .ok data ↔
      py.limit text = none ∧ Json.loads py.readFloat text = some data := by
    unfold decodeOutput
    cases py.limit text with
    | some m => simp
    | none => cases Json.loads py.readFloat text <;> simp
  unfold run
  cases spawn cmd with
  | fileNotFound | timeoutExpired | raised _ => simp
  | completed returncode stdout stderr =>
      simp only [bind_eq_ok, raiseIf_eq_ok, exists_const, not_not, ne_eq, hdecode, Subprocess.completed.injEq]
      constructor
      · rintro ⟨rfl, hne, hlimit, hloads⟩
        exact ⟨stdout, stderr, ⟨rfl, rfl, rfl⟩, hne, hlimit, hloads⟩
      · rintro ⟨_, _, ⟨rfl, rfl, rfl⟩, hne, hlimit, hloads⟩
        exact ⟨rfl, hne, hlimit, hloads⟩

/-- **What wavecli answers is well read.** -/
theorem wellRead (hback : Json.ReadsBack py.readFloat) (h : run py spawn cmd = .ok data) : data.WellRead py.readFloat := by
  obtain ⟨_, _, _, _, _, hloads⟩ := run_eq_ok.mp h
  exact Json.wellRead_of_loads hback hloads

end

end SubprocessWavecliExecutor

/-- What the outside answers over wavecli: the clock, and how each subprocess ends. -/
def WavecliEnv.ofSubprocess (py : PyRuntime) (now : Int) (spawn : List String → Subprocess) : WavecliEnv :=
  ⟨now, SubprocessWavecliExecutor.run py spawn⟩

end HermesPayments
