import HermesPayments.Lib.Lines
import HermesPayments.Lib.Proc

/-!
# `HermesPayments.AuditLog` — the audit log and the text of its file

The other modules see an audit line as one effect. Here the file is its characters: `append` writes one JSON text and a
newline behind what is there, and a new log reads all lines to find the number to go on with.

A file that does not exist is read like an empty one, and `append` creates it.
-/

namespace HermesPayments

open Lib

/-! ## Numbers -/

/-- The numbers that `seq` can come to hold. -/
inductive PyNumber where
  | int (n : Int)
  | float (x : PyFloat)
deriving DecidableEq

namespace PyNumber

def toJson : PyNumber → Json
  | int n   => .int n
  | float x => .float x

/-- The value of a finite number. -/
def exact : PyNumber → Rat
  | int n => n
  | float (.finite value _ _) => value
  | float _ => 0

/-- `x > y`. -/
def gt : PyNumber → PyNumber → Bool
  | float .nan, _ | _, float .nan | float .negInf, _ | _, float .inf => false
  | float .inf, _ | _, float .negInf => true
  | x, y => y.exact < x.exact

/-- `max(x, y)`. -/
def max (x y : PyNumber) : PyNumber := if y.gt x then y else x

/-- A value that a number can be added to, as that number. -/
def ofJson : Json → Option PyNumber
  | .int n   => some (int n)
  | .bool b  => some (int (if b then 1 else 0))
  | .float x => some (float x)
  | _        => none

end PyNumber

/-- What the log takes from the interpreter: how a float literal is read, and `x + 1` for a float. -/
structure AuditRuntime where
  readFloat : String → PyFloat
  addOne    : PyFloat → PyFloat

/-- `x + 1`. -/
def AuditRuntime.succ (rt : AuditRuntime) : PyNumber → PyNumber
  | .int n   => .int (n + 1)
  | .float x => .float (rt.addOne x)

/-! ## The log -/

/-- What the log raises. -/
inductive AuditExc where
  | jsonDecodeError | attributeError | typeError
deriving DecidableEq

/-- An open log: the number of the next entry. -/
structure AuditLog where
  seq : PyNumber

/-- The arguments of `append`, and the clock reading. A keyword argument is `none` when `json.dumps` refuses it. -/
structure AuditAppend where
  event  : String
  kwargs : Dict String (Option Json)
  now    : PyFloat

namespace AuditLog

def auditOptions : Json.DumpsOptions := { sortKeys := true }

/-- The loop of `_load_seq`. -/
def loadSeq (rt : AuditRuntime) : PyNumber → List (List Char) → Except AuditExc PyNumber
  | seq, [] => .ok seq
  | seq, line :: rest =>
      match Json.loads rt.readFloat (String.ofList line) with
      | none => .error .jsonDecodeError
      | some entry =>
          if entry.isDict then
            match PyNumber.ofJson (entry.getD "seq" (.int 0)) with
            | none   => .error .typeError
            | some n => loadSeq rt (seq.max (rt.succ n)) rest
          else .error .attributeError

/-- `AuditLog(path)`, over the content of the file. -/
def new (rt : AuditRuntime) (file : List Char) : Except AuditExc AuditLog :=
  (loadSeq rt (.int 0) (strippedLines file)).map AuditLog.mk

/-- The dictionary `append` builds. -/
def fields (log : AuditLog) (a : AuditAppend) : Dict String (Option Json) :=
  (Dict.ofList [("seq", some log.seq.toJson), ("ts", some (.float a.now)), ("event", some (.str a.event))]).update a.kwargs

/-- The entry that is written. The two parameters of `append` cannot be given again, and `json.dumps` may refuse. -/
def entry (log : AuditLog) (a : AuditAppend) : Except AuditExc Json :=
  if "self" ∈ a.kwargs.keys ∨ "event" ∈ a.kwargs.keys then .error .typeError
  else if (log.fields a).values.all Option.isSome then .ok (Json.members (log.fields a).entries)
  else .error .typeError

/-- The text of an entry. -/
def text (entry : Json) : List Char := (entry.dumps auditOptions).toList

/-- `append`; the effect is the text that is written. -/
def append (rt : AuditRuntime) (a : AuditAppend) : Proc (List Char) AuditExc AuditLog Unit := do
  let log ← Proc.get
  let entry ← Proc.ofExcept (log.entry a)
  Proc.emit [text entry ++ ['\n']]
  Proc.modify (fun log => ⟨rt.succ log.seq⟩)

/-- `entries()`, over the content of the file. -/
def entries (rt : AuditRuntime) (file : List Char) : Except AuditExc (List Json) :=
  (strippedLines file).mapM fun line =>
    match Json.loads rt.readFloat (String.ofList line) with
    | none       => .error .jsonDecodeError
    | some entry => .ok entry

end AuditLog
end HermesPayments
