import HermesPayments.Lib.Json.Access

/-!
# `Lib.Python` — text and JSON values as Python code handles them

What the built-ins `repr`, `str.strip`, `str.replace`, `bool`, `type`, `str`, `int` and `==` make of text and of the
values a JSON reader builds. The tables of the Unicode database are parameters: `decimal` gives the value of a decimal
digit of any script.
-/

namespace Lib

/-! ## Text -/

/-- `repr` of a string without unprintable characters beyond ASCII other than unpaired surrogates. -/
def pyRepr (s : PyStr) : String :=
  -- code point 39 is the single quote, 34 the double quote
  let has (n : Nat) : Bool := s.points.contains (.char (Char.ofNat n))
  let q := Char.ofNat (if has 39 && !has 34 then 34 else 39)
  let escape : CodePoint → List Char
    | .half s => Json.unicodeEscape s.code
    | .char c =>
        if c = '\\' ∨ c = q then ['\\', c]
        else if c = '\n' then ['\\', 'n']
        else if c = '\r' then ['\\', 'r']
        else if c = '\t' then ['\\', 't']
        else if c.toNat < 32 ∨ c.toNat = 127 then
          ['\\', 'x', Json.hexDigit (c.toNat / 16), Json.hexDigit (c.toNat % 16)]
        else [c]
  String.ofList ([q] ++ s.points.flatMap escape ++ [q])

/-- `str` of a list of strings. -/
def pyList (xs : List String) : String := "[" ++ ", ".intercalate (xs.map fun x => pyRepr x) ++ "]"

/-- `\s` for text. -/
def spaceChar (c : Char) : Bool :=
  [32, 133, 160, 5760, 8232, 8233, 8239, 8287, 12288].contains c.toNat ||
    (9 ≤ c.toNat && c.toNat ≤ 13) || (28 ≤ c.toNat && c.toNat ≤ 31) ||
    (8192 ≤ c.toNat && c.toNat ≤ 8202)

/-- The characters without those at either end that satisfy `p`. -/
def stripWhere (p : Char → Bool) (text : List Char) : List Char :=
  ((text.dropWhile p).reverse.dropWhile p).reverse

/-- `text.replace(old, "")` for a nonempty `old`. The number counts the code points of the last occurrence still to be
    passed over. -/
def removeText {α : Type} [DecidableEq α] (old : List α) : Nat → List α → List α
  | _, [] => []
  | skip + 1, _ :: cs => removeText old skip cs
  | 0, c :: cs =>
      if old.isPrefixOf (c :: cs) then removeText old (old.length - 1) cs else c :: removeText old 0 cs

def pyRemove (s old : PyStr) : PyStr := .ofPoints (removeText old.points 0 s.points)

example : pyRemove "ENTRY_STATUS_COMPLETE" "ENTRY_STATUS_" = "COMPLETE" := by decide

/-! ## `int` -/

/-- The exceptions `int(x)` raises. -/
inductive IntError where
  | typeError (message : String)
  | valueError (message : String)
  | overflowError (message : String)
deriving DecidableEq

/-- `str(e)`. -/
def IntError.message : IntError → String
  | .typeError m     => m
  | .valueError m    => m
  | .overflowError m => m

/-- An integer text may not have more digits than this. -/
def maxStrDigits : Nat := 4300

section

variable (decimal : Char → Option Nat)

/-- The digits at the start of a text, single underscores between them allowed, and the text after them. The flag says
    that no underscore may come next, as at the start and after another one. -/
def scanInt : Bool → List Char → Option (List Nat × List Char)
  | guarded, [] => if guarded then none else some ([], [])
  | guarded, c :: cs =>
      if c = '_' then
        if guarded then none else scanInt true cs
      else
        match decimal c with
        | some d => (scanInt false cs).map (fun found => (d :: found.1, found.2))
        | none   => if guarded then none else some ([], c :: cs)

/-- What `int` strips: of ASCII the space and the controls 9 to 13, and beyond it all that is space. -/
def intSpace (c : Char) : Bool := c = ' ' || (9 ≤ c.toNat && c.toNat ≤ 13) || (127 ≤ c.toNat && spaceChar c)

/-- `int(s)` for a string. -/
def intOfText (s : PyStr) : Except IntError Int :=
  let invalid := IntError.valueError
    ("invalid literal for int() with base 10: " ++ String.ofList ((pyRepr s).toList.take 200))
  -- an unpaired surrogate is no digit, as the question mark is none
  let (sign, unsigned) := Literal.scanSign (stripWhere intSpace (s.chars '?'))
  match scanInt decimal true unsigned with
  | none => .error invalid
  | some (digits, rest) =>
      if maxStrDigits < digits.length then
        .error (.valueError (s!"Exceeds the limit ({maxStrDigits} digits) for integer string conversion: " ++
          s!"value has {digits.length} digits; use sys.set_int_max_str_digits() to increase the limit"))
      else if rest ≠ [] then .error invalid
      else
        let n : Int := (digits.foldl (fun value d => value * 10 + d) 0 : Nat)
        .ok (if sign = ['-'] then -n else n)

/-- `int(x)` for a float: the integer part. -/
def PyFloat.toInt : PyFloat → Except IntError Int
  | .finite exact _ _ => .ok (exact.num.tdiv exact.den)
  | .nan              => .error (.valueError "cannot convert float NaN to integer")
  | .inf | .negInf    => .error (.overflowError "cannot convert float infinity to integer")

end

/-- A finite float whose value is an integer is read as that integer. -/
theorem PyFloat.toInt_of_value {x : PyFloat} {n : Int} (h : x.value = some (n : Rat)) : x.toInt = .ok n := by
  cases x with
  | finite exact text literal =>
      obtain rfl : exact = n := Option.some.inj h
      show Except.ok ((n : Rat).num.tdiv (n : Rat).den) = .ok n
      rw [Rat.num_intCast, Rat.den_intCast]
      exact congrArg Except.ok (Int.tdiv_one n)
  | nan | inf | negInf => cases h

example : intOfText (fun c => if c.isDigit then some (c.toNat - 48) else none) " -1_050\n" = .ok (-1050) := by rfl

-- a separator is no space for `int`, whatever stands beside it
example : intOfText (fun c => if c = '１' then some 1 else none) "\u0085１" = .ok 1 ∧
    (intOfText (fun c => if c = '１' then some 1 else none) "\u001c１").toOption = none := by decide

/-! ## JSON values -/

namespace Json

/-- `data.get(key, default)`. -/
def getD (data : Json) (key : String) (default : Json) : Json := (data.get? key).getD default

/-- A member that is not the default is there, whatever the default. -/
theorem getD_of_ne_default {data x default : Json} {key : String} (h : data.getD key default = x) (hne : x ≠ default)
    {default' : Json} : data.getD key default' = x := by
  unfold getD at h ⊢
  cases hget : data.get? key with
  | some y =>
      rw [hget] at h
      exact h
  | none =>
      rw [hget] at h
      exact absurd h.symm hne

/-- `isinstance(x, dict)`. -/
def isDict : Json → Bool
  | .obj _ => true
  | _      => false

/-- `bool(x)`. -/
def truthy : Json → Bool
  | .null      => false
  | .bool b    => b
  | .int n     => n ≠ 0
  | .float x   => x.value ≠ some 0
  | .str s     => s ≠ .text ""
  | .arr items => !items.isEmpty
  | .obj ms    => !ms.isEmpty

/-- `type(x).__name__`. -/
def typeName : Json → String
  | .null    => "NoneType"
  | .bool _  => "bool"
  | .int _   => "int"
  | .float _ => "float"
  | .str _   => "str"
  | .arr _   => "list"
  | .obj _   => "dict"

mutual

/-- `repr(x)`. -/
def pyRepr : Json → String
  | .null       => "None"
  | .bool true  => "True"
  | .bool false => "False"
  | .int n      => toString n
  | .float x    => x.repr
  | .str s      => Lib.pyRepr s
  | .arr items  => "[" ++ ", ".intercalate (pyReprItems items) ++ "]"
  | .obj ms     => "\x7b" ++ ", ".intercalate (pyReprMembers ms) ++ "\x7d"

def pyReprItems : List Json → List String
  | []      => []
  | x :: xs => pyRepr x :: pyReprItems xs

def pyReprMembers : List (PyStr × Json) → List String
  | []             => []
  | (k, v) :: rest => (Lib.pyRepr k ++ ": " ++ pyRepr v) :: pyReprMembers rest

end

/-- `str(x)`. -/
def pyStr : Json → PyStr
  | .str s => s
  | x      => .text (pyRepr x)

/-- `int(x)`. -/
def toInt (decimal : Char → Option Nat) : Json → Except IntError Int
  | .bool b  => .ok (if b then 1 else 0)
  | .int n   => .ok n
  | .float x => x.toInt
  | .str s   => intOfText decimal s
  | x        => .error (.typeError ("int() argument must be a string, a bytes-like object or a real number, not " ++
      Lib.pyRepr x.typeName))

/-! ## Equality -/

/-- The number that a finite one compares as; a truth value is one. -/
def number? : Json → Option Rat
  | .bool b  => some (if b then 1 else 0)
  | .int n   => some n
  | .float x => x.value
  | _        => none

mutual

/-- `x is y or x == y`, as members of collections are compared: the reader makes one NaN object. -/
def same : Json → Json → Bool
  | .null, .null       => true
  | .str s, .str t     => s = t
  | .arr xs, .arr ys   => sameItems xs ys
  | .obj ms, .obj ms'  => ms.length = ms'.length && sameMembers ms ms'
  | .float .nan, .float .nan       => true
  | .float .inf, .float .inf       => true
  | .float .negInf, .float .negInf => true
  | x, y =>
      match x.number?, y.number? with
      | some a, some b => a = b
      | _, _ => false

def sameItems : List Json → List Json → Bool
  | [], []           => true
  | x :: xs, y :: ys => same x y && sameItems xs ys
  | _, _             => false

def sameMembers : List (PyStr × Json) → List (PyStr × Json) → Bool
  | [], _ => true
  | (k, v) :: rest, ms =>
      match ms.lookup k with
      | some w => same v w && sameMembers rest ms
      | none   => false

end

/-- `x == y`. -/
def pyEq : Json → Json → Bool
  | .float .nan, .float .nan => false
  | x, y => same x y

/-- Only a string equals a string. -/
theorem pyEq_str {x : Json} {s : PyStr} (h : pyEq x (.str s) = true) : x = .str s := by
  cases x with
  | str t =>
      have hts : t = s := by simpa [pyEq, same] using h
      rw [hts]
  | null => simp [pyEq, same, number?] at h
  | bool b => simp [pyEq, same, number?] at h
  | int n => simp [pyEq, same, number?] at h
  | float x =>
      exfalso
      cases x <;> simp [pyEq, same, number?] at h
  | arr items => simp [pyEq, same, number?] at h
  | obj ms => simp [pyEq, same, number?] at h

@[simp] theorem pyEq_str_self (s : PyStr) : pyEq (.str s) (.str s) = true := by simp [pyEq, same]

@[simp] theorem pyEq_int {n m : Int} : pyEq (.int n) (.int m) = true ↔ n = m := by simp [pyEq, same, number?]

end Json
end Lib
