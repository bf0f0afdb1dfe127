import HermesPayments.Lib.Dict
import HermesPayments.Lib.Json

/-!
# `Lib.Json.Loads` — reading a JSON document

`Json.loads` is `json.loads` on text: `none` where it raises. Among the members of an object a later one with
the same key replaces the value of an earlier one. The reading of a float literal is a parameter.

A string literal is read code point by code point, and then the pairs of surrogates are joined; one that has no
partner stays. Nesting and integers have no limits here, which is all of Python's reader that is left out.
-/

namespace Lib
namespace Json

/-! ## Characters -/

def dquote : Char := Char.ofNat 34

/-- `[ \t\n\r]`. -/
def isSpace (c : Char) : Bool := c = ' ' || c = '\t' || c = '\n' || c = '\r'

def skipSpace (text : List Char) : List Char := text.dropWhile isSpace

def hexValue (c : Char) : Option Nat :=
  if '0' ≤ c ∧ c ≤ '9' then some (c.toNat - 48)
  else if 'a' ≤ c ∧ c ≤ 'f' then some (c.toNat - 87)
  else if 'A' ≤ c ∧ c ≤ 'F' then some (c.toNat - 55)
  else none

/-! ## String literals -/

/-- Four hexadecimal digits. -/
def readHex4 : List Char → Option (Nat × List Char)
  | a :: b :: c :: d :: rest => do
      let a ← hexValue a
      let b ← hexValue b
      let c ← hexValue c
      let d ← hexValue d
      some (a * 4096 + b * 256 + c * 16 + d, rest)
  | _ => none

/-- What follows `\u`. -/
def readUnicode (text : List Char) : Option (CodePoint × List Char) := do
  let (n, rest) ← readHex4 text
  some (CodePoint.ofNat n, rest)

/-- What follows a backslash. -/
def readEscape : List Char → Option (CodePoint × List Char)
  | [] => none
  | c :: rest =>
      if c = dquote ∨ c = '\\' ∨ c = '/' then some (.char c, rest)
      else if c = 'b' then some (.char (Char.ofNat 8), rest)
      else if c = 'f' then some (.char (Char.ofNat 12), rest)
      else if c = 'n' then some (.char '\n', rest)
      else if c = 'r' then some (.char '\r', rest)
      else if c = 't' then some (.char '\t', rest)
      else if c = 'u' then readUnicode rest
      else none

/-- The code points of a string literal up to its closing quote, and the text after it. Control characters
    must be escaped. The number bounds the code points read. -/
def readChars : Nat → List Char → Option (List CodePoint × List Char)
  | 0, _ | _, [] => none
  | n + 1, c :: rest =>
      if c = dquote then some ([], rest)
      else if c = '\\' then do
        let (p, rest) ← readEscape rest
        let (ps, rest) ← readChars n rest
        some (p :: ps, rest)
      else if c.toNat < 32 then none
      else do
        let (ps, rest) ← readChars n rest
        some (.char c :: ps, rest)

/-- The string literal whose opening quote has been read. -/
def readString (text : List Char) : Option (PyStr × List Char) := do
  let (points, rest) ← readChars (text.length + 1) text
  some (PyStr.ofPoints points, rest)

example : readString "\\ud83d\\ude00\\ude00\"".toList
    = some (PyStr.ofPoints [.char '😀', .half ⟨56832, by decide⟩], []) := by decide +kernel

/-! ## Numbers and constants -/

section

variable (readFloat : String → PyFloat)

def readNumber (text : List Char) : Option (Json × List Char) := do
  let ((sign, whole, tail), rest) ← Literal.scanNumber text
  if tail = [] then
    let n : Int := Nat.ofDigitChars 10 whole 0
    some (.int (if sign = [] then n else -n), rest)
  else some (.float (readFloat (String.ofList (sign ++ whole ++ tail))), rest)

/-- The constants, the non-finite floats among them. -/
def constants : List (List Char × Json) :=
  [("null".toList, .null), ("true".toList, .bool true), ("false".toList, .bool false),
    ("NaN".toList, .float .nan), ("Infinity".toList, .float .inf), ("-Infinity".toList, .float .negInf)]

/-- The constant the text starts with, if any. -/
def readConstant (text : List Char) : Option (Json × List Char) :=
  (constants.find? (fun e => e.1.isPrefixOf text)).map (fun e => (e.2, text.drop e.1.length))

/-! ## Arrays and objects -/

/-- The items of an array and its closing bracket, given how a value is read. -/
def readItems (value : List Char → Option (Json × List Char)) : Nat → List Char → Option (List Json × List Char)
  | 0, _ => none
  | n + 1, text => do
      let (x, rest) ← value text
      match skipSpace rest with
      | ']' :: rest => some ([x], rest)
      | ',' :: rest => do
          let (xs, rest) ← readItems value n (skipSpace rest)
          some (x :: xs, rest)
      | _ => none

/-- The members of an object and its closing brace, given how a value is read. -/
def readMembers (value : List Char → Option (Json × List Char)) :
    Nat → List Char → Option (List (PyStr × Json) × List Char)
  | 0, _ | _, [] => none
  | n + 1, c :: text =>
      if c ≠ dquote then none
      else do
        let (k, rest) ← readString text
        match skipSpace rest with
        | ':' :: rest => do
            let (v, rest) ← value (skipSpace rest)
            match skipSpace rest with
            | '\x7d' :: rest => some ([(k, v)], rest)
            | ',' :: rest => do
                let (ms, rest) ← readMembers value n (skipSpace rest)
                some ((k, v) :: ms, rest)
            | _ => none
        | _ => none

/-- The object with these members, in reading order: a repeated key keeps its place and takes the last value. -/
def objectOf (members : List (PyStr × Json)) : Json :=
  .obj (members.foldl (fun d m => d.set m.1 m.2) Dict.empty).entries

/-- A value at the start of the text, and the text after it. The number bounds the nesting. -/
def readValue : Nat → List Char → Option (Json × List Char)
  | 0, _ | _, [] => none
  | n + 1, c :: text =>
      if c = dquote then do
        let (s, rest) ← readString text
        some (.str s, rest)
      else if c = '[' then
        match skipSpace text with
        | ']' :: rest => some (.arr [], rest)
        | items => do
            let (xs, rest) ← readItems (readValue n) (items.length + 1) items
            some (.arr xs, rest)
      else if c = '\x7b' then
        match skipSpace text with
        | '\x7d' :: rest => some (.obj [], rest)
        | members => do
            let (ms, rest) ← readMembers (readValue n) (members.length + 1) members
            some (objectOf ms, rest)
      else readConstant (c :: text) <|> readNumber readFloat (c :: text)

/-- `json.loads`: one value, with nothing but space around it. -/
def loads (text : String) : Option Json := do
  let start := skipSpace text.toList
  let (j, rest) ← readValue readFloat (start.length + 1) start
  if skipSpace rest = [] then some j else none

end

example : loads (fun _ => .nan) " \x7b\"b\": [1, -20, true], \"a\": \"x\\n\", \"b\": null\x7d "
    = some (.obj [("b", .null), ("a", .str "x\n")]) := by rfl

end Json
end Lib
