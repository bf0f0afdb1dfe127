import Mathlib.Data.Rat.Defs
import HermesPayments.Lib.PyStr

/-!
# `Lib.Json` — JSON values and their canonical text

`Json` is a parsed JSON value as Python holds it: integers are unbounded, strings and keys may have unpaired
surrogates, an object is a list of members, and a finite float is carried as its exact value together with the
text its `repr` prints. `Json.dumps` is `json.dumps` with the options the callers vary: separators, key sorting
and ASCII escaping. An unpaired surrogate is escaped in either case, since a document is a text.

A number literal is read by `scanNumber`; the text of a float is one such literal, as a field.
-/

namespace Lib

/-! ## Number literals -/

namespace Literal

/-- `[0-9]*`, with the text after it. -/
def scanDigits (text : List Char) : List Char × List Char :=
  (text.takeWhile Char.isDigit, text.dropWhile Char.isDigit)

/-- `0|[1-9][0-9]*`. -/
def scanWhole : List Char → Option (List Char × List Char)
  | '0' :: rest => some (['0'], rest)
  | text =>
      match scanDigits text with
      | ([], _) => none
      | found   => some found

/-- `(\.[0-9]+)?`. -/
def scanFraction : List Char → List Char × List Char
  | '.' :: rest =>
      match scanDigits rest with
      | ([], _)         => ([], '.' :: rest)
      | (digits, rest') => ('.' :: digits, rest')
  | text => ([], text)

/-- `[+-]?`. -/
def scanSign : List Char → List Char × List Char
  | '+' :: rest => (['+'], rest)
  | '-' :: rest => (['-'], rest)
  | text        => ([], text)

/-- `([eE][+-]?[0-9]+)?`. -/
def scanExponent : List Char → List Char × List Char
  | [] => ([], [])
  | c :: rest =>
      if c = 'e' ∨ c = 'E' then
        match scanDigits (scanSign rest).2 with
        | ([], _)         => ([], c :: rest)
        | (digits, rest') => (c :: (scanSign rest).1 ++ digits, rest')
      else ([], c :: rest)

/-- `-?`. -/
def scanMinus : List Char → List Char × List Char
  | '-' :: rest => (['-'], rest)
  | text        => ([], text)

/-- A number literal at the start of the text: its sign, its whole part, the fraction and the exponent, and the
    text after it. -/
def scanNumber (text : List Char) : Option ((List Char × List Char × List Char) × List Char) :=
  let (sign, unsigned) := scanMinus text
  (scanWhole unsigned).map fun (whole, rest) =>
    let (fraction, rest) := scanFraction rest
    let (exponent, rest) := scanExponent rest
    ((sign, whole, fraction ++ exponent), rest)

/-- The text is one number literal with a fraction or an exponent. -/
def isFloat (text : List Char) : Bool :=
  match scanNumber text with
  | some ((sign, whole, tail), []) => sign ++ whole ++ tail = text && tail ≠ []
  | _ => false

end Literal

/-- A Python float: a finite one is its exact value and its `repr`. -/
inductive PyFloat where
  | finite (exact : Rat) (text : String) (literal : Literal.isFloat text.toList = true)
  | nan | inf | negInf
deriving DecidableEq

namespace PyFloat

/-- The exact value, `none` when not finite. -/
def value : PyFloat → Option Rat
  | finite exact _ _ => some exact
  | _ => none

/-- `repr`. -/
def repr : PyFloat → String
  | finite _ text _ => text
  | nan    => "nan"
  | inf    => "inf"
  | negInf => "-inf"

/-- The text of a float in a JSON document. -/
def jsonText : PyFloat → String
  | finite _ text _ => text
  | nan    => "NaN"
  | inf    => "Infinity"
  | negInf => "-Infinity"

end PyFloat

inductive Json where
  | null
  | bool (b : Bool)
  | int (n : Int)
  | float (x : PyFloat)
  | str (s : PyStr)
  | arr (items : List Json)
  | obj (members : List (PyStr × Json))

namespace Json

/-- The keyword arguments of `json.dumps`. -/
structure DumpsOptions where
  itemSeparator : String := ", "
  keySeparator  : String := ": "
  sortKeys      : Bool   := false
  ensureAscii   : Bool   := true

/-! ## String escapes -/

def hexDigit (n : Nat) : Char := if n < 10 then Char.ofNat (48 + n) else Char.ofNat (87 + n)

/-- `\uXXXX` for a 16-bit code unit. -/
def unicodeEscape (n : Nat) : List Char :=
  ['\\', 'u', hexDigit (n / 4096 % 16), hexDigit (n / 256 % 16), hexDigit (n / 16 % 16), hexDigit (n % 16)]

/-- How one character appears inside a JSON string literal. -/
def escapeChar (ensureAscii : Bool) (c : Char) : List Char :=
  if c = '\\' then ['\\', '\\']
  else if c = Char.ofNat 34 then ['\\', Char.ofNat 34]
  else if c = '\n' then ['\\', 'n']
  else if c = '\r' then ['\\', 'r']
  else if c = '\t' then ['\\', 't']
  else if c = Char.ofNat 8 then ['\\', 'b']
  else if c = Char.ofNat 12 then ['\\', 'f']
  else if c.toNat < 32 then unicodeEscape c.toNat
  else if ensureAscii = true ∧ 126 < c.toNat then
    if c.toNat < 65536 then unicodeEscape c.toNat
    else
      -- outside the basic plane: a surrogate pair
      unicodeEscape (55296 + (c.toNat - 65536) / 1024) ++ unicodeEscape (56320 + (c.toNat - 65536) % 1024)
  else [c]

/-- How one code point appears inside a JSON string literal. -/
def escapePoint (ensureAscii : Bool) : CodePoint → List Char
  | .char c => escapeChar ensureAscii c
  | .half s => unicodeEscape s.code

/-- A JSON string literal, quotes included. -/
def quote (ensureAscii : Bool) (s : PyStr) : String :=
  "\"" ++ String.ofList (s.points.flatMap (escapePoint ensureAscii)) ++ "\""

/-! ## Serialisation -/

mutual

/-- `json.dumps`. -/
def dumps (o : DumpsOptions) : Json → String
  | .null       => "null"
  | .bool true  => "true"
  | .bool false => "false"
  | .int n      => toString n
  | .float x    => x.jsonText
  | .str s      => quote o.ensureAscii s
  | .arr items  => "[" ++ o.itemSeparator.intercalate (dumpsItems o items) ++ "]"
  | .obj members =>
      let fields := dumpsMembers o members
      let fields := if o.sortKeys then fields.insertionSort (fun a b => a.1 ≤ b.1) else fields
      "\x7b" ++ o.itemSeparator.intercalate
        (fields.map (fun f => quote o.ensureAscii f.1 ++ o.keySeparator ++ f.2)) ++ "\x7d"

def dumpsItems (o : DumpsOptions) : List Json → List String
  | []      => []
  | x :: xs => dumps o x :: dumpsItems o xs

def dumpsMembers (o : DumpsOptions) : List (PyStr × Json) → List (PyStr × String)
  | []             => []
  | (k, v) :: rest => (k, dumps o v) :: dumpsMembers o rest

end

/-- The members that are present: `model_dump(exclude_none=True)` leaves an absent optional field out. -/
def members (fields : List (String × Option Json)) : Json :=
  .obj (fields.filterMap (fun f => f.2.map (fun v => (f.1, v))))

end Json
end Lib
