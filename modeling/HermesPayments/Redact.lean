import HermesPayments.Lib.Python

/-!
# `HermesPayments.Redact` — redaction of sensitive text

`redactSensitive` replaces invoices, macaroon paths and 64-digit hex hashes in error and audit texts by
three left-to-right substitutions. `substitute` is `re.sub` for a pattern given by what it matches at one
position. The class of Unicode letters and digits behind `\w` is a parameter.
-/

namespace HermesPayments

open Lib

namespace Redact

/-- A pattern: given the character before the position and the text from it on, the length of the match
    (at least one) and its replacement. -/
abbrev Pattern := Option Char → List Char → Option (Nat × List Char)

/-- `re.sub`: leftmost, non-overlapping. The first argument counts the characters of the last match still
    to be passed over. -/
def substitute (p : Pattern) : Nat → Option Char → List Char → List Char
  | _, _, [] => []
  | skip + 1, _, c :: cs => substitute p skip (some c) cs
  | 0, prev, c :: cs =>
      match p prev (c :: cs) with
      | some (n, replacement) => replacement ++ substitute p (n - 1) (some c) cs
      | none => c :: substitute p 0 (some c) cs

/-! ## Character classes -/

/-- `[a-zA-Z0-9]` under `re.IGNORECASE`: four letters outside ASCII case-fold into it. -/
def invoiceChar (c : Char) : Bool := c.isAlphanum || [304, 305, 383, 8490].contains c.toNat

/-- `[a-f0-9]`. -/
def hexChar (c : Char) : Bool := ('0' ≤ c && c ≤ '9') || ('a' ≤ c && c ≤ 'f')

/-! ## The three patterns -/

/-- `tag` in any letter case, then at least one letter or digit. -/
def taggedInvoice (tag : String) (text : List Char) : Option (Nat × List Char) :=
  let n := tag.length
  if (text.take n).map Char.toLower = tag.toList then
    match ((text.drop n).takeWhile invoiceChar).length with
    | 0     => none
    | m + 1 => some (n + (m + 1), "<INVOICE>".toList)
  else none

def invoicePattern : Pattern := fun _ text =>
  taggedInvoice "lnbc" text <|> taggedInvoice "lntb" text <|> taggedInvoice "lnbcrt" text

/-- The longest `k ≥ 1` for which the suffix stands after `k` characters of `text`. -/
def lastOccurrence (suffix text : List Char) : Nat → Option Nat
  | 0     => none
  | k + 1 => if suffix.isPrefixOf (text.drop (k + 1)) then some (k + 1) else lastOccurrence suffix text k

def macaroonPattern : Pattern := fun _ text =>
  match text with
  | '/' :: rest =>
      let path := rest.takeWhile (fun c => !spaceChar c && c != ':')
      (lastOccurrence ".macaroon".toList path path.length).map
        (fun k => (1 + k + ".macaroon".length, "<MACAROON_PATH>".toList))
  | _ => none

def hashPattern (isAlnum : Char → Bool) : Pattern := fun prev text =>
  let word (c : Char) : Bool := isAlnum c || c == '_'
  if !prev.any word && (text.take 64).length = 64 && (text.take 64).all hexChar
      && !(text.drop 64).head?.any word then
    some (64, text.take 8 ++ "...".toList)
  else none

end Redact

open Redact in
/-- Redact invoices, macaroon paths, and hex hashes from text. -/
def redactSensitive (isAlnum : Char → Bool) (text : String) : String :=
  let text := substitute invoicePattern 0 none text.toList
  let text := substitute macaroonPattern 0 none text
  String.ofList (substitute (hashPattern isAlnum) 0 none text)

example : redactSensitive Char.isAlphanum "pay LNBC10x via /a/b.macaroon: ok"
    = "pay <INVOICE> via <MACAROON_PATH>: ok" := by decide

end HermesPayments
