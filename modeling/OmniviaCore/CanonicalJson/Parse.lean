import OmniviaCore.CanonicalJson.Values
import OmniviaCore.Lib.Check
import OmniviaCore.Lib.Decimal

/-!
# Parsing a document

`parse_json_document` of `contracts/v1/canonical_json.py`: `json.loads` with its two hooks. Integers are
read exactly, up to the interpreter's limit on their digits, and other numbers as the nearest binary64,
or an infinity. A pair of surrogate escapes is one character and a lone one stays a surrogate. A scan gets
as fuel more than the length of its text.
-/

namespace OmniviaCore.CanonicalJson

open Lib

/-- How a document is refused: not JSON, an integer with too many digits, or by one of the hooks. -/
inductive ParseError where
  | decode
  | digits
  | duplicateName
  | constant
  | fuel
  deriving DecidableEq

def isSpace (c : Char) : Bool := c = ' ' || c = '\t' || c = '\n' || c = '\r'

def skipSpace (text : List Char) : List Char := text.dropWhile isSpace

/-! ## Strings -/

def hexValue (c : Char) : Option ℕ :=
  if c.isDigit then some (c.toNat - '0'.toNat)
  else if 'a' ≤ c ∧ c ≤ 'f' then some (c.toNat - 'a'.toNat + 10)
  else if 'A' ≤ c ∧ c ≤ 'F' then some (c.toNat - 'A'.toNat + 10)
  else none

/-- The code unit four hexadecimal digits write. -/
def hexUnit (a b c d : Char) : Except ParseError ℕ :=
  match hexValue a, hexValue b, hexValue c, hexValue d with
  | some a, some b, some c, some d => pure (((a * 16 + b) * 16 + c) * 16 + d)
  | _, _, _, _ => throw .decode

/-- `chr`. -/
def codePoint (n : ℕ) : CodePoint :=
  if h : 0xD800 ≤ n ∧ n < 0xE000 then .surrogate ⟨n - 0xD800, by omega⟩ else .scalar (Char.ofNat n)

/-- `BACKSLASH`. -/
def BACKSLASH : List (Char × Char) :=
  [('"', '"'), ('\\', '\\'), ('/', '/'), ('b', '\x08'), ('f', '\x0c'), ('n', '\n'), ('r', '\r'),
    ('t', '\t')]

/-- One more code point, before what is scanned after it. -/
def before (point : CodePoint) (scanned : Except ParseError (Str × List Char)) :
    Except ParseError (Str × List Char) := do
  let (points, rest) ← scanned
  pure (point :: points, rest)

/-- `scanstring`, after the opening quote. -/
def scanString : List Char → Except ParseError (Str × List Char)
  | [] => throw .decode
  | '"' :: rest => pure ([], rest)
  | '\\' :: 'u' :: a :: b :: c :: d :: rest => do
    let unit ← hexUnit a b c d
    let alone := before (codePoint unit) (scanString rest)
    if 0xD800 ≤ unit ∧ unit < 0xDC00 then
      match rest with
      | '\\' :: 'u' :: e :: f :: g :: h :: rest' => do
        let low ← hexUnit e f g h
        if 0xDC00 ≤ low ∧ low < 0xE000 then
          before (codePoint (0x10000 + (unit - 0xD800) * 1024 + (low - 0xDC00))) (scanString rest')
        else alone
      | _ => alone
    else alone
  | '\\' :: c :: rest =>
    match BACKSLASH.lookup c with
    | some char => before (.scalar char) (scanString rest)
    | none => throw .decode
  | c :: rest => if c.toNat < 0x20 then throw .decode else before (.scalar c) (scanString rest)

/-! ## Numbers -/

/-- The digits a text starts with, and what follows them. -/
def spanDigits (text : List Char) : List Char × List Char :=
  (text.takeWhile Char.isDigit, text.dropWhile Char.isDigit)

/-- The parts of a number: its sign, its integer digits, and the digits of its fraction and its
exponent if it has them. -/
structure NumberParts where
  negative : Bool
  integer : List Char
  fraction : Option (List Char)
  exponent : Option ℤ

def matchFraction (text : List Char) : Option (List Char) × List Char :=
  match text with
  | '.' :: rest =>
    let (digits, after) := spanDigits rest
    if digits = [] then (none, text) else (some digits, after)
  | _ => (none, text)

def matchSign (text : List Char) : Bool × List Char :=
  match text with
  | '+' :: rest => (false, rest)
  | '-' :: rest => (true, rest)
  | _ => (false, text)

def matchExponent (text : List Char) : Option ℤ × List Char :=
  match text with
  | c :: rest =>
    if c = 'e' ∨ c = 'E' then
      let (negative, unsigned) := matchSign rest
      let (digits, after) := spanDigits unsigned
      let magnitude : ℤ := Nat.ofDigitChars 10 digits 0
      if digits = [] then (none, text) else (some (if negative then -magnitude else magnitude), after)
    else (none, text)
  | [] => (none, text)

def matchMinus (text : List Char) : Bool × List Char :=
  match text with
  | '-' :: rest => (true, rest)
  | _ => (false, text)

/-- The integer digits: a zero has no others. -/
def matchInteger (text : List Char) : List Char × List Char :=
  match text with
  | '0' :: rest => (['0'], rest)
  | _ => spanDigits text

/-- `match_number`. -/
def matchNumber (text : List Char) : Option (NumberParts × List Char) :=
  let (negative, unsigned) := matchMinus text
  let (integer, rest) := matchInteger unsigned
  if integer = [] then none
  else
    let (fraction, rest) := matchFraction rest
    let (exponent, rest) := matchExponent rest
    some (⟨negative, integer, fraction, exponent⟩, rest)

/-- `parse_float` of a number with a fraction or an exponent, and `parse_int` of another. -/
def parseNumber (parts : NumberParts) : Except ParseError Value := do
  let magnitude := Nat.ofDigitChars 10 parts.integer 0
  match parts.fraction, parts.exponent with
  | none, none =>
    require (parts.integer.length ≤ MAX_STR_DIGITS) .digits
    pure (.int (if parts.negative then -(magnitude : ℤ) else magnitude))
  | _, _ =>
    let fraction := parts.fraction.getD []
    let scale := parts.exponent.getD 0 - fraction.length
    match Magnitude.nearest (Nat.ofDigitChars 10 fraction magnitude * 10 ^ scale) with
    | some x => pure (.float (.finite parts.negative x))
    | none => pure (.float (.infinite parts.negative))

/-! ## Values -/

def scanMembers (scan : List Char → Except ParseError (Value × List Char)) :
    ℕ → List Char → Except ParseError (List (Str × Value) × List Char)
  | 0, _ => throw .fuel
  | fuel + 1, '"' :: text => do
    let (name, rest) ← scanString text
    match skipSpace rest with
    | ':' :: rest => do
      let (item, rest) ← scan (skipSpace rest)
      match skipSpace rest with
      | '\x7d' :: rest => pure ([(name, item)], rest)
      | ',' :: rest => do
        let (members, rest) ← scanMembers scan fuel (skipSpace rest)
        pure ((name, item) :: members, rest)
      | _ => throw .decode
    | _ => throw .decode
  | _ + 1, _ => throw .decode

/-- The items after an opening bracket or a comma. -/
def scanItems (scan : List Char → Except ParseError (Value × List Char)) :
    ℕ → List Char → Except ParseError (List Value × List Char)
  | 0, _ => throw .fuel
  | fuel + 1, text => do
    let (item, rest) ← scan text
    match skipSpace rest with
    | ']' :: rest => pure ([item], rest)
    | ',' :: rest => do
      let (items, rest) ← scanItems scan fuel (skipSpace rest)
      pure (item :: items, rest)
    | _ => throw .decode

/-- `_reject_duplicate_member_names`. -/
def rejectDuplicateMemberNames (seen : List Str) :
    List (Str × Value) → Except ParseError (List (Key × Value))
  | [] => pure []
  | (name, item) :: pairs => do
    require (name ∉ seen) .duplicateName
    let rest ← rejectDuplicateMemberNames (name :: seen) pairs
    pure ((.name name, item) :: rest)

def scanObject (scan : List Char → Except ParseError (Value × List Char)) (text : List Char) :
    Except ParseError (Value × List Char) :=
  match skipSpace text with
  | '\x7d' :: rest => pure (.mapping [], rest)
  | start => do
    let (pairs, rest) ← scanMembers scan (start.length + 1) start
    let members ← rejectDuplicateMemberNames [] pairs
    pure (.mapping members, rest)

def scanArray (scan : List Char → Except ParseError (Value × List Char)) (text : List Char) :
    Except ParseError (Value × List Char) :=
  match skipSpace text with
  | ']' :: rest => pure (.sequence [], rest)
  | start => do
    let (items, rest) ← scanItems scan (start.length + 1) start
    pure (.sequence items, rest)

/-- The names of the literals that are not JSON. -/
def CONSTANTS : List (List Char) := ["NaN".toList, "Infinity".toList, "-Infinity".toList]

/-- A number, or one of the literals that are not JSON. -/
def scanNumber (text : List Char) : Except ParseError (Value × List Char) :=
  match matchNumber text with
  | some (parts, rest) => do
    let value ← parseNumber parts
    pure (value, rest)
  | none => if CONSTANTS.any (·.isPrefixOf text) then throw .constant else throw .decode

/-- `scan_once`. -/
def scanOnce : ℕ → List Char → Except ParseError (Value × List Char)
  | 0, _ => throw .fuel
  | _ + 1, [] => throw .decode
  | fuel + 1, c :: rest =>
    if c = '"' then do
      let (points, rest) ← scanString rest
      pure (.str points, rest)
    else if c = '\x7b' then scanObject (scanOnce fuel) rest
    else if c = '[' then scanArray (scanOnce fuel) rest
    else if "null".toList.isPrefixOf (c :: rest) then pure (.none, (c :: rest).drop 4)
    else if "true".toList.isPrefixOf (c :: rest) then pure (.bool true, (c :: rest).drop 4)
    else if "false".toList.isPrefixOf (c :: rest) then pure (.bool false, (c :: rest).drop 5)
    else scanNumber (c :: rest)

/-- `json.loads`, with the hooks of `parse_json_document`. -/
def loads (text : List Char) : Except ParseError Value := do
  require (text.head? ≠ some '\uFEFF') .decode
  let start := skipSpace text
  let (value, rest) ← scanOnce (start.length + 1) start
  require (skipSpace rest = []) .decode
  pure value

end OmniviaCore.CanonicalJson
