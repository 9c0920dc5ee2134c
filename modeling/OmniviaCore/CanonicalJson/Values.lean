import OmniviaCore.Lib.Binary64

/-!
# Values handed to the canonicalizer

`canonicalize` of `contracts/v1/canonical_json.py` is a direct entry point: what it is handed need not
be a JSON value. `Value` has the kinds the function tells apart, in the order it asks for them. A
Python `str` is a sequence of code points, among which a lone surrogate may stand; an `int` is
unbounded; a `float` is a binary64. A mapping is what its `items()` yields, so a name may occur twice.
-/

namespace OmniviaCore.CanonicalJson

open Lib

/-- A code point of a `str`: a Unicode scalar value, or the lone surrogate `0xD800 + n`. -/
inductive CodePoint where
  | scalar (c : Char)
  | surrogate (n : Fin 2048)
  deriving DecidableEq

/-- A `str`. -/
abbrev Str := List CodePoint

instance : LawfulBEq Str := inferInstance

/-- A `str` without surrogates. -/
def ofChars (chars : List Char) : Str := chars.map .scalar

/-- A key of a mapping: a name, or a value of another type. -/
inductive Key where
  | name (name : Str)
  | other (typeName : String)
  deriving DecidableEq

/-- A value. -/
inductive Value where
  | none
  | bool (b : Bool)
  | int (n : Int)
  | float (x : Binary64)
  | str (s : Str)
  | binary
  | mapping (members : List (Key × Value))
  | sequence (items : List Value)
  | other (typeName : String)

/-- `ContractSemanticError`, as the canonicalizer raises it: the path it names, and what its message
quotes. -/
inductive ContractSemanticError where
  | nestingDepth (path : Str)
  | booleanNumber (path : Str)
  | notFinite (path : Str)
  | inexactInteger (path : Str) (n : Int)
  | expectedNumber (path : Str)
  | loneSurrogate (path : Str) (n : Fin 2048)
  | memberNameType (path : Str) (typeName : String)
  | duplicateMemberName (path : Str) (name : Str)
  | noSortKey (name : Str)
  | binaryData (path : Str)
  | notJson (path : Str) (typeName : String)
  deriving DecidableEq

/-- What escapes the canonicalizer: its own error, or the bare `ValueError` of an integer too long to
be quoted in one. -/
inductive Raised where
  | contract (error : ContractSemanticError)
  | valueError
  deriving DecidableEq

/-- The digits an integer may have to be converted to text, or from it. -/
def MAX_STR_DIGITS : Nat := 4300

/-- `JCS_MAX_NESTING_DEPTH`. -/
def JCS_MAX_NESTING_DEPTH : Nat := 64

end OmniviaCore.CanonicalJson
