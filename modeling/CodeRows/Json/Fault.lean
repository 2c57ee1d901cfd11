import CodeRows.Numeric.Layout
import CodeRows.Text.Invisible

/-! # Faults in JSON text

Reading stops at the first fault.  A fault has a cause, and a place given by the number of bytes
that are still unread there.  A fault of a whole object or list (a field missing or given twice,
too few elements) is pending at first: its place is where the attempt to close the container
ends.

Editing never fails; only texts and settings that a host hands in can be refused. -/

set_option autoImplicit false

namespace CodeRows.Json

/-- Numbers in JSON text: positional from 0.00001 up to sixteen places, a plus sign on positive
exponents, and nothing for what is not finite. -/
def number : Numeric.Layout :=
  { lowest := -5
    highest := 15
    plus := true
    tie := .toEven
    nan := "null"
    infinity := "null"
    negativeInfinity := "null" }

/-- A value that stands where another kind of value is expected. -/
inductive Found where
  | null
  | boolean (value : Bool)
  | integer (value : Int)
  | real (value : Binary64)
  | string (value : String)
  | list
  | object
deriving DecidableEq

def Found.describe : Found → String
  | null => "null"
  | boolean true => "boolean `true`"
  | boolean false => "boolean `false`"
  | integer value => "integer `" ++ Numeric.intText value ++ "`"
  | real value => "floating point `" ++ number.text value ++ "`"
  | string value => "string " ++ Text.quoted value
  | list => "sequence"
  | object => "map"

inductive Cause where
  | endInValue
  | endInList
  | endInObject
  | endInString
  | badWord
  | noValue
  | noColon
  | noListSeparator
  | noObjectSeparator
  | keyNotString
  | badNumber
  | numberTooLarge
  | badEscape
  | loneSurrogate
  | brokenPair
  | controlCharacter
  | trailingComma
  | trailingCharacters
  | wrongKind (found : Found) (expected : String)
  | outOfRange (value : Int) (expected : String)
  | duplicateField (name : String)
  | missingField (name : String)
  | tooFewElements (given : Nat) (record : String) (fields : Nat)
deriving DecidableEq

def Cause.message : Cause → String
  | endInValue => "EOF while parsing a value"
  | endInList => "EOF while parsing a list"
  | endInObject => "EOF while parsing an object"
  | endInString => "EOF while parsing a string"
  | badWord => "expected ident"
  | noValue => "expected value"
  | noColon => "expected `:`"
  | noListSeparator => "expected `,` or `]`"
  | noObjectSeparator => "expected `,` or `\x7d`"
  | keyNotString => "key must be a string"
  | badNumber => "invalid number"
  | numberTooLarge => "number out of range"
  | badEscape => "invalid escape"
  | loneSurrogate => "lone leading surrogate in hex escape"
  | brokenPair => "unexpected end of hex escape"
  | controlCharacter => "control character (\\u0000-\\u001F) found while parsing a string"
  | trailingComma => "trailing comma"
  | trailingCharacters => "trailing characters"
  | wrongKind found expected => "invalid type: " ++ found.describe ++ ", expected " ++ expected
  | outOfRange value expected =>
    "invalid value: integer `" ++ Numeric.intText value ++ "`, expected " ++ expected
  | duplicateField name => "duplicate field `" ++ name ++ "`"
  | missingField name => "missing field `" ++ name ++ "`"
  | tooFewElements given record fields =>
    "invalid length " ++ Numeric.natText given ++ ", expected struct " ++ record ++ " with " ++
      Numeric.natText fields ++ " elements"

def byteSize : List Char → Nat
  | [] => 0
  | c :: rest => c.utf8Size + byteSize rest

inductive Fault where
  /-- Met with `left` bytes unread. -/
  | placed (cause : Cause) (left : Nat)
  /-- Met in front of `rest`, inside a container that has not been closed. -/
  | pending (cause : Cause) (rest : List Char)
deriving DecidableEq

namespace Fault

def cause : Fault → Cause
  | placed cause _ => cause
  | pending cause _ => cause

def left : Fault → Nat
  | placed _ left => left
  | pending _ rest => byteSize rest

/-- Place a pending fault where the attempt to close its container ends. -/
def settle (close : List Char → List Char) : Fault → Fault
  | placed cause left => placed cause left
  | pending cause rest => placed cause (byteSize (close rest))

end Fault

abbrev Parse (α : Type) := Except Fault (α × List Char)

def faultAt (cause : Cause) (rest : List Char) : Fault := .placed cause (byteSize rest)

/-- A fault one byte into `rest`, or at its end. -/
def faultIn (cause : Cause) (rest : List Char) : Fault := .placed cause (byteSize rest - 1)

/-- Line and column of an offset in bytes.  Lines count from one; columns count the bytes since
the last line break. -/
def locate (line column : Nat) : List Char → Nat → Nat × Nat
  | [], _ => (line, column)
  | c :: rest, offset =>
    if offset < c.utf8Size then (line, column + offset)
    else if c = '\n' then locate (line + 1) 0 rest (offset - c.utf8Size)
    else locate line (column + c.utf8Size) rest (offset - c.utf8Size)

theorem bind_eq_ok {α β : Type} {x : Except Fault α} {f : α → Except Fault β} {b : β}
    (done : (x >>= f) = .ok b) : ∃ a, x = .ok a ∧ f a = .ok b := by
  cases x with
  | error fault => cases done
  | ok a => exact ⟨a, rfl, done⟩

theorem map_eq_ok {α β : Type} {x : Except Fault α} {f : α → β} {b : β}
    (done : x.map f = .ok b) : ∃ a, x = .ok a ∧ f a = b := by
  cases x with
  | error fault => cases done
  | ok a => exact ⟨a, rfl, Except.ok.inj done⟩

/-- A reader takes at least one character. -/
def Consumes {α : Type} (read : List Char → Parse α) : Prop :=
  ∀ s a rest, read s = .ok (a, rest) → rest.length < s.length

structure Reader (α : Type) where
  read : List Char → Parse α
  consumes : Consumes read

namespace Reader

def map {α β : Type} (f : α → β) (reader : Reader α) : Reader β where
  read s := (reader.read s).map fun (a, rest) => (f a, rest)
  consumes s b rest done := by
    obtain ⟨⟨a, after⟩, result, same⟩ := map_eq_ok done
    cases same
    exact reader.consumes s a rest result

end Reader

end CodeRows.Json

namespace CodeRows

inductive InputError where
  | json (cause : Json.Cause) (line column : Nat)
  | gutterWidth (width : Binary64)
deriving DecidableEq

def InputError.message : InputError → String
  | json cause line column =>
    "JSON parse error: " ++ cause.message ++ " at line " ++ Numeric.natText line ++ " column " ++
      Numeric.natText column
  | gutterWidth width =>
    "invalid value for 'firstColumnWidth': expected a finite number, got " ++
      Numeric.diagnostic.text width

end CodeRows
