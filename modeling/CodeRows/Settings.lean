import CodeRows.Numeric.Binary64
import CodeRows.Numeric.Integer

/-! # Settings

How a listing is numbered, coloured and laid out, and whether editing is confined to its last
row. -/

set_option autoImplicit false

namespace CodeRows

structure Settings where
  lineNumbers : Bool := true
  /-- When off, content tokens carry the tag that suppresses colouring. -/
  highlighting : Bool := true
  firstNumber : Int64 := 1
  /-- Width of the line-number column in characters; a negative one fits the content. -/
  gutterWidth : Binary64 := Binary64.minusOne
  /-- Insert and select at the last row only. -/
  lastRowOnly : Bool := false
deriving DecidableEq

namespace Settings

inductive Entry where
  | lineNumbers (on : Bool)
  | highlighting (on : Bool)
  | firstNumber (number : Int64)
  | gutterWidth (width : Binary64)
  | lastRowOnly (on : Bool)
deriving DecidableEq

def assign (settings : Settings) : Entry → Settings
  | .lineNumbers on => { settings with lineNumbers := on }
  | .highlighting on => { settings with highlighting := on }
  | .firstNumber number => { settings with firstNumber := number }
  | .gutterWidth width => { settings with gutterWidth := width }
  | .lastRowOnly on => { settings with lastRowOnly := on }

def ofEntries (entries : List Entry) : Settings := entries.foldl assign {}

/-- Equality in which the width is compared as a number. -/
def agrees (a b : Settings) : Bool :=
  a.lineNumbers == b.lineNumbers && a.highlighting == b.highlighting &&
    a.firstNumber == b.firstNumber && a.gutterWidth.equals b.gutterWidth &&
    a.lastRowOnly == b.lastRowOnly

/-- The number of the row at an index, where rows are numbered; it goes no further than the largest
64-bit integer. -/
def numberAt (settings : Settings) (index : Nat) : Int64 :=
  Numeric.saturatingAdd settings.firstNumber (Int64.ofNat index)

def lineNumber (settings : Settings) (index : Nat) : Option Int :=
  if settings.lineNumbers then some (settings.numberAt index).toInt else none

end Settings

end CodeRows
