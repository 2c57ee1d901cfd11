import CodeRows.OrderedSet
import CodeRows.Text.Blank

/-! # Tags and tag sets

A tag says what part a token plays: base cell, gutter slot, comment, block or group delimiter,
marking, or any class that the host page invents.  Every tag has a class name; a class list is
a text of class names separated by blanks, and names a set of tags.  Tag sets are ordered by
the vocabulary below, host-defined classes last and by code point. -/

set_option autoImplicit false

namespace CodeRows

open Std

inductive Tag where
  /-- Every displayed cell, content or gutter. -/
  | code
  /-- A gutter slot: line number or selection arrow. -/
  | lineNumber
  | comment
  /-- Opens a block that spans rows. -/
  | openBracket
  /-- Closes a block that spans rows. -/
  | closeBracket
  /-- Opens a group within a row. -/
  | openParen
  /-- Closes a group within a row. -/
  | closeParen
  /-- Colouring is switched off for this token. -/
  | noHighlighting
  /-- The token lies in the emphasized row. -/
  | selected
  /-- The token is related to the one under the pointer. -/
  | related
  /-- A class of the host's own. -/
  | custom (name : String)
deriving DecidableEq, Repr

namespace Tag

def className : Tag → String
  | code => "code"
  | lineNumber => "lineNumber"
  | comment => "comment"
  | openBracket => "openBracket"
  | closeBracket => "closeBracket"
  | openParen => "openParen"
  | closeParen => "closeParen"
  | noHighlighting => "noHighlighting"
  | selected => "selected"
  | related => "related"
  | custom name => name

/-- The tag that a class name stands for.  Three short spellings are accepted beside the full
ones, and a name outside the vocabulary is a class of the host's own. -/
def ofClassName (name : String) : Tag :=
  match name with
  | "code" => code
  | "lineNumber" | "lineNum" => lineNumber
  | "comment" => comment
  | "openBracket" | "openBrack" => openBracket
  | "closeBracket" | "closeBrack" => closeBracket
  | "openParen" => openParen
  | "closeParen" => closeParen
  | "noHighlighting" => noHighlighting
  | "selected" => selected
  | "related" => related
  | other => custom other

/-- The name of the tag in the vocabulary, one for all host-defined classes. -/
def label : Tag → String
  | code => "Code"
  | lineNumber => "LineNumber"
  | comment => "Comment"
  | openBracket => "OpenBracket"
  | closeBracket => "CloseBracket"
  | openParen => "OpenParen"
  | closeParen => "CloseParen"
  | noHighlighting => "NoHighlighting"
  | selected => "Selected"
  | related => "Related"
  | custom _ => "Custom"

def coversRow (tag : Tag) : Bool :=
  tag == comment || tag == lineNumber

/-- The markings that the program puts on tokens itself and never takes from a host. -/
def isMarking (tag : Tag) : Bool :=
  tag == selected || tag == related

def rank : Tag → Nat
  | code => 0
  | lineNumber => 1
  | comment => 2
  | openBracket => 3
  | closeBracket => 4
  | openParen => 5
  | closeParen => 6
  | noHighlighting => 7
  | selected => 8
  | related => 9
  | custom _ => 10

/-- Tags are ordered by their place in the vocabulary, then by name. -/
instance : Ord Tag := ⟨compareLex (compareOn rank) (compareOn className)⟩

instance : TransOrd Tag :=
  inferInstanceAs (TransCmp (compareLex (compareOn rank) (compareOn className)))

theorem eq_of_rank_className {a b : Tag} (sameRank : a.rank = b.rank)
    (sameName : a.className = b.className) : a = b := by
  cases a <;> cases b <;> simp_all [rank, className]

instance : LawfulEqOrd Tag where
  eq_of_compare {a b} same := by
    obtain ⟨sameRank, sameName⟩ := compareLex_eq_eq.1 same
    exact eq_of_rank_className (LawfulEqOrd.eq_of_compare sameRank)
      (LawfulEqOrd.eq_of_compare sameName)

end Tag

abbrev TagSet := OrderedSet Tag

namespace TagSet

def parse (classes : String) : TagSet :=
  OrderedSet.ofList ((Text.words classes).map Tag.ofClassName)

def classNames (tags : TagSet) : List String :=
  tags.elems.map Tag.className

def classList (tags : TagSet) : String :=
  " ".intercalate tags.classNames

def coversRow (tags : TagSet) : Bool :=
  tags.any Tag.coversRow

end TagSet

end CodeRows
