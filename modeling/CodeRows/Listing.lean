import CodeRows.Row

/-! # Listings

A listing is a column of rows, one of which is selected.  Tokens are found by position and by
tag; all lists of positions are in row-major order. -/

set_option autoImplicit false

namespace CodeRows

structure Listing where
  rows : List Row
  selected : Nat
deriving DecidableEq

namespace Listing

/-- One empty row, selected. -/
def blank : Listing := ⟨[Row.blank.setSelected true], 0⟩

def rowCount (listing : Listing) : Nat := listing.rows.length

def lastIndex (listing : Listing) : Nat := listing.rowCount - 1

def row? (listing : Listing) (index : Nat) : Option Row := listing.rows[index]?

def token? (listing : Listing) (p : Position) : Option Token :=
  (listing.row? p.row).bind (·.token? p.column)

/-- Whether there is a token at the position and it carries the tag. -/
def hasTag (listing : Listing) (p : Position) (tag : Tag) : Bool :=
  (listing.token? p).any (·.hasTag tag)

/-- Where the token stands that decides whether a row opens or closes a block. -/
def marker? (listing : Listing) (index : Nat) : Option Position :=
  match listing.row? index with
  | some row => if row.tokens.isEmpty then none else some ⟨index, row.tokens.length - 1⟩
  | none => none

def taggedInRow (listing : Listing) (index : Nat) (tag : Tag) : List Position :=
  match listing.row? index with
  | some row =>
    row.tokens.zipIdx.filterMap fun (token, column) =>
      if token.hasTag tag then some ⟨index, column⟩ else none
  | none => []

def tagged (listing : Listing) (tag : Tag) : List Position :=
  (List.range listing.rowCount).flatMap (listing.taggedInRow · tag)

def contentTexts? (listing : Listing) (index : Nat) : Option (List String) :=
  (listing.row? index).map fun row => row.content.map (·.text)

def contentText? (listing : Listing) (index : Nat) : Option String :=
  (listing.contentTexts? index).map String.join

def mapRows (listing : Listing) (f : Nat → Row → Row) : Listing :=
  { listing with rows := listing.rows.mapIdx f }

def mapTokensOf (listing : Listing) (index : Nat) (f : Token → Token) : Listing :=
  { listing with rows := listing.rows.modify index (·.mapTokens f) }

/-- Change the tokens at the positions of a set; positions without a token do not matter. -/
def mapTokensIn (listing : Listing) (tokens : Highlight) (f : Token → Token) : Listing :=
  listing.mapRows fun index row =>
    { row with
      tokens := row.tokens.mapIdx fun column token =>
        if tokens.contains ⟨index, column⟩ then f token else token }

/-- Put the selection on a row.  Flag and arrow are rewritten only where the flag is wrong. -/
def pointTo (listing : Listing) (index : Nat) : Listing :=
  { listing.mapRows fun i row =>
      if row.isSelected = decide (i = index) then row else row.setSelected (decide (i = index)) with
    selected := index }

end Listing

end CodeRows
