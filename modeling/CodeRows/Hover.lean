import CodeRows.Listing

/-! # Tokens related to the one under the pointer

Under the pointer, a token lights up together with the tokens it belongs to.  The first rule
that applies decides.

1. A comment or a gutter slot stands for its row: all code tokens of the row.
2. The first content token of a row is the header of the block that the next row opens, and is
   treated as the next row's marker.
3. An opening bracket stands for its block: the code of its row, of the row before it, and of the
   rows down to the one whose marker closes the block.
4. A closing bracket stands for its block: the code of its row, and of the rows up to the one
   whose marker opens the block and one more.
5. A token in front of a `(` is the name of a call, and is treated as the `(`.
6. An opening parenthesis stands for its group: itself, the token before it, and the tokens of
   the row up to the one that closes the group.
7. A closing parenthesis stands for its group: itself, the tokens back to the one that opens the
   group, and one more.
8. Any other token stands for itself.

Delimiters are matched by counting depth.  A walk starts one level deep, takes the steps in order,
and ends with the step that brings it to the surface, or when the steps run out: a block or group
that is never closed runs to the end.  Relating looks neither at markings nor at texts other than
`(`, so marking the related tokens does not change which are related. -/

set_option autoImplicit false

namespace CodeRows

/-! ## Nesting depth -/

namespace Nesting

inductive Step where
  | deepen
  | rise
  | level
deriving DecidableEq, Repr

/-- A step from two tests, of which the first has precedence. -/
def Step.of (deepens rises : Bool) : Step :=
  if deepens then .deepen else if rises then .rise else .level

def Step.depth : Step → Nat → Nat
  | .deepen, depth => depth + 1
  | .rise, depth => depth - 1
  | .level, depth => depth

/-- How many steps a walk takes from the given depth. -/
def reach : Nat → List Step → Nat
  | 0, _ => 0
  | _ + 1, [] => 0
  | depth + 1, step :: steps => reach (step.depth (depth + 1)) steps + 1

end Nesting

/-! ## Related tokens -/

def Token.step (token : Token) (deeper shallower : Tag) : Nesting.Step :=
  .of (token.hasTag deeper) (token.hasTag shallower)

def Row.step (row : Row) (deeper shallower : Tag) : Nesting.Step :=
  match row.marker? with
  | some token => token.step deeper shallower
  | none => .level

namespace Listing

def codeOfRows (listing : Listing) (first last : Nat) : Highlight :=
  OrderedSet.ofList
    ((List.range' first (last + 1 - first)).flatMap (listing.taggedInRow · .code))

def columnsOfRow (row first last : Nat) : Highlight :=
  OrderedSet.ofList ((List.range' first (last + 1 - first)).map (Position.mk row))

/-- How many rows below a row belong to the block that it opens. -/
def blockHeight (listing : Listing) (row : Nat) : Nat :=
  Nesting.reach 1 ((listing.rows.drop (row + 1)).map (·.step .openBracket .closeBracket))

/-- How many rows above a row belong to the block that it closes. -/
def blockDepth (listing : Listing) (row : Nat) : Nat :=
  Nesting.reach 1 ((listing.rows.take row).reverse.map (·.step .closeBracket .openBracket))

def blockBelow (listing : Listing) (row : Nat) : Highlight :=
  listing.codeOfRows (row - 1) (row + listing.blockHeight row)

def blockAbove (listing : Listing) (row : Nat) : Highlight :=
  listing.codeOfRows (row - listing.blockDepth row - 1) row

def tokensOfRow (listing : Listing) (row : Nat) : List Token :=
  ((listing.row? row).map (·.tokens)).getD []

def groupWidthRight (listing : Listing) (p : Position) : Nat :=
  Nesting.reach 1
    (((listing.tokensOfRow p.row).drop (p.column + 1)).map (·.step .openParen .closeParen))

def groupWidthLeft (listing : Listing) (p : Position) : Nat :=
  Nesting.reach 1
    (((listing.tokensOfRow p.row).take p.column).reverse.map (·.step .closeParen .openParen))

def groupRight (listing : Listing) (p : Position) : Highlight :=
  columnsOfRow p.row (p.column - 1) (p.column + listing.groupWidthRight p)

def groupLeft (listing : Listing) (p : Position) : Highlight :=
  columnsOfRow p.row (p.column - listing.groupWidthLeft p - 1) p.column

/-- The token that a block header is treated as. -/
def headerTarget (listing : Listing) (p : Position) : Position :=
  if p.column = Position.contentColumn then
    match listing.marker? (p.row + 1) with
    | some marker => if listing.hasTag marker .openBracket then marker else p
    | none => p
  else p

/-- The token that the name of a call is treated as. -/
def callTarget (listing : Listing) (p : Position) : Position :=
  match listing.token? p.right with
  | some token => if token.text = "(" then p.right else p
  | none => p

def relatedInRow (listing : Listing) (p : Position) : Highlight :=
  let target := listing.callTarget p
  if listing.hasTag target .openParen then listing.groupRight target
  else if listing.hasTag target .closeParen then listing.groupLeft target
  else OrderedSet.ofList [target]

/-- The tokens related to the one at `p`; none if there is no token at `p`. -/
def related (listing : Listing) (p : Position) : Highlight :=
  match listing.token? p with
  | none => ∅
  | some token =>
    if token.tags.coversRow then listing.codeOfRows p.row p.row
    else
      let target := listing.headerTarget p
      if listing.hasTag target .openBracket then listing.blockBelow target.row
      else if listing.hasTag target .closeBracket then listing.blockAbove target.row
      else listing.relatedInRow target

def mark (listing : Listing) (tokens : Highlight) : Listing :=
  listing.mapTokensIn tokens (·.addTag .related)

def unmark (listing : Listing) (tokens : Highlight) : Listing :=
  listing.mapTokensIn tokens (·.removeTag .related)

end Listing

end CodeRows
