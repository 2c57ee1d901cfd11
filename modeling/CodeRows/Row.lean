import CodeRows.Position
import CodeRows.Token
import CodeRows.Numeric.Integer

/-! # Rows

A row is a list of tokens: the line number, the selection arrow, then the content.  The number
and the selection flag are also kept as values beside the two gutter texts that show them. -/

set_option autoImplicit false

namespace CodeRows

structure Row where
  number : Option Int
  tokens : List Token
  isSelected : Bool
deriving DecidableEq

namespace Row

def arrow : String := "→"

/-- A row of two empty gutter slots. -/
def blank : Row := ⟨none, [Token.gutter "", Token.gutter ""], false⟩

def ofSnippets (snippets : List Snippet) (highlighting : Bool) : Row :=
  { blank with tokens := blank.tokens ++ snippets.map (Snippet.token highlighting) }

def content (row : Row) : List Token := row.tokens.drop Position.contentColumn

/-- The token that decides whether the row opens or closes a block: the last one. -/
def marker? (row : Row) : Option Token := row.tokens.getLast?

def token? (row : Row) (column : Nat) : Option Token := row.tokens[column]?

def setText (row : Row) (column : Nat) (text : String) : Row :=
  { row with tokens := row.tokens.modify column (·.setText text) }

def setNumber (row : Row) (number : Option Int) : Row :=
  { row with number := number }.setText Position.numberColumn
    ((number.map Numeric.intText).getD "")

def setSelected (row : Row) (selected : Bool) : Row :=
  { row with isSelected := selected }.setText Position.arrowColumn (if selected then arrow else "")

def mapTokens (row : Row) (f : Token → Token) : Row := { row with tokens := row.tokens.map f }

def allTagged (row : Row) (tag : Tag) : Bool := row.tokens.all (·.hasTag tag)

end Row

end CodeRows
