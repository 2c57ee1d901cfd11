import CodeRows.Tag

/-! # Tokens and snippets

A token is a piece of displayed text with its tags.  A snippet is what a host hands in for one
content token: a text and, if it likes, a class list. -/

set_option autoImplicit false

namespace CodeRows

structure Token where
  text : String
  tags : TagSet
deriving DecidableEq

namespace Token

def hasTag (token : Token) (tag : Tag) : Bool := token.tags.contains tag

def addTag (token : Token) (tag : Tag) : Token := { token with tags := token.tags.insert tag }

def removeTag (token : Token) (tag : Tag) : Token := { token with tags := token.tags.erase tag }

def setText (token : Token) (text : String) : Token := { token with text := text }

def gutter (text : String) : Token := ⟨text, OrderedSet.ofList [.code, .lineNumber]⟩

end Token

structure Snippet where
  text : String
  /-- Class names separated by blanks. -/
  kind : Option String := none
deriving DecidableEq, Repr

namespace Snippet

/-- The tags a snippet asks for.  Every token is code, and markings are not the host's to
give. -/
def tags (snippet : Snippet) : TagSet :=
  ((TagSet.parse (snippet.kind.getD "")).filter fun tag => !tag.isMarking).insert .code

/-- The content token of a snippet; with highlighting off it is tagged so. -/
def token (highlighting : Bool) (snippet : Snippet) : Token :=
  ⟨snippet.text, if highlighting then snippet.tags else snippet.tags.insert .noHighlighting⟩

end Snippet

end CodeRows
