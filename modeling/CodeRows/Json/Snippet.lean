import CodeRows.Json.Record
import CodeRows.Json.Writer
import CodeRows.Token

/-! # Snippets as JSON

A snippet is an object with a text and, optionally, a kind, which may also be called its type.
Snippets come as a list. -/

set_option autoImplicit false

namespace CodeRows.Snippet

open Json

inductive Entry where
  | text (value : String)
  | kind (value : Option String)
deriving DecidableEq

def assign (snippet : Snippet) : Entry → Snippet
  | .text value => { snippet with text := value }
  | .kind value => { snippet with kind := value }

def ofEntries (entries : List Entry) : Snippet := entries.foldl assign ⟨"", none⟩

def shape : Shape Entry where
  label := "TokenSpec"
  fields :=
    [⟨"text", [], Reader.text.map .text⟩,
      ⟨"kind", ["type"], Reader.textOrNull.map .kind⟩]
  required := 1

def listOfJson (text : String) : Except InputError (List Snippet) :=
  match readAll (readList (shape.reader.map ofEntries)) text with
  | .ok snippets => .ok snippets
  | .error (cause, line, column) => .error (.json cause line column)

def jsonChars (snippet : Snippet) : List Char :=
  writeObject
    (("text", writeString snippet.text) ::
      (snippet.kind.map fun kind => ("kind", writeString kind)).toList)

def toJson (snippet : Snippet) : String := String.ofList snippet.jsonChars

def listToJson (snippets : List Snippet) : String :=
  String.ofList (writeList (snippets.map jsonChars))

end CodeRows.Snippet
