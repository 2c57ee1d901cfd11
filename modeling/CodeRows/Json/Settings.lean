import CodeRows.Json.Record
import CodeRows.Json.Writer
import CodeRows.Settings

/-! # Settings as JSON

Settings are an object with five optional members.  Four of them have a second name.  What is read
is checked before it is used. -/

set_option autoImplicit false

namespace CodeRows.Settings

open Json

def shape : Shape Entry where
  label := "EditorConfig"
  fields :=
    [⟨"useLineNumbers", ["lineNumBool"], Reader.bool.map .lineNumbers⟩,
      ⟨"useSyntaxHighlighting", ["syntaxHighlightingBool"], Reader.bool.map .highlighting⟩,
      ⟨"lineNumberStart", ["lineNumStart"], Reader.int64.map .firstNumber⟩,
      ⟨"firstColumnWidth", ["cellWidth"], Reader.binary64.map .gutterWidth⟩,
      ⟨"restrictInsertToEnd", [], Reader.bool.map .lastRowOnly⟩]
  required := 0

def validate (settings : Settings) : Except InputError Unit :=
  if settings.gutterWidth.isFinite then .ok () else .error (.gutterWidth settings.gutterWidth)

/-- Read settings; what is not mentioned is standard. -/
def ofJson (text : String) : Except InputError Settings :=
  match readAll shape.readRecord text with
  | .ok entries =>
    let settings := ofEntries entries
    settings.validate.map fun _ => settings
  | .error (cause, line, column) => .error (.json cause line column)

def jsonChars (settings : Settings) : List Char :=
  writeObject
    [("useLineNumbers", writeBool settings.lineNumbers),
      ("useSyntaxHighlighting", writeBool settings.highlighting),
      ("lineNumberStart", Numeric.intChars settings.firstNumber.toInt),
      ("firstColumnWidth", Json.number.chars settings.gutterWidth),
      ("restrictInsertToEnd", writeBool settings.lastRowOnly)]

def toJson (settings : Settings) : String := String.ofList settings.jsonChars

/-- Whether the settings come back when what is written is read.  The width need not, since
reading numbers is not exact. -/
def readsBack (settings : Settings) : Bool :=
  match ofJson settings.toJson with
  | .ok again => again.agrees settings
  | .error _ => false

end CodeRows.Settings
