import CodeRows.Session

/-! # One-line descriptions

A session written out on one line, with every part named, for logs and diagnostics. -/

set_option autoImplicit false

namespace CodeRows.Inspect

/-- A name with its parts between braces. -/
def record (name : String) (parts : List (String × String)) : String :=
  name ++ " \x7b " ++ ", ".intercalate (parts.map fun (label, value) => label ++ ": " ++ value) ++
    " \x7d"

def list (items : List String) : String := "[" ++ ", ".intercalate items ++ "]"

def set (items : List String) : String := "\x7b" ++ ", ".intercalate items ++ "\x7d"

def bool (value : Bool) : String := if value then "true" else "false"

def tag : Tag → String
  | .custom name => "Custom(" ++ Text.quoted name ++ ")"
  | other => other.label

def tags (value : TagSet) : String :=
  record "TagSet" [("tags", set (value.elems.map tag))]

def token (value : Token) : String :=
  record "Token" [("text", Text.quoted value.text), ("tags", tags value.tags)]

def lineNumber : Option Int → String
  | none => "None"
  | some number => "Some(" ++ Numeric.intText number ++ ")"

def row (value : Row) : String :=
  record "Row"
    [("line_number", lineNumber value.number), ("tokens", list (value.tokens.map token)),
      ("is_selected", bool value.isSelected)]

def listing (value : Listing) : String :=
  record "Document"
    [("rows", list (value.rows.map row)), ("selected", Numeric.natText value.selected)]

def settings (value : Settings) : String :=
  record "EditorConfig"
    [("use_line_numbers", bool value.lineNumbers),
      ("use_syntax_highlighting", bool value.highlighting),
      ("line_number_start", Numeric.intText value.firstNumber.toInt),
      ("first_column_width", Numeric.diagnostic.text value.gutterWidth),
      ("restrict_insert_to_end", bool value.lastRowOnly)]

def workspace (value : Workspace) : String :=
  record "RowEditor" [("document", listing value.listing), ("config", settings value.settings)]

def pointer (value : Pointer) : String :=
  record "EventFacade" [("has_click_listener", bool value.listener.isSome)]

def session (value : Session) : String :=
  record "Editor"
    [("rows", workspace value.workspace), ("events", pointer value.pointer),
      ("version", Numeric.natText value.version),
      ("callbacks", Numeric.natText value.subscribers.length)]

end CodeRows.Inspect
