import CodeRows.Json.Fault

/-! # Writing JSON

Compact text: no blanks, members in the order given.  In strings only quotes, backslashes and
characters below U+0020 are escaped. -/

set_option autoImplicit false

namespace CodeRows.Json

def escapeChar (c : Char) : List Char :=
  match c with
  | '"' => ['\\', '"']
  | '\\' => ['\\', '\\']
  | '\x08' => ['\\', 'b']
  | '\x0c' => ['\\', 'f']
  | '\n' => ['\\', 'n']
  | '\r' => ['\\', 'r']
  | '\t' => ['\\', 't']
  | c =>
    if c.toNat < 0x20 then
      ['\\', 'u', '0', '0', Nat.digitChar (c.toNat / 16), Nat.digitChar (c.toNat % 16)]
    else [c]

def writeString (text : String) : List Char :=
  '"' :: text.toList.flatMap escapeChar ++ ['"']

def writeBool (value : Bool) : List Char := (if value then "true" else "false").toList

def writeMember (member : String × List Char) : List Char :=
  writeString member.1 ++ ':' :: member.2

def joinParts : List (List Char) → List Char
  | [] => []
  | [part] => part
  | part :: next :: parts => part ++ ',' :: joinParts (next :: parts)

def writeObject (members : List (String × List Char)) : List Char :=
  '\x7b' :: joinParts (members.map writeMember) ++ ['\x7d']

def writeList (elements : List (List Char)) : List Char :=
  '[' :: joinParts elements ++ [']']

end CodeRows.Json
