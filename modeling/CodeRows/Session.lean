import CodeRows.Json.Settings
import CodeRows.Json.Snippet
import CodeRows.Pointer
import CodeRows.Workspace

/-! # Sessions

A session is a workspace with a version, subscribers that are told of every change, and a click
listener.  A command that is reported raises the version by one and sends one record to every
subscriber, in the order in which they subscribed.  Reported are all insertions and deletions that
are applied, selection and emphasis unless they repeat what is so already, and the pointer entering
or leaving a token, whether or not a marking changes. -/

set_option autoImplicit false

namespace CodeRows

inductive ChangeKind where
  | rows
  | selection
  | highlight
deriving DecidableEq, Repr

/-- The rows from `first` up to and without `stop`. -/
structure RowSpan where
  first : Nat
  stop : Nat
deriving DecidableEq, Repr

namespace RowSpan

/-- The rows from one to another, both included, in whichever order they are given. -/
def between (a b : Nat) : RowSpan := ⟨min a b, max a b + 1⟩

def ofHighlight? (tokens : Highlight) : Option RowSpan :=
  match tokens.rows.head?, tokens.rows.getLast? with
  | some first, some last => some ⟨first, last + 1⟩
  | _, _ => none

end RowSpan

structure Change where
  kind : ChangeKind
  oldVersion : Nat
  newVersion : Nat
  rows : RowSpan
deriving DecidableEq, Repr

structure Session where
  workspace : Workspace
  pointer : Pointer := {}
  version : Nat := 0
  subscribers : List String := []
deriving DecidableEq

inductive Command where
  | insert (index : Nat) (snippets : List Snippet)
  | insertJson (index : Nat) (text : String)
  | delete (index : Nat)
  | select (index : Nat)
  | emphasize (index : Nat)
  | point (signal : Pointer.Signal)
  | subscribe (name : String)
  | listen (name : String)
deriving DecidableEq

inductive Reply where
  | applied (accepted : Bool)
  | refused (error : InputError)
  | pointed (outcome : Pointer.Outcome)
  | done
deriving DecidableEq

inductive Delivery where
  | change (subscriber : String) (record : Change)
  | click (listener : String) (target : ClickTarget)
deriving DecidableEq

structure Step where
  session : Session
  reply : Reply
  deliveries : List Delivery

namespace Session

def new (settings : Settings) : Session where
  workspace := Workspace.new settings

def listing (s : Session) : Listing := s.workspace.listing

def settings (s : Session) : Settings := s.workspace.settings

def ofJson (text : String) : Except InputError Session := (Settings.ofJson text).map new

def notify (s : Session) (kind : ChangeKind) (rows : RowSpan) : Session × List Delivery :=
  let record : Change := ⟨kind, s.version, s.version + 1, rows⟩
  ({ s with version := s.version + 1 }, s.subscribers.map fun name => .change name record)

/-- Take over an edited workspace, if there is one, and report the change, if there is one to
report. -/
def commit (s : Session) (edited : Option Workspace)
    (change : Workspace → Option (ChangeKind × RowSpan)) : Step :=
  match edited with
  | none => ⟨s, .applied false, []⟩
  | some workspace =>
    let next := { s with workspace := workspace }
    match change workspace with
    | none => ⟨next, .applied true, []⟩
    | some (kind, rows) => ⟨(next.notify kind rows).1, .applied true, (next.notify kind rows).2⟩

def insertRow (s : Session) (index : Nat) (snippets : List Snippet) : Step :=
  s.commit (s.workspace.insertRow index snippets) fun w =>
    some (.rows, ⟨index, w.listing.rowCount⟩)

def insertRowJson (s : Session) (index : Nat) (text : String) : Step :=
  match Snippet.listOfJson text with
  | .ok snippets => s.insertRow index snippets
  | .error error => ⟨s, .refused error, []⟩

def deleteRow (s : Session) (index : Nat) : Step :=
  s.commit (s.workspace.deleteRow index) fun w =>
    some (.rows, ⟨min (index - 1) w.listing.rowCount, w.listing.rowCount⟩)

def selectRow (s : Session) (index : Nat) : Step :=
  s.commit (s.workspace.selectRow index) fun _ =>
    if index = s.listing.selected then none
    else some (.selection, .between s.listing.selected index)

def isEmphasized (s : Session) (index : Nat) : Bool :=
  index == s.listing.selected && (s.listing.row? index).any (·.allTagged .selected)

def emphasizeRow (s : Session) (index : Nat) : Step :=
  s.commit (s.workspace.emphasizeRow index) fun _ =>
    if s.isEmphasized index then none
    else some (.selection, .between s.listing.selected index)

/-- Pass a signal to the listing, and a click to the listener. -/
def point (s : Session) (signal : Pointer.Signal) : Step :=
  let (listing, outcome) := s.listing.point signal
  let next := { s with workspace := s.workspace.setListing listing }
  let clicks := (s.pointer.heard? outcome).toList.map fun (name, target) => .click name target
  match RowSpan.ofHighlight? outcome.touched with
  | none => ⟨next, .pointed outcome, clicks⟩
  | some rows =>
    ⟨(next.notify .highlight rows).1, .pointed outcome, clicks ++ (next.notify .highlight rows).2⟩

def subscribe (s : Session) (name : String) : Session :=
  { s with subscribers := s.subscribers ++ [name] }

/-- Let `name` listen to clicks, in place of whoever did before. -/
def listen (s : Session) (name : String) : Session :=
  { s with pointer := ⟨some name⟩ }

def perform (s : Session) : Command → Step
  | .insert index snippets => s.insertRow index snippets
  | .insertJson index text => s.insertRowJson index text
  | .delete index => s.deleteRow index
  | .select index => s.selectRow index
  | .emphasize index => s.emphasizeRow index
  | .point signal => s.point signal
  | .subscribe name => ⟨s.subscribe name, .done, []⟩
  | .listen name => ⟨s.listen name, .done, []⟩

def run (s : Session) : List Command → Session
  | [] => s
  | command :: commands => run (s.perform command).session commands

def trace (s : Session) : List Command → List Step
  | [] => []
  | command :: commands => s.perform command :: trace (s.perform command).session commands

end Session

end CodeRows
