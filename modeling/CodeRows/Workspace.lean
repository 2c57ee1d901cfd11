import CodeRows.Listing
import CodeRows.Settings

/-! # Editing a listing

A workspace is a listing under settings.  Rows are inserted, deleted and selected by index; a
request that does not fit is refused (`none`) and changes nothing.  After every change of the
rows exactly one row is selected and the line numbers are renewed. -/

set_option autoImplicit false

namespace CodeRows

structure Workspace where
  listing : Listing
  settings : Settings
deriving DecidableEq

namespace Workspace

def renumber (w : Workspace) : Workspace :=
  { w with listing := w.listing.mapRows fun index row => row.setNumber (w.settings.lineNumber index) }

def new (settings : Settings) : Workspace := renumber ⟨Listing.blank, settings⟩

def setListing (w : Workspace) (listing : Listing) : Workspace := { w with listing := listing }

/-- Whether the settings leave an index open to insertion and selection. -/
def permits (w : Workspace) (index : Nat) : Bool :=
  !w.settings.lastRowOnly || index == w.listing.lastIndex

/-- Put a row in and move the selection on by one, at most to the last row. -/
def insertRow (w : Workspace) (index : Nat) (snippets : List Snippet) : Option Workspace :=
  if index ≤ w.listing.rowCount && w.permits index then
    let row := Row.ofSnippets snippets w.settings.highlighting
    let longer := { w.listing with rows := w.listing.rows.insertIdx index row }
    let next := min (w.listing.selected + 1) longer.lastIndex
    some (renumber (w.setListing (longer.pointTo next)))
  else none

/-- Take a row out.  The last row stays: in its place the row before it goes, and the last row is
then selected.  The only row is never taken out. -/
def deleteRow (w : Workspace) (index : Nat) : Option Workspace :=
  if index < w.listing.rowCount && 1 < w.listing.rowCount then
    let isLast := index == w.listing.lastIndex
    let target := if isLast then index - 1 else index
    let shorter := { w.listing with rows := w.listing.rows.eraseIdx target }
    let next := if isLast then shorter.lastIndex else min w.listing.selected shorter.lastIndex
    some (renumber (w.setListing (shorter.pointTo next)))
  else none

def canSelect (w : Workspace) (index : Nat) : Bool :=
  index < w.listing.rowCount && w.permits index

def selectRow (w : Workspace) (index : Nat) : Option Workspace :=
  if w.canSelect index then some (w.setListing (w.listing.pointTo index)) else none

/-- Select a row and move the emphasis to it from the row that was selected before. -/
def emphasizeRow (w : Workspace) (index : Nat) : Option Workspace :=
  if w.canSelect index then
    let plain := w.listing.mapTokensOf w.listing.selected (·.removeTag .selected)
    some (w.setListing ((plain.pointTo index).mapTokensOf index (·.addTag .selected)))
  else none

end Workspace

end CodeRows
