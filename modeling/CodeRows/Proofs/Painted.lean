import CodeRows.Display
import CodeRows.Proofs.Layout

/-! # A display can be read back

A display holds classes where a listing holds tags.  The class names of a token's tags stand for
these tags again, as long as no host class has a reserved name, and in a session none has.  So the
listing of a session can be read off its display (`Display.toListing_ofListing`), and different
listings are displayed differently. -/

set_option autoImplicit false

namespace CodeRows

theorem OrderedSet.ofList_elems {α : Type} [Ord α] [Std.TransOrd α] [Std.LawfulEqOrd α]
    (s : OrderedSet α) : ofList s.elems = s :=
  ext_mem fun _ => mem_ofList

namespace Display

/-! ## Reading a display -/

def Cell.toToken (cell : Cell) : Token :=
  ⟨cell.text, OrderedSet.ofList (cell.classes.map Tag.ofClassName)⟩

def Line.toRow (line : Line) : Row :=
  ⟨line.number, line.cells.map Cell.toToken, line.isSelected⟩

/-- The listing that the display shows, if it shows one. -/
def toListing (display : Display) : Listing :=
  ⟨display.lines.map Line.toRow, display.selected⟩

def cell? (display : Display) (p : Position) : Option Cell :=
  (display.lines[p.row]?).bind (·.cells[p.column]?)

theorem toToken_ofToken {token : Token}
    (unreserved : ∀ name, Tag.custom name ∈ token.tags → name ∉ Tag.reserved) :
    (Cell.ofToken token).toToken = token := by
  rw [Cell.toToken, Cell.ofToken, TagSet.map_ofClassName_classNames unreserved,
    OrderedSet.ofList_elems]

theorem toRow_ofRow {row : Row} (laidOut : row.LaidOut) (index : Nat) :
    (Line.ofRow index row).toRow = row := by
  refine congrArg (Row.mk row.number · row.isSelected) ?_
  rw [Line.ofRow, List.map_map, List.map_congr_left (g := id), List.map_id]
  intro token member
  exact toToken_ofToken fun name carried => (laidOut.hostClass token member name carried).unreserved

theorem toListing_ofListing {listing : Listing} (laidOut : ∀ row ∈ listing.rows, row.LaidOut)
    (settings : Settings) : (ofListing listing settings).toListing = listing := by
  refine congrArg (Listing.mk · listing.selected) ?_
  apply List.ext_getElem?
  intro index
  rw [ofListing, List.getElem?_map, List.getElem?_mapIdx]
  cases found : listing.rows[index]? with
  | none => rfl
  | some row => exact congrArg some (toRow_ofRow (laidOut row (List.mem_of_getElem? found)) index)

theorem cell?_ofListing (listing : Listing) (settings : Settings) (p : Position) :
    (ofListing listing settings).cell? p = (listing.token? p).map Cell.ofToken := by
  simp only [cell?, ofListing, List.getElem?_mapIdx, Listing.token?, Listing.row?]
  cases listing.rows[p.row]? with
  | none => rfl
  | some row => simp [Line.ofRow, Row.token?]

end Display

/-- Two sessions show the same lines and selection exactly when their listings are the same, and the
listing can be read off the display: cell by cell, the classes stand for the tags of the token, in
order and each once. -/
theorem Session.display_loses_nothing (settings settings' : Settings)
    (history history' : List Command) :
    let s := (new settings).run history
    let s' := (new settings').run history'
    let display := Display.ofListing s.listing s.settings
    let display' := Display.ofListing s'.listing s'.settings
    (display.lines = display'.lines ∧ display.selected = display'.selected ↔
      s.listing = s'.listing) ∧
    display.toListing = s.listing ∧
    ∀ p, (display.cell? p).map (fun cell => (cell.text, cell.classes.map Tag.ofClassName)) =
        (s.listing.token? p).map (fun token => (token.text, token.tags.elems)) ∧
      ∀ cell, display.cell? p = some cell → cell.classes.Nodup := by
  intro s s' display display'
  have laidOut := laidOut_run settings history
  have readBack : display.toListing = s.listing := Display.toListing_ofListing laidOut _
  have readBack' : display'.toListing = s'.listing :=
    Display.toListing_ofListing (laidOut_run settings' history') _
  have unreserved : ∀ p token, s.listing.token? p = some token →
      ∀ name, Tag.custom name ∈ token.tags → name ∉ Tag.reserved := by
    intro p token found name carried
    obtain ⟨row, foundRow, foundToken⟩ := Option.bind_eq_some_iff.1 found
    have inRow := laidOut row (Listing.mem_rows_of_row? foundRow)
    exact (inRow.hostClass token (List.mem_of_getElem? foundToken) name carried).unreserved
  refine ⟨⟨?_, ?_⟩, readBack, fun p => ⟨?_, ?_⟩⟩
  · rintro ⟨lines, selected⟩
    rw [← readBack, ← readBack', Display.toListing, Display.toListing, lines, selected]
  · intro same
    simp only [display, display', Display.ofListing, same, and_self]
  · rw [Display.cell?_ofListing]
    cases found : s.listing.token? p with
    | none => rfl
    | some token =>
      simp only [Option.map_some, Display.Cell.ofToken,
        TagSet.map_ofClassName_classNames (unreserved p token found)]
  · intro cell shown
    rw [Display.cell?_ofListing] at shown
    obtain ⟨token, found, rfl⟩ := Option.map_eq_some_iff.1 shown
    exact TagSet.nodup_classNames (unreserved p token found)

end CodeRows
