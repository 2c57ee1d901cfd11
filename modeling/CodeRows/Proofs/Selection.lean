import CodeRows.Proofs.Run

/-! # One row is selected

The selection is recorded three times: as an index, as a flag on every row, and as an arrow in
the gutter.  `Listing.pointTo` writes the arrow only where the flag is wrong, so it relies on flag
and arrow being in step beforehand (`Row.InStep`).  That the three records agree is kept by every
edit, hence holds after every run. -/

set_option autoImplicit false

namespace CodeRows

/-! ## Flag and arrow of one row -/

namespace Row

/-- The gutter shows an arrow exactly when the flag is set. -/
def InStep (row : Row) : Prop :=
  row.text? Position.arrowColumn = some (if row.isSelected then arrow else "")

theorem inStep_setSelected {row : Row} (shown : row.InStep) (selected : Bool) :
    (row.setSelected selected).InStep := by
  unfold InStep at shown ⊢
  rw [text?_setSelected, shown]
  rfl

theorem inStep_ofSnippets (snippets : List Snippet) (highlighting : Bool) :
    (ofSnippets snippets highlighting).InStep := rfl

end Row

/-! ## The selection of a listing -/

namespace Listing

structure SingleSelection (listing : Listing) : Prop where
  nonempty : 1 ≤ listing.rowCount
  selected_lt : listing.selected < listing.rowCount
  flag : ∀ index row, listing.row? index = some row →
    (row.isSelected = true ↔ index = listing.selected)
  arrow : ∀ index row, listing.row? index = some row →
    row.text? Position.arrowColumn = some (if index = listing.selected then Row.arrow else "")

namespace SingleSelection

theorem inStep {listing : Listing} (single : listing.SingleSelection) {row : Row}
    (member : row ∈ listing.rows) : row.InStep := by
  obtain ⟨index, found⟩ := row?_of_mem_rows member
  rw [Row.InStep, single.arrow index row found]
  simp only [single.flag index row found]

/-- Changes that leave count, index, flags and arrows alone do not matter. -/
theorem transfer {listing other : Listing} (single : listing.SingleSelection)
    (sameCount : other.rowCount = listing.rowCount) (sameIndex : other.selected = listing.selected)
    (sameRows : ∀ index row, other.row? index = some row → ∃ old, listing.row? index = some old ∧
      row.isSelected = old.isSelected ∧
      row.text? Position.arrowColumn = old.text? Position.arrowColumn) :
    other.SingleSelection where
  nonempty := by
    rw [sameCount]
    exact single.nonempty
  selected_lt := by
    rw [sameCount, sameIndex]
    exact single.selected_lt
  flag := by
    intro index row found
    obtain ⟨old, foundOld, sameFlag, -⟩ := sameRows index row found
    rw [sameFlag, sameIndex]
    exact single.flag index old foundOld
  arrow := by
    intro index row found
    obtain ⟨old, foundOld, -, sameText⟩ := sameRows index row found
    rw [sameText, sameIndex]
    exact single.arrow index old foundOld

/-- Pointing to a row makes flags and arrows agree, if each arrow agreed with its own flag. -/
theorem pointTo {listing : Listing} {index : Nat} (bound : index < listing.rowCount)
    (shown : ∀ row ∈ listing.rows, row.InStep) : (listing.pointTo index).SingleSelection := by
  have settled : ∀ other row, (listing.pointTo index).row? other = some row →
      row.isSelected = decide (other = index) ∧ row.InStep := by
    intro other row found
    rw [row?_pointTo] at found
    obtain ⟨old, foundOld, rfl⟩ := Option.map_eq_some_iff.1 found
    have oldShown := shown old (mem_rows_of_row? foundOld)
    split
    · exact ⟨by assumption, oldShown⟩
    · exact ⟨rfl, Row.inStep_setSelected oldShown _⟩
  refine ⟨?_, ?_, ?_, ?_⟩
  · rw [rowCount_pointTo]
    omega
  · rw [rowCount_pointTo]
    exact bound
  · intro other row found
    rw [(settled other row found).1, selected_pointTo, decide_eq_true_eq]
  · intro other row found
    obtain ⟨flag, rowShown⟩ := settled other row found
    rw [Row.InStep, flag] at rowShown
    rw [rowShown, selected_pointTo]
    by_cases same : other = index
    · simp [same]
    · simp [same]

theorem mapTokensOf {listing : Listing} (single : listing.SingleSelection) (index : Nat)
    {f : Token → Token} (keeps : ∀ token, (f token).text = token.text) :
    (listing.mapTokensOf index f).SingleSelection := by
  refine single.transfer (rowCount_mapTokensOf _ _ _) rfl ?_
  intro other row found
  rw [row?_mapTokensOf] at found
  obtain ⟨old, foundOld, rfl⟩ := Option.map_eq_some_iff.1 found
  refine ⟨old, foundOld, ?_⟩
  split
  · exact ⟨rfl, Row.text?_mapTokens old keeps _⟩
  · exact ⟨rfl, rfl⟩

theorem mapTokensIn {listing : Listing} (single : listing.SingleSelection) (tokens : Highlight)
    {f : Token → Token} (keeps : ∀ token, (f token).text = token.text) :
    (listing.mapTokensIn tokens f).SingleSelection := by
  refine single.transfer (rowCount_mapRows _ _) rfl ?_
  intro index row found
  rw [mapTokensIn_eq, row?_mapRows] at found
  obtain ⟨old, foundOld, rfl⟩ := Option.map_eq_some_iff.1 found
  exact ⟨old, foundOld, rfl, Row.text?_mapIn old tokens index keeps _⟩

theorem renumber {w : Workspace} (single : w.listing.SingleSelection) :
    (Workspace.renumber w).listing.SingleSelection := by
  refine single.transfer (Workspace.rowCount_renumber w) rfl ?_
  intro index row found
  rw [Workspace.row?_renumber] at found
  obtain ⟨old, foundOld, rfl⟩ := Option.map_eq_some_iff.1 found
  exact ⟨old, foundOld, rfl, Row.text?_setNumber old _ (by decide)⟩

theorem blank : Listing.blank.SingleSelection := by
  have shown : ∀ row ∈ [Row.blank], row.InStep := by
    intro row member
    rw [List.mem_singleton.1 member]
    exact Row.inStep_ofSnippets [] true
  have start : ((⟨[Row.blank], 0⟩ : Listing).pointTo 0).SingleSelection :=
    pointTo Nat.one_pos shown
  exact start

end SingleSelection

end Listing

/-! ## Edits and runs -/

namespace Workspace

theorem Edit.singleSelection {w w' : Workspace} (edit : w.Edit w')
    (single : w.listing.SingleSelection) : w'.listing.SingleSelection := by
  have bound := single.selected_lt
  cases edit with
  | insert index snippets done =>
    obtain ⟨⟨fits, -⟩, rfl⟩ := insertRow_eq_some_iff.1 done
    refine Listing.SingleSelection.renumber (Listing.SingleSelection.pointTo ?_ ?_)
    · rw [Listing.rowCount_withRow _ fits]
      omega
    · intro row member
      rcases (List.mem_insertIdx fits).1 member with rfl | old
      · exact Row.inStep_ofSnippets _ _
      · exact single.inStep old
  | delete index done =>
    obtain ⟨⟨fits, several⟩, rfl⟩ := deleteRow_eq_some_iff.1 done
    refine Listing.SingleSelection.renumber (Listing.SingleSelection.pointTo ?_ ?_)
    · rw [Listing.rowCount_withoutRow (deleted_lt fits several)]
      exact selectedAfterDelete_lt index several
    · intro row member
      exact single.inStep (List.mem_of_mem_eraseIdx member)
  | select index done =>
    obtain ⟨⟨fits, -⟩, rfl⟩ := selectRow_eq_some_iff.1 done
    exact .pointTo fits fun row member => single.inStep member
  | emphasize index done =>
    obtain ⟨⟨fits, -⟩, rfl⟩ := emphasizeRow_eq_some_iff.1 done
    have plain : (w.listing.mapTokensOf w.listing.selected
        (·.removeTag .selected)).SingleSelection :=
      single.mapTokensOf _ fun token => Token.text_removeTag token _
    refine Listing.SingleSelection.mapTokensOf (.pointTo ?_ ?_) index
      fun token => Token.text_addTag token _
    · rw [Listing.rowCount_mapTokensOf]
      exact fits
    · intro row member
      exact plain.inStep member
  | mark p => exact single.mapTokensIn _ fun token => Token.text_addTag token _
  | unmark p => exact single.mapTokensIn _ fun token => Token.text_removeTag token _

end Workspace

namespace Session

theorem singleSelection_new (settings : Settings) : (new settings).listing.SingleSelection :=
  Listing.SingleSelection.renumber .blank

theorem singleSelection_perform {s : Session} (single : s.listing.SingleSelection)
    (command : Command) : (s.perform command).session.listing.SingleSelection := by
  rcases s.workspace_perform command with same | edited
  · rw [listing, same]
    exact single
  · exact edited.singleSelection single

theorem singleSelection_kept {s : Session} (single : s.listing.SingleSelection)
    (commands : List Command) : (s.run commands).listing.SingleSelection :=
  workspace_run (P := fun w => w.listing.SingleSelection)
    (fun _ _ single edit => edit.singleSelection single) commands s single

end Session

/-- After every run of commands there is at least one row, and the selected index, the selection
flags and the arrows in the gutter all name the same one. -/
theorem Session.singleSelection_run (settings : Settings) (commands : List Command) :
    ((Session.new settings).run commands).listing.SingleSelection :=
  workspace_run (P := fun w => w.listing.SingleSelection)
    (fun _ _ single edit => edit.singleSelection single) commands (Session.new settings)
    (Listing.SingleSelection.renumber .blank)

end CodeRows
