import CodeRows.Proofs.Numbering
import CodeRows.Proofs.Report

/-! # Which rows a report names

A host that repaints the reported rows only should find everything there that has changed.  It
does, but for the selection: an insertion below the selected row, and a deletion at the end while
the selection is further up, take the arrow from a row above those that they report
(`Listing.LeavesArrowBehind`).  In all other cases the report covers the change, and in these two
nothing but the row that was selected and the one that is selected now can be missing from it
(`Session.report_covers_iff`). -/

set_option autoImplicit false

namespace CodeRows

namespace Listing

/-- There is a row at the index afterwards, and it is not the one that was there before. -/
def RowChanged (before after : Listing) (index : Nat) : Prop :=
  index < after.rowCount ∧ after.row? index ≠ before.row? index

instance (before after : Listing) (index : Nat) : Decidable (before.RowChanged after index) :=
  inferInstanceAs (Decidable (_ ∧ _))

/-- The selection moves away from a row above those that the command reports. -/
def LeavesArrowBehind (listing : Listing) : Command → Prop
  | .insert index _ => listing.selected < index
  | .insertJson index _ => listing.selected < index
  | .delete index => index = listing.lastIndex ∧ listing.selected + 1 < listing.lastIndex
  | _ => False

/-! ## Rows that stay -/

/-- Pointing to a row affects only that row and the one that was selected. -/
theorem SingleSelection.row?_pointTo_eq {listing edited : Listing}
    (single : listing.SingleSelection) {index next : Nat}
    (unmoved : edited.row? index = listing.row? index)
    (same : index = next ↔ index = listing.selected) :
    (edited.pointTo next).row? index = listing.row? index := by
  rw [row?_pointTo, unmoved]
  cases found : listing.row? index with
  | none => rfl
  | some row =>
    have flag : row.isSelected = decide (index = next) := by
      rw [Bool.eq_iff_iff, decide_eq_true_iff, same]
      exact single.flag index row found
    rw [Option.map_some, if_pos flag]

theorem row?_withRow_of_lt (listing : Listing) {index place : Nat} (row : Row)
    (above : index < place) : (listing.withRow place row).row? index = listing.row? index :=
  List.getElem?_insertIdx_of_lt above

theorem row?_withRow_succ_of_le (listing : Listing) {index place : Nat} (row : Row)
    (below : place ≤ index) : (listing.withRow place row).row? (index + 1) = listing.row? index :=
  List.getElem?_insertIdx_of_gt (Nat.lt_succ_of_le below)

theorem row?_withoutRow_of_lt (listing : Listing) {index place : Nat} (above : index < place) :
    (listing.withoutRow place).row? index = listing.row? index :=
  List.getElem?_eraseIdx_of_lt above

theorem row?_mapTokensOf_of_ne (listing : Listing) {index place : Nat} (f : Token → Token)
    (other : place ≠ index) : (listing.mapTokensOf place f).row? index = listing.row? index := by
  rw [row?_mapTokensOf]
  simp only [if_neg other]
  exact Option.map_id'

theorem row?_mapTokensIn_of_absent (listing : Listing) {tokens : Highlight} {index : Nat}
    (f : Token → Token) (absent : ∀ column, (⟨index, column⟩ : Position) ∉ tokens) :
    (listing.mapTokensIn tokens f).row? index = listing.row? index := by
  have unreached : ∀ row : Row, row.mapIn tokens index f = row := by
    intro row
    have kept := map_mapIdx_of_keeps id (f := fun column token =>
      if tokens.contains ⟨index, column⟩ then f token else token) (fun column token =>
        if_neg fun member => absent column (OrderedSet.contains_iff.1 member)) row.tokens
    rw [List.map_id, List.map_id] at kept
    exact congrArg (Row.mk row.number · row.isSelected) kept
  rw [mapTokensIn_eq, row?_mapRows]
  simp only [unreached]
  exact Option.map_id'

theorem SingleSelection.rowChanged_selected {before after : Listing}
    (single : before.SingleSelection) (later : after.SingleSelection)
    (bound : before.selected < after.rowCount) (moved : before.selected ≠ after.selected) :
    before.RowChanged after before.selected := by
  refine ⟨bound, fun same => moved ?_⟩
  have found : before.row? before.selected = some _ := List.getElem?_eq_getElem single.selected_lt
  have arrow := (single.flag _ _ found).2 rfl
  exact (later.flag _ _ (same.trans found)).1 arrow

end Listing

/-! ## Rows that change -/

namespace Workspace

theorem row?_renumber_pointTo {w : Workspace} (single : w.listing.SingleSelection)
    (numbered : w.Numbered) {edited : Listing} {index next : Nat}
    (unmoved : edited.row? index = w.listing.row? index)
    (same : index = next ↔ index = w.listing.selected) :
    (renumber (w.setListing (edited.pointTo next))).listing.row? index = w.listing.row? index := by
  rw [row?_renumber, listing_setListing, single.row?_pointTo_eq unmoved same, settings_setListing]
  cases found : w.listing.row? index with
  | none => rfl
  | some row => exact congrArg some (numbered index row found).setNumber_eq

theorem rowChanged_insertRow {w w' : Workspace} (single : w.listing.SingleSelection)
    (numbered : w.Numbered) {place : Nat} {snippets : List Snippet}
    (done : w.insertRow place snippets = some w') {index : Nat}
    (changed : w.listing.RowChanged w'.listing index) :
    place ≤ index ∨ w.listing.selected < place ∧
      (index = w.listing.selected ∨ index = w'.listing.selected) := by
  obtain ⟨-, rfl⟩ := insertRow_eq_some_iff.1 done
  have bound := single.selected_lt
  by_cases above : index < place
  · right
    have moved : ¬(index = min (w.listing.selected + 1) w.listing.rowCount ↔
        index = w.listing.selected) := by
      intro same
      exact changed.2 (row?_renumber_pointTo single numbered
        (w.listing.row?_withRow_of_lt _ above) same)
    rw [selected_renumber, listing_setListing, Listing.selected_pointTo]
    omega
  · exact Or.inl (Nat.not_lt.1 above)

/-- The row that was selected has lost the arrow to the next one. -/
theorem rowChanged_selected_insertRow {w w' : Workspace} (single : w.listing.SingleSelection)
    {place : Nat} {snippets : List Snippet} (done : w.insertRow place snippets = some w') :
    w.listing.RowChanged w'.listing w.listing.selected := by
  have bound := single.selected_lt
  have longer := rowCount_insertRow done
  have later := (Edit.insert place snippets done).singleSelection single
  refine single.rowChanged_selected later ?_ ?_
  · omega
  · obtain ⟨-, rfl⟩ := insertRow_eq_some_iff.1 done
    rw [selected_renumber, listing_setListing, Listing.selected_pointTo]
    omega

theorem rowChanged_deleteRow {w w' : Workspace} (single : w.listing.SingleSelection)
    (numbered : w.Numbered) {place : Nat} (done : w.deleteRow place = some w') {index : Nat}
    (changed : w.listing.RowChanged w'.listing index) :
    place - 1 ≤ index ∨
      (place = w.listing.lastIndex ∧ w.listing.selected + 1 < w.listing.lastIndex) ∧
        index = w.listing.selected := by
  have bound := single.selected_lt
  have shorter := rowCount_deleteRow done
  have inside := changed.1
  obtain ⟨⟨fits, several⟩, rfl⟩ := deleteRow_eq_some_iff.1 done
  rw [Listing.lastIndex]
  by_cases above : index < w.deleted place
  · have moved : ¬(index = w.selectedAfterDelete place ↔ index = w.listing.selected) := by
      intro same
      exact changed.2 (row?_renumber_pointTo single numbered
        (w.listing.row?_withoutRow_of_lt above) same)
    rw [deleted] at above
    rw [selectedAfterDelete] at moved
    split at moved <;> omega
  · rw [deleted] at above
    split at above <;> omega

/-- Deletion at the end puts the arrow on the last row. -/
theorem rowChanged_selected_deleteRow {w w' : Workspace} (single : w.listing.SingleSelection)
    {place : Nat} (done : w.deleteRow place = some w') (last : place = w.listing.lastIndex)
    (above : w.listing.selected + 1 < w.listing.lastIndex) :
    w.listing.RowChanged w'.listing w.listing.selected := by
  have shorter := rowCount_deleteRow done
  have later := (Edit.delete place done).singleSelection single
  rw [Listing.lastIndex] at last above
  refine single.rowChanged_selected later ?_ ?_
  · omega
  · obtain ⟨-, rfl⟩ := deleteRow_eq_some_iff.1 done
    rw [selected_renumber, listing_setListing, Listing.selected_pointTo, selectedAfterDelete,
      if_pos last]
    omega

/-- Selecting a row affects only that row and the one that was selected. -/
theorem row?_selectRow_of_ne {w w' : Workspace} (single : w.listing.SingleSelection) {place : Nat}
    (done : w.selectRow place = some w') {index : Nat} (other : index ≠ place)
    (unselected : index ≠ w.listing.selected) : w'.listing.row? index = w.listing.row? index := by
  obtain ⟨-, rfl⟩ := selectRow_eq_some_iff.1 done
  exact single.row?_pointTo_eq rfl (iff_of_false other unselected)

theorem row?_emphasizeRow_of_ne {w w' : Workspace} (single : w.listing.SingleSelection)
    {place : Nat} (done : w.emphasizeRow place = some w') {index : Nat} (other : index ≠ place)
    (unselected : index ≠ w.listing.selected) : w'.listing.row? index = w.listing.row? index := by
  obtain ⟨-, rfl⟩ := emphasizeRow_eq_some_iff.1 done
  rw [listing_setListing, Listing.row?_mapTokensOf_of_ne _ _ other.symm]
  exact single.row?_pointTo_eq (w.listing.row?_mapTokensOf_of_ne _ unselected.symm)
    (iff_of_false other unselected)

end Workspace

namespace Session

theorem Reported.rowChanged {s : Session} {command : Command} {w : Workspace} {kind : ChangeKind}
    {rows : RowSpan} (change : s.Reported command w kind rows)
    (single : s.listing.SingleSelection) (numbered : s.workspace.Numbered) {index : Nat}
    (changed : s.listing.RowChanged w.listing index) :
    index ∈ rows ∨ s.listing.LeavesArrowBehind command ∧
      (index = s.listing.selected ∨ index = w.listing.selected) := by
  have visited : ∀ (tokens : Highlight) (f : Token → Token) (span : RowSpan),
      RowSpan.ofHighlight? tokens = some span →
      s.listing.RowChanged (s.listing.mapTokensIn tokens f) index → index ∈ span := by
    intro tokens f span spanned changed
    by_cases reached : ∃ column, (⟨index, column⟩ : Position) ∈ tokens
    · obtain ⟨column, member⟩ := reached
      exact RowSpan.row_mem_of_ofHighlight? spanned member
    · exact absurd (s.listing.row?_mapTokensIn_of_absent f fun column member =>
        reached ⟨column, member⟩) changed.2
  have between : ∀ place, index = place ∨ index = s.listing.selected →
      index ∈ RowSpan.between s.listing.selected place := by
    intro place either
    rw [RowSpan.between, RowSpan.mem_mk]
    omega
  cases change with
  | insert place snippets done =>
    rcases Workspace.rowChanged_insertRow single numbered done changed with below | behind
    · exact Or.inl ⟨below, changed.1⟩
    · exact Or.inr behind
  | insertJson place text read done =>
    rcases Workspace.rowChanged_insertRow single numbered done changed with below | behind
    · exact Or.inl ⟨below, changed.1⟩
    · exact Or.inr behind
  | delete place done =>
    rcases Workspace.rowChanged_deleteRow single numbered done changed with below | ⟨behind, here⟩
    · exact Or.inl ⟨Nat.le_trans (Nat.min_le_left _ _) below, changed.1⟩
    · exact Or.inr ⟨behind, Or.inl here⟩
  | select place done moved =>
    refine Or.inl (between place ?_)
    by_contra apart
    rw [not_or] at apart
    exact changed.2 (Workspace.row?_selectRow_of_ne single done apart.1 apart.2)
  | emphasize place done fresh =>
    refine Or.inl (between place ?_)
    by_contra apart
    rw [not_or] at apart
    exact changed.2 (Workspace.row?_emphasizeRow_of_ne single done apart.1 apart.2)
  | enter p occupied spanned => exact Or.inl (visited _ _ _ spanned changed)
  | leave p occupied spanned => exact Or.inl (visited _ _ _ spanned changed)

theorem Reported.arrow_left_behind {s : Session} {command : Command} {w : Workspace}
    {kind : ChangeKind} {rows : RowSpan} (change : s.Reported command w kind rows)
    (single : s.listing.SingleSelection) (behind : s.listing.LeavesArrowBehind command) :
    s.listing.RowChanged w.listing s.listing.selected ∧ s.listing.selected ∉ rows := by
  cases change with
  | insert place snippets done =>
    refine ⟨Workspace.rowChanged_selected_insertRow single done, fun inside => ?_⟩
    exact absurd inside.1 (Nat.not_le.2 behind)
  | insertJson place text read done =>
    refine ⟨Workspace.rowChanged_selected_insertRow single done, fun inside => ?_⟩
    exact absurd inside.1 (Nat.not_le.2 behind)
  | delete place done =>
    obtain ⟨last, above⟩ := behind
    refine ⟨Workspace.rowChanged_selected_deleteRow single done last above, ?_⟩
    have shorter : w.listing.rowCount + 1 = s.listing.rowCount := Workspace.rowCount_deleteRow done
    rw [Listing.lastIndex] at last above
    rw [RowSpan.mem_mk]
    omega
  | select place done moved => exact behind.elim
  | emphasize place done fresh => exact behind.elim
  | enter p occupied spanned => exact behind.elim
  | leave p occupied spanned => exact behind.elim

theorem mem_notices_of_delivered {step : Step} {name : String} {record : Change}
    (delivered : Delivery.change name record ∈ step.deliveries) :
    (name, record) ∈ step.notices :=
  List.mem_filterMap.2 ⟨_, delivered, rfl⟩

/-- A row that a reported command changes is among the reported rows, or else it is the row that
was selected or the one that is selected now.  All changed rows are among the reported ones exactly
if no arrow is left behind. -/
theorem report_covers_iff (settings : Settings) (history : List Command) (command : Command)
    {name : String} {record : Change}
    (delivered : Delivery.change name record ∈
      (((new settings).run history).perform command).deliveries) :
    let before := ((new settings).run history).listing
    let after := (((new settings).run history).perform command).session.listing
    (∀ index, before.RowChanged after index →
      index ∈ record.rows ∨ index = before.selected ∨ index = after.selected) ∧
    ((∀ index, before.RowChanged after index → index ∈ record.rows) ↔
      ¬before.LeavesArrowBehind command) := by
  intro before after
  have single : before.SingleSelection :=
    singleSelection_kept (singleSelection_new settings) history
  have noticed := mem_notices_of_delivered delivered
  cases perform_accounted single command with
  | quiet unreported =>
    rw [unreported.silent] at noticed
    exact absurd noticed List.not_mem_nil
  | reported change told =>
    rw [told.told] at noticed
    obtain ⟨receiver, -, same⟩ := List.mem_map.1 noticed
    cases same
    have changes := @change.rowChanged _ _ _ _ _ single (numbered_run settings history)
    refine ⟨?_, ?_, ?_⟩
    · intro index changed
      rcases changes changed with inside | ⟨-, arrow⟩
      · exact Or.inl inside
      · exact Or.inr arrow
    · intro covers behind
      obtain ⟨changed, outside⟩ := change.arrow_left_behind single behind
      exact outside (covers _ changed)
    · intro kept index changed
      rcases changes changed with inside | ⟨behind, -⟩
      · exact inside
      · exact absurd behind kept

/-- Below the only row another one is inserted: the first row loses its arrow and is not among the
reported rows. -/
theorem insert_below_selection_uncovered :
    let s := (new {}).run [.subscribe "host"]
    let step := s.perform (.insert 1 [])
    Delivery.change "host" ⟨.rows, 0, 1, ⟨1, 2⟩⟩ ∈ step.deliveries ∧
      s.listing.RowChanged step.session.listing 0 ∧ 0 ∉ (⟨1, 2⟩ : RowSpan) := by
  decide

/-- Of four rows the first is selected and the last one is asked to be deleted: the third row goes,
and only the rows of the old and the new arrow can be missing from the report, of which one is. -/
theorem report_covers_iff_delete_last :
    let s := (new {}).run [.subscribe "host", .insert 0 [⟨"a", none⟩], .insert 1 [⟨"b", none⟩],
      .insert 2 [⟨"c", none⟩], .select 0]
    let step := s.perform (.delete 3)
    Delivery.change "host" ⟨.rows, 4, 5, ⟨2, 3⟩⟩ ∈ step.deliveries ∧
      (∀ index, s.listing.RowChanged step.session.listing index →
        index ∈ (⟨2, 3⟩ : RowSpan) ∨ index = 0 ∨ index = 2) ∧
      ¬∀ index, s.listing.RowChanged step.session.listing index → index ∈ (⟨2, 3⟩ : RowSpan) := by
  intro s step
  have delivered : Delivery.change "host" ⟨.rows, 4, 5, ⟨2, 3⟩⟩ ∈ step.deliveries := by decide
  obtain ⟨near, covers⟩ := report_covers_iff {} _ (.delete 3) delivered
  refine ⟨delivered, near, fun all => covers.1 all ?_⟩
  exact ⟨by decide, by decide⟩

end Session

end CodeRows
