import CodeRows.Proofs.Report

/-! # Emphasis goes by whole rows

Emphasis is put on all tokens of a row and taken off all tokens of a row, rows come without it, and
the pointer does not touch it.  So a row is emphasized as a whole or not at all
(`EvenlyTagged`), and one emphasized token tells that its row is.  Emphasizing a row takes the
emphasis off the selected row and puts it on again token by token; whether anything is different
afterwards can therefore be told beforehand (`Session.emphasis_by_whole_rows`). -/

set_option autoImplicit false

namespace CodeRows

/-! ## Lines with a tag throughout or nowhere -/

/-- All tag sets of the line have the tag, or none has it. -/
def EvenlyTagged (tag : Tag) (line : List TagSet) : Prop :=
  (∀ tags ∈ line, tag ∈ tags) ∨ ∀ tags ∈ line, tag ∉ tags

section EvenlyTagged
variable {tag other : Tag}

theorem evenlyTagged_map_insert (tag : Tag) (line : List TagSet) :
    EvenlyTagged tag (line.map (·.insert tag)) := by
  left
  intro tags member
  obtain ⟨old, -, rfl⟩ := List.mem_map.1 member
  exact OrderedSet.mem_insert.2 (Or.inl rfl)

theorem evenlyTagged_map_erase (tag : Tag) (line : List TagSet) :
    EvenlyTagged tag (line.map (·.erase tag)) := by
  right
  intro tags member carried
  obtain ⟨old, -, rfl⟩ := List.mem_map.1 member
  exact (OrderedSet.mem_erase.1 carried).2 rfl

/-- Each of the two cases stays as it is when some tokens get another tag. -/
theorem evenlyTagged_tolerates_insert (differs : tag ≠ other) :
    Listing.Tolerates (EvenlyTagged tag) (·.insert other) := by
  intro line touched even
  rcases even with all | nowhere
  · refine Or.inl (Listing.tolerates_forall ?_ line touched all)
    exact fun tags carried => OrderedSet.mem_insert.2 (Or.inr carried)
  · exact Or.inr (Listing.free_tolerates_insert differs line touched nowhere)

theorem evenlyTagged_tolerates_erase (differs : tag ≠ other) :
    Listing.Tolerates (EvenlyTagged tag) (·.erase other) := by
  intro line touched even
  rcases even with all | nowhere
  · refine Or.inl (Listing.tolerates_forall ?_ line touched all)
    exact fun tags carried => OrderedSet.mem_erase.2 ⟨carried, differs⟩
  · exact Or.inr (Listing.free_tolerates_erase tag other line touched nowhere)

end EvenlyTagged

namespace Row

variable {row : Row} {tag : Tag}

theorem forall_or_forall_of_evenlyTagged (even : EvenlyTagged tag row.tagging) :
    (∀ token ∈ row.tokens, token.hasTag tag = true) ∨
      ∀ token ∈ row.tokens, token.hasTag tag = false := by
  rcases even with all | nowhere
  · left
    intro token member
    exact Token.hasTag_iff.2 (all _ (List.mem_map_of_mem member))
  · right
    intro token member
    rw [Bool.eq_false_iff, ne_eq, Token.hasTag_iff]
    exact nowhere _ (List.mem_map_of_mem member)

theorem exists_hasTag_iff_forall (even : EvenlyTagged tag row.tagging)
    (nonempty : 0 < row.tokens.length) :
    (∃ token ∈ row.tokens, token.hasTag tag = true) ↔
      ∀ token ∈ row.tokens, token.hasTag tag = true := by
  constructor
  · rintro ⟨token, member, carried⟩
    rcases forall_or_forall_of_evenlyTagged even with all | nowhere
    · exact all
    · rw [nowhere token member] at carried
      cases carried
  · intro all
    have member : row.tokens.get ⟨0, nonempty⟩ ∈ row.tokens := List.get_mem _ _
    exact ⟨_, member, all _ member⟩

end Row

/-! ## Edits and runs -/

theorem Workspace.Edit.evenlyEmphasized {w w' : Workspace} (edit : w.Edit w')
    (all : w.listing.AllLines (EvenlyTagged .selected)) :
    w'.listing.AllLines (EvenlyTagged .selected) := by
  have differs : Tag.selected ≠ Tag.related := by decide
  cases edit with
  | insert index snippets done =>
    exact allLines_insertRow done all (Or.inr (Row.free_ofSnippets rfl _ _))
  | delete index done => exact allLines_deleteRow done all
  | select index done => exact allLines_selectRow done all
  | emphasize index done =>
    exact allLines_emphasizeRow done all (fun line _ => evenlyTagged_map_erase .selected line)
      fun line _ => evenlyTagged_map_insert .selected line
  | mark p => exact all.mark _ (evenlyTagged_tolerates_insert differs)
  | unmark p => exact all.unmark _ (evenlyTagged_tolerates_erase differs)

namespace Session

theorem evenlyEmphasized_run (settings : Settings) (commands : List Command) :
    ((new settings).run commands).listing.AllLines (EvenlyTagged .selected) := by
  refine workspace_run (P := fun w => w.listing.AllLines (EvenlyTagged .selected))
    (fun _ _ all edit => edit.evenlyEmphasized all) commands (new settings) ?_
  intro line member
  exact Or.inr (free_new settings rfl line member)

theorem isEmphasized_iff {s : Session} {index : Nat} {row : Row}
    (found : s.listing.row? index = some row) :
    s.isEmphasized index = true ↔
      index = s.listing.selected ∧ ∀ token ∈ row.tokens, token.hasTag .selected = true := by
  rw [isEmphasized, found, Option.any_some, Row.allTagged, Bool.and_eq_true, beq_iff_eq,
    List.all_eq_true]

/-- After every run each row is emphasized throughout or nowhere.  A row that is emphasized again
leaves the listing as it is exactly if it is the selected row and some token of it is emphasized,
or, what is the same, all of them are; that is when the session takes it for emphasized. -/
theorem emphasis_by_whole_rows (settings : Settings) (history : List Command) :
    let s := (new settings).run history
    (∀ row ∈ s.listing.rows,
      (∀ token ∈ row.tokens, token.hasTag .selected = true) ∨
        ∀ token ∈ row.tokens, token.hasTag .selected = false) ∧
    ∀ index, (s.perform (.emphasize index)).reply = .applied true →
      let after := (s.perform (.emphasize index)).session.listing
      ∃ row, s.listing.row? index = some row ∧
        (after = s.listing ↔ index = s.listing.selected ∧
          ∃ token ∈ row.tokens, token.hasTag .selected = true) ∧
        (after = s.listing ↔ index = s.listing.selected ∧
          ∀ token ∈ row.tokens, token.hasTag .selected = true) ∧
        (after = s.listing ↔ s.isEmphasized index = true) := by
  intro s
  have single : s.listing.SingleSelection :=
    singleSelection_kept (singleSelection_new settings) history
  have even : ∀ row ∈ s.listing.rows, EvenlyTagged .selected row.tagging := fun row member =>
    evenlyEmphasized_run settings history _ (List.mem_map_of_mem member)
  refine ⟨fun row member => row.forall_or_forall_of_evenlyTagged (even row member), ?_⟩
  intro index accepted after
  have done := accepted_commit accepted
  obtain ⟨⟨fits, -⟩, -⟩ := Workspace.emphasizeRow_eq_some_iff.1 done
  obtain ⟨row, found⟩ : ∃ row, s.listing.row? index = some row :=
    ⟨_, List.getElem?_eq_getElem fits⟩
  have unchanged : after = s.listing ↔ s.isEmphasized index = true :=
    ⟨isEmphasized_of_same done, same_of_isEmphasized single done⟩
  have throughout := unchanged.trans (isEmphasized_iff found)
  refine ⟨row, found, ?_, throughout, unchanged⟩
  -- A row has at least its gutter, so that one emphasized throughout has an emphasized token.
  have member := Listing.mem_rows_of_row? found
  have slots := (laidOut_run settings history row member).slots
  rw [Row.exists_hasTag_iff_forall (even row member) (by omega)]
  exact throughout

/-- Under the pointer an emphasized row stays emphasized, and emphasizing it again changes nothing;
once another row is selected it does. -/
theorem emphasis_by_whole_rows_again :
    let history : List Command :=
      [.insert 0 [⟨"a", none⟩], .emphasize 0, .point (.enter ⟨0, 2⟩)]
    let s := (new {}).run history
    let moved := (new {}).run (history ++ [.select 1])
    (s.perform (.emphasize 0)).session.listing = s.listing ∧
      (moved.perform (.emphasize 0)).reply = .applied true ∧
      (moved.perform (.emphasize 0)).session.listing ≠ moved.listing := by
  intro history s moved
  have acceptedStill : (s.perform (.emphasize 0)).reply = .applied true := by decide
  obtain ⟨-, -, -, -, still⟩ := (emphasis_by_whole_rows {} history).2 0 acceptedStill
  have accepted : (moved.perform (.emphasize 0)).reply = .applied true := by decide
  obtain ⟨-, -, -, -, elsewhere⟩ :=
    (emphasis_by_whole_rows {} (history ++ [.select 1])).2 0 accepted
  exact ⟨still.2 (by decide), accepted, fun same => absurd (elsewhere.1 same) (by decide)⟩

end Session

end CodeRows
