import CodeRows.Proofs.Coverage
import CodeRows.Proofs.Unlit
import CodeRows.Proofs.Visits

/-! # What a kind of change leaves alone

A report names a kind of change, and a host decides by the kind what to paint anew.  Each kind is a
promise about all that it does not name.  A change of the highlight puts the marking on the tokens
of one set or takes it off them (`Listing.MarksChanged`).  A change of the selection concerns the
row that was selected and the one that is selected now, and of these only arrow, flag and emphasis
(`Listing.SelectionMoved`).  A change of the rows adds or removes one of them, and carries all
others to their new places with their content and all their tags (`Listing.RowsCarried`). -/

set_option autoImplicit false

namespace CodeRows

/-! ## Marks -/

namespace Listing

/-- The listings are the same once the marking is taken off the tokens of the set; so all other
tokens are the same, and so is everything but tags. -/
structure MarksChanged (before after : Listing) (tokens : Highlight) : Prop where
  unmarked : after.unmark tokens = before.unmark tokens
  elsewhere : ∀ q, q ∉ tokens → after.token? q = before.token? q
  untagged : after.untagged = before.untagged

theorem token?_mapTokensIn_of_not_mem (listing : Listing) {tokens : Highlight} {q : Position}
    (f : Token → Token) (outside : q ∉ tokens) :
    (listing.mapTokensIn tokens f).token? q = listing.token? q := by
  simp only [token?_mapTokensIn, if_neg outside]
  exact Option.map_id'

theorem marksChanged_mark (listing : Listing) (tokens : Highlight) :
    listing.MarksChanged (listing.mark tokens) tokens where
  unmarked := listing.unmark_mark tokens
  elsewhere _ outside := listing.token?_mapTokensIn_of_not_mem _ outside
  untagged := listing.untagged_mapTokensIn tokens fun token => Token.text_addTag token _

theorem marksChanged_unmark (listing : Listing) (tokens : Highlight) :
    listing.MarksChanged (listing.unmark tokens) tokens where
  unmarked := by
    rw [unmark, unmark, mapTokensIn_mapTokensIn]
    congr 1
    funext token
    exact token.removeTag_removeTag .related
  elsewhere _ outside := listing.token?_mapTokensIn_of_not_mem _ outside
  untagged := listing.untagged_mapTokensIn tokens fun token => Token.text_removeTag token _

/-! ## The selection -/

/-- As many rows with the same numbers, the same texts but for the arrows, and the same tags but for
the emphasis. -/
structure SameContent (before after : Listing) : Prop where
  rowCount : after.rowCount = before.rowCount
  numbers : ∀ index, (after.row? index).map (·.number) = (before.row? index).map (·.number)
  texts : ∀ q : Position, q.column ≠ Position.arrowColumn →
    (after.token? q).map (·.text) = (before.token? q).map (·.text)
  tags : ∀ q tag, tag ≠ .selected → after.hasTag q tag = before.hasTag q tag

structure SelectionMoved (before after : Listing) : Prop where
  content : before.SameContent after
  rows : ∀ index, index ≠ before.selected → index ≠ after.selected →
    after.row? index = before.row? index

theorem SameContent.trans {before between after : Listing} (first : before.SameContent between)
    (second : between.SameContent after) : before.SameContent after where
  rowCount := second.rowCount.trans first.rowCount
  numbers index := (second.numbers index).trans (first.numbers index)
  texts q other := (second.texts q other).trans (first.texts q other)
  tags q tag other := (second.tags q tag other).trans (first.tags q tag other)

theorem sameContent_pointTo (listing : Listing) (index : Nat) :
    listing.SameContent (listing.pointTo index) where
  rowCount := listing.rowCount_pointTo index
  numbers other := by
    rw [row?_pointTo, Option.map_map]
    congr 1
    funext row
    simp only [Function.comp_apply]
    split <;> rfl
  texts q other := by
    rw [token?, row?_pointTo, token?]
    cases listing.row? q.row with
    | none => rfl
    | some row =>
      simp only [Option.map_some, Option.bind_some]
      split
      · rfl
      · have kept := ({ row with isSelected := decide (q.row = index) } : Row).text?_setText
          Position.arrowColumn q.column (if decide (q.row = index) then Row.arrow else "")
        rw [if_neg other] at kept
        exact kept
  tags q tag _ := listing.hasTag_pointTo index q tag

theorem sameContent_mapTokensOf (listing : Listing) (index : Nat) {f : Token → Token}
    (text : ∀ token, (f token).text = token.text)
    (tags : ∀ tag, tag ≠ .selected → ∀ token, (f token).hasTag tag = token.hasTag tag) :
    listing.SameContent (listing.mapTokensOf index f) where
  rowCount := listing.rowCount_mapTokensOf index f
  numbers other := by
    rw [row?_mapTokensOf, Option.map_map]
    congr 1
    funext row
    simp only [Function.comp_apply]
    split <;> rfl
  texts q _ := by
    rw [token?_mapTokensOf, Option.map_map]
    congr 1
    funext token
    simp only [Function.comp_apply]
    split
    · exact text token
    · rfl
  tags q tag other := listing.hasTag_mapTokensOf index (tags tag other) q

/-! ## The rows -/

/-- Where the row at an index is after a command that adds or removes a row; nowhere, if it is the
one that goes.  In place of the last row the one before it goes. -/
def placeAfter? (listing : Listing) : Command → Nat → Option Nat
  | .insert place _, index | .insertJson place _, index =>
    some (if index < place then index else index + 1)
  | .delete place, index =>
    let gone := if place = listing.lastIndex then place - 1 else place
    if index = gone then none else some (if index < gone then index else index - 1)
  | _, index => some index

end Listing

structure Row.Carried (before after : Row) : Prop where
  content : after.content = before.content
  tags : after.tokens.map (·.tags) = before.tokens.map (·.tags)

namespace Listing

structure RowsCarried (before after : Listing) (command : Command) : Prop where
  count : after.rowCount = before.rowCount + 1 ∨ before.rowCount = after.rowCount + 1
  carried : ∀ index row, before.row? index = some row →
    ∀ place, before.placeAfter? command index = some place →
      ∃ moved, after.row? place = some moved ∧ row.Carried moved

end Listing

namespace Workspace

variable {w w' : Workspace}

/-- Neither the arrow nor the number of a row counts. -/
theorem carried_renumber_pointTo (w : Workspace) {edited : Listing} {place : Nat} {row : Row}
    (found : edited.row? place = some row) (next : Nat) :
    ∃ moved, (renumber (w.setListing (edited.pointTo next))).listing.row? place = some moved ∧
      row.Carried moved := by
  rw [row?_renumber, listing_setListing, Listing.row?_pointTo, found, Option.map_some,
    Option.map_some]
  refine ⟨_, rfl, ?_, ?_⟩
  · rw [Row.content_setNumber]
    split
    · rfl
    · exact row.content_setSelected _
  · refine (Row.tagging_setNumber _ _).trans ?_
    split
    · rfl
    · exact row.tagging_setSelected _

theorem carried_insertRow {index : Nat} {snippets : List Snippet}
    (done : w.insertRow index snippets = some w') {old : Nat} {row : Row}
    (found : w.listing.row? old = some row) :
    ∃ moved, w'.listing.row? (if old < index then old else old + 1) = some moved ∧
      row.Carried moved := by
  obtain ⟨-, rfl⟩ := insertRow_eq_some_iff.1 done
  apply carried_renumber_pointTo
  rw [← found]
  split
  · exact w.listing.row?_withRow_of_lt _ ‹_›
  · exact w.listing.row?_withRow_succ_of_le _ (Nat.not_lt.1 ‹_›)

theorem deleted_eq_of_lastIndex (w : Workspace) (index : Nat) :
    (if index = w.listing.lastIndex then index - 1 else index) = w.deleted index := by
  by_cases last : index = w.listing.rowCount - 1
  · rw [deleted, if_pos last]
    exact (if_pos last).trans (by omega)
  · rw [deleted, if_neg last]
    exact if_neg last

theorem carried_deleteRow {index : Nat} (done : w.deleteRow index = some w') {old : Nat}
    {row : Row} (found : w.listing.row? old = some row) (stays : old ≠ w.deleted index) :
    ∃ moved, w'.listing.row? (if old < w.deleted index then old else old - 1) = some moved ∧
      row.Carried moved := by
  obtain ⟨-, rfl⟩ := deleteRow_eq_some_iff.1 done
  apply carried_renumber_pointTo
  rw [← found]
  split
  · exact w.listing.row?_withoutRow_of_lt ‹_›
  · have below : w.deleted index ≤ old - 1 := by omega
    have shifted : old - 1 + 1 = old := by omega
    rw [Listing.row?, Listing.withoutRow, List.getElem?_eraseIdx_of_ge below, shifted]
    rfl

end Workspace

/-! ## Reports -/

namespace Session

variable {s : Session} {command : Command} {w : Workspace} {rows : RowSpan}

theorem Reported.marksChanged (change : s.Reported command w .highlight rows) :
    ∃ outcome, (s.perform command).reply = .pointed outcome ∧
      s.listing.MarksChanged w.listing outcome.touched := by
  cases change with
  | enter p occupied spanned =>
    refine ⟨_, reply_point s (.enter p), ?_⟩
    rw [Listing.point, if_pos occupied]
    exact s.listing.marksChanged_mark _
  | leave p occupied spanned =>
    refine ⟨_, reply_point s (.leave p), ?_⟩
    rw [Listing.point, if_pos occupied]
    exact s.listing.marksChanged_unmark _

theorem Reported.selectionMoved (change : s.Reported command w .selection rows)
    (single : s.listing.SingleSelection) : s.listing.SelectionMoved w.listing := by
  cases change with
  | select index done moved =>
    have chosen : w.listing.selected = index := by
      obtain ⟨-, rfl⟩ := Workspace.selectRow_eq_some_iff.1 done
      rfl
    refine ⟨?_, fun other unselected unchosen => ?_⟩
    · obtain ⟨-, rfl⟩ := Workspace.selectRow_eq_some_iff.1 done
      exact s.listing.sameContent_pointTo index
    · rw [chosen] at unchosen
      exact Workspace.row?_selectRow_of_ne single done unchosen unselected
  | emphasize index done fresh =>
    have chosen : w.listing.selected = index := by
      obtain ⟨-, rfl⟩ := Workspace.emphasizeRow_eq_some_iff.1 done
      rfl
    refine ⟨?_, fun other unselected unchosen => ?_⟩
    · obtain ⟨-, rfl⟩ := Workspace.emphasizeRow_eq_some_iff.1 done
      have plain := s.listing.sameContent_mapTokensOf s.listing.selected
        (fun token => Token.text_removeTag token .selected) fun _ => Token.hasTag_removeTag_of_ne
      have pointed := plain.trans (Listing.sameContent_pointTo _ index)
      exact pointed.trans (Listing.sameContent_mapTokensOf _ index
        (fun token => Token.text_addTag token _) fun _ => Token.hasTag_addTag_of_ne)
    · rw [chosen] at unchosen
      exact Workspace.row?_emphasizeRow_of_ne single done unchosen unselected

theorem Reported.rowsCarried (change : s.Reported command w .rows rows) :
    s.listing.RowsCarried w.listing command := by
  cases change with
  | insert index snippets done =>
    refine ⟨Or.inl (Workspace.rowCount_insertRow done), fun old row found place goes => ?_⟩
    obtain rfl := Option.some.inj goes
    exact Workspace.carried_insertRow done found
  | insertJson index text read done =>
    refine ⟨Or.inl (Workspace.rowCount_insertRow done), fun old row found place goes => ?_⟩
    obtain rfl := Option.some.inj goes
    exact Workspace.carried_insertRow done found
  | delete index done =>
    refine ⟨Or.inr (Workspace.rowCount_deleteRow done).symm, fun old row found place goes => ?_⟩
    rw [Listing.placeAfter?, listing, s.workspace.deleted_eq_of_lastIndex] at goes
    obtain ⟨stays, goes⟩ := Option.ite_none_left_eq_some.1 goes
    obtain rfl := Option.some.inj goes
    exact Workspace.carried_deleteRow done found stays

theorem reported_of_delivered {name : String} {record : Change} (single : s.listing.SingleSelection)
    (delivered : Delivery.change name record ∈ (s.perform command).deliveries) :
    s.Reported command (s.perform command).session.workspace record.kind record.rows := by
  have noticed := mem_notices_of_delivered delivered
  cases perform_accounted single command with
  | quiet unreported =>
    rw [unreported.silent] at noticed
    exact absurd noticed List.not_mem_nil
  | reported change told =>
    rw [told.told] at noticed
    obtain ⟨receiver, -, same⟩ := List.mem_map.1 noticed
    cases same
    exact change

/-- The kind that a report names bounds the change.  A change of the highlight concerns the marking
of the tokens that the answer lists; one of the selection the arrow, flag and emphasis of two rows;
and rows come or go one at a time, while all others keep their content and all tags. -/
theorem kind_bounds_change (settings : Settings) (history : List Command) (command : Command)
    {name : String} {record : Change}
    (delivered : Delivery.change name record ∈
      (((new settings).run history).perform command).deliveries) :
    let before := ((new settings).run history).listing
    let step := ((new settings).run history).perform command
    (record.kind = .highlight → ∃ outcome, step.reply = .pointed outcome ∧
      before.MarksChanged step.session.listing outcome.touched) ∧
    (record.kind = .selection → before.SelectionMoved step.session.listing) ∧
    (record.kind = .rows → before.RowsCarried step.session.listing command) := by
  intro before step
  have single : before.SingleSelection :=
    singleSelection_kept (singleSelection_new settings) history
  have change := reported_of_delivered single delivered
  refine ⟨fun kind => ?_, fun kind => ?_, fun kind => ?_⟩
  · rw [kind] at change
    exact change.marksChanged
  · rw [kind] at change
    exact change.selectionMoved single
  · rw [kind] at change
    exact change.rowsCarried

/-- Of three rows the first is emphasized and under the pointer, and the last one is asked to be
deleted: the second goes, and the first keeps its emphasis and its marking. -/
theorem kind_bounds_change_delete_last :
    let s := (new {}).run [.subscribe "host", .insert 0 [⟨"a", none⟩], .insert 1 [⟨"b", none⟩],
      .emphasize 0, .point (.enter ⟨0, 0⟩)]
    let step := s.perform (.delete 2)
    Delivery.change "host" ⟨.rows, 4, 5, ⟨1, 2⟩⟩ ∈ step.deliveries ∧
      s.listing.RowsCarried step.session.listing (.delete 2) ∧
      (List.range 3).map (s.listing.placeAfter? (.delete 2)) = [some 0, none, some 1] ∧
      s.listing.hasTag ⟨0, 2⟩ .related = true ∧
      step.session.listing.hasTag ⟨0, 2⟩ .related = true := by
  intro s step
  have delivered : Delivery.change "host" ⟨.rows, 4, 5, ⟨1, 2⟩⟩ ∈ step.deliveries := by decide
  obtain ⟨-, -, carried⟩ := kind_bounds_change {} _ (.delete 2) delivered
  exact ⟨delivered, carried rfl, by decide, by decide, by decide⟩

end Session

end CodeRows
