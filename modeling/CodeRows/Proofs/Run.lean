import CodeRows.Proofs.Lookup
import CodeRows.Session

/-! # Commands one after the other

A command leaves the workspace of a session as it is or edits it in one of six ways, listed by
`Workspace.Edit`.  What holds of a new workspace and is kept by every edit holds after every run
(`Session.workspace_run`). -/

set_option autoImplicit false

namespace CodeRows

/-! ## The edits of a workspace -/

namespace Listing

/-- The listing with one row more, its selection not yet moved. -/
def withRow (listing : Listing) (index : Nat) (row : Row) : Listing :=
  { listing with rows := listing.rows.insertIdx index row }

def withoutRow (listing : Listing) (index : Nat) : Listing :=
  { listing with rows := listing.rows.eraseIdx index }

theorem rowCount_withRow {listing : Listing} {index : Nat} (row : Row)
    (bound : index ≤ listing.rowCount) :
    (listing.withRow index row).rowCount = listing.rowCount + 1 :=
  List.length_insertIdx_of_le_length bound row

theorem rowCount_withoutRow {listing : Listing} {index : Nat} (bound : index < listing.rowCount) :
    (listing.withoutRow index).rowCount = listing.rowCount - 1 :=
  List.length_eraseIdx_of_lt bound

end Listing

namespace Workspace

@[simp] theorem listing_setListing (w : Workspace) (listing : Listing) :
    (w.setListing listing).listing = listing := rfl

@[simp] theorem settings_setListing (w : Workspace) (listing : Listing) :
    (w.setListing listing).settings = w.settings := rfl

@[simp] theorem settings_renumber (w : Workspace) : (renumber w).settings = w.settings := rfl

@[simp] theorem rowCount_renumber (w : Workspace) :
    (renumber w).listing.rowCount = w.listing.rowCount :=
  Listing.rowCount_mapRows _ _

@[simp] theorem selected_renumber (w : Workspace) :
    (renumber w).listing.selected = w.listing.selected := rfl

theorem row?_renumber (w : Workspace) (index : Nat) :
    (renumber w).listing.row? index =
      (w.listing.row? index).map fun row => row.setNumber (w.settings.lineNumber index) :=
  Listing.row?_mapRows _ _ _

theorem permits_eq_true_iff {w : Workspace} {index : Nat} :
    w.permits index = true ↔ (w.settings.lastRowOnly = true → index = w.listing.rowCount - 1) := by
  cases restricted : w.settings.lastRowOnly <;> simp [permits, restricted, Listing.lastIndex]

theorem insertRow_eq (w : Workspace) (index : Nat) (snippets : List Snippet) :
    w.insertRow index snippets =
      if index ≤ w.listing.rowCount ∧ w.permits index = true then
        some (renumber (w.setListing
          ((w.listing.withRow index (Row.ofSnippets snippets w.settings.highlighting)).pointTo
            (min (w.listing.selected + 1) w.listing.rowCount))))
      else none := by
  by_cases fits : index ≤ w.listing.rowCount ∧ w.permits index = true
  · have last : (w.listing.withRow index
        (Row.ofSnippets snippets w.settings.highlighting)).lastIndex = w.listing.rowCount := by
      rw [Listing.lastIndex, Listing.rowCount_withRow _ fits.1]
      rfl
    rw [if_pos fits, insertRow, if_pos (by simpa using fits), ← last]
    rfl
  · rw [if_neg fits, insertRow, if_neg (by simpa using fits)]

/-- The row that goes when an index is deleted: in place of the last row the one before it. -/
def deleted (w : Workspace) (index : Nat) : Nat :=
  if index = w.listing.rowCount - 1 then w.listing.rowCount - 2 else index

def selectedAfterDelete (w : Workspace) (index : Nat) : Nat :=
  if index = w.listing.rowCount - 1 then w.listing.rowCount - 2
  else min w.listing.selected (w.listing.rowCount - 2)

theorem deleted_lt {w : Workspace} {index : Nat} (bound : index < w.listing.rowCount)
    (several : 1 < w.listing.rowCount) : w.deleted index < w.listing.rowCount := by
  unfold deleted
  split <;> omega

theorem selectedAfterDelete_lt {w : Workspace} (index : Nat) (several : 1 < w.listing.rowCount) :
    w.selectedAfterDelete index < w.listing.rowCount - 1 := by
  unfold selectedAfterDelete
  split <;> omega

theorem deleteRow_eq (w : Workspace) (index : Nat) :
    w.deleteRow index =
      if index < w.listing.rowCount ∧ 1 < w.listing.rowCount then
        some (renumber (w.setListing
          ((w.listing.withoutRow (w.deleted index)).pointTo (w.selectedAfterDelete index))))
      else none := by
  by_cases fits : index < w.listing.rowCount ∧ 1 < w.listing.rowCount
  · have last : (w.listing.withoutRow (w.deleted index)).lastIndex = w.listing.rowCount - 2 := by
      rw [Listing.lastIndex, Listing.rowCount_withoutRow (deleted_lt fits.1 fits.2)]
      omega
    rw [if_pos fits, deleteRow, if_pos (by simpa using fits)]
    by_cases isLast : index = w.listing.rowCount - 1
    · have target : w.deleted index = index - 1 := by
        rw [deleted, if_pos isLast]
        omega
      have chosen : (index == w.listing.lastIndex) = true := beq_iff_eq.2 isLast
      rw [target] at last ⊢
      simp only [chosen, if_true, selectedAfterDelete, if_pos isLast, ← last]
      rfl
    · have target : w.deleted index = index := if_neg isLast
      have chosen : (index == w.listing.lastIndex) = false := beq_eq_false_iff_ne.2 isLast
      rw [target] at last ⊢
      simp only [chosen, Bool.false_eq_true, if_false, selectedAfterDelete, if_neg isLast, ← last]
      rfl
  · rw [if_neg fits, deleteRow, if_neg (by simpa using fits)]

theorem canSelect_eq_true_iff {w : Workspace} {index : Nat} :
    w.canSelect index = true ↔ index < w.listing.rowCount ∧ w.permits index = true := by
  simp [canSelect]

/-! Each edit that is applied gives its condition and the workspace it leaves. -/

theorem insertRow_eq_some_iff {w w' : Workspace} {index : Nat} {snippets : List Snippet} :
    w.insertRow index snippets = some w' ↔
      (index ≤ w.listing.rowCount ∧ w.permits index = true) ∧
        renumber (w.setListing
          ((w.listing.withRow index (Row.ofSnippets snippets w.settings.highlighting)).pointTo
            (min (w.listing.selected + 1) w.listing.rowCount))) = w' := by
  rw [insertRow_eq, Option.ite_none_right_eq_some, Option.some.injEq]

theorem deleteRow_eq_some_iff {w w' : Workspace} {index : Nat} :
    w.deleteRow index = some w' ↔
      (index < w.listing.rowCount ∧ 1 < w.listing.rowCount) ∧
        renumber (w.setListing
          ((w.listing.withoutRow (w.deleted index)).pointTo (w.selectedAfterDelete index))) = w' := by
  rw [deleteRow_eq, Option.ite_none_right_eq_some, Option.some.injEq]

theorem selectRow_eq_some_iff {w w' : Workspace} {index : Nat} :
    w.selectRow index = some w' ↔
      (index < w.listing.rowCount ∧ w.permits index = true) ∧
        w.setListing (w.listing.pointTo index) = w' := by
  rw [selectRow, Option.ite_none_right_eq_some, Option.some.injEq, canSelect_eq_true_iff]

theorem emphasizeRow_eq_some_iff {w w' : Workspace} {index : Nat} :
    w.emphasizeRow index = some w' ↔
      (index < w.listing.rowCount ∧ w.permits index = true) ∧
        w.setListing (((w.listing.mapTokensOf w.listing.selected (·.removeTag .selected)).pointTo
          index).mapTokensOf index (·.addTag .selected)) = w' := by
  rw [emphasizeRow, Option.ite_none_right_eq_some, Option.some.injEq, canSelect_eq_true_iff]

theorem rowCount_insertRow {w w' : Workspace} {index : Nat} {snippets : List Snippet}
    (done : w.insertRow index snippets = some w') :
    w'.listing.rowCount = w.listing.rowCount + 1 := by
  obtain ⟨⟨fits, -⟩, rfl⟩ := insertRow_eq_some_iff.1 done
  rw [rowCount_renumber, listing_setListing, Listing.rowCount_pointTo,
    Listing.rowCount_withRow _ fits]

theorem rowCount_deleteRow {w w' : Workspace} {index : Nat} (done : w.deleteRow index = some w') :
    w'.listing.rowCount + 1 = w.listing.rowCount := by
  obtain ⟨⟨fits, several⟩, rfl⟩ := deleteRow_eq_some_iff.1 done
  rw [rowCount_renumber, listing_setListing, Listing.rowCount_pointTo,
    Listing.rowCount_withoutRow (deleted_lt fits several)]
  omega

inductive Edit (w : Workspace) : Workspace → Prop where
  | insert {w' : Workspace} (index : Nat) (snippets : List Snippet)
      (done : w.insertRow index snippets = some w') : Edit w w'
  | delete {w' : Workspace} (index : Nat) (done : w.deleteRow index = some w') : Edit w w'
  | select {w' : Workspace} (index : Nat) (done : w.selectRow index = some w') : Edit w w'
  | emphasize {w' : Workspace} (index : Nat) (done : w.emphasizeRow index = some w') : Edit w w'
  | mark (p : Position) : Edit w (w.setListing (w.listing.mark (w.listing.related p)))
  | unmark (p : Position) : Edit w (w.setListing (w.listing.unmark (w.listing.related p)))

theorem Edit.settings {w w' : Workspace} (edit : w.Edit w') : w'.settings = w.settings := by
  cases edit with
  | insert index snippets done =>
    obtain ⟨-, rfl⟩ := insertRow_eq_some_iff.1 done
    rfl
  | delete index done =>
    obtain ⟨-, rfl⟩ := deleteRow_eq_some_iff.1 done
    rfl
  | select index done =>
    obtain ⟨-, rfl⟩ := selectRow_eq_some_iff.1 done
    rfl
  | emphasize index done =>
    obtain ⟨-, rfl⟩ := emphasizeRow_eq_some_iff.1 done
    rfl
  | mark p => rfl
  | unmark p => rfl

end Workspace

/-! ## The commands of a session -/

namespace Listing

theorem point_cases (listing : Listing) (signal : Pointer.Signal) :
    (listing.point signal).1 = listing ∨
      (∃ p, (listing.point signal).1 = listing.mark (listing.related p)) ∨
      ∃ p, (listing.point signal).1 = listing.unmark (listing.related p) := by
  cases signal with
  | enter p =>
    rw [point]
    split
    · exact Or.inr (Or.inl ⟨p, rfl⟩)
    · exact Or.inl rfl
  | leave p =>
    rw [point]
    split
    · exact Or.inr (Or.inr ⟨p, rfl⟩)
    · exact Or.inl rfl
  | click p =>
    rw [point]
    split <;> exact Or.inl rfl

end Listing

namespace Session

@[simp] theorem workspace_commit (s : Session) (edited : Option Workspace)
    (change : Workspace → Option (ChangeKind × RowSpan)) :
    (s.commit edited change).session.workspace = edited.getD s.workspace := by
  cases edited with
  | none => rfl
  | some w =>
    simp only [commit, Option.getD_some]
    split <;> rfl

theorem listing_commit (s : Session) (edited : Option Workspace)
    (change : Workspace → Option (ChangeKind × RowSpan)) :
    (s.commit edited change).session.listing = (edited.getD s.workspace).listing :=
  congrArg Workspace.listing (workspace_commit s edited change)

@[simp] theorem reply_commit (s : Session) (edited : Option Workspace)
    (change : Workspace → Option (ChangeKind × RowSpan)) :
    (s.commit edited change).reply = .applied edited.isSome := by
  cases edited with
  | none => rfl
  | some w =>
    simp only [commit, Option.isSome_some]
    split <;> rfl

theorem accepted_commit {s : Session} {edited : Option Workspace}
    {change : Workspace → Option (ChangeKind × RowSpan)}
    (accepted : (s.commit edited change).reply = .applied true) :
    edited = some (s.commit edited change).session.workspace := by
  rw [reply_commit] at accepted
  rw [workspace_commit]
  cases edited with
  | none => cases accepted
  | some w => rfl

@[simp] theorem workspace_point (s : Session) (signal : Pointer.Signal) :
    (s.point signal).session.workspace = s.workspace.setListing (s.listing.point signal).1 := by
  simp only [point]
  split <;> rfl

theorem listing_point (s : Session) (signal : Pointer.Signal) :
    (s.point signal).session.listing = (s.listing.point signal).1 :=
  congrArg Workspace.listing (workspace_point s signal)

@[simp] theorem reply_point (s : Session) (signal : Pointer.Signal) :
    (s.point signal).reply = .pointed (s.listing.point signal).2 := by
  simp only [point]
  split <;> rfl

private theorem edit_of_commit {s : Session} (edited : Option Workspace)
    (change : Workspace → Option (ChangeKind × RowSpan))
    (edit : ∀ w, edited = some w → s.workspace.Edit w) :
    (s.commit edited change).session.workspace = s.workspace ∨
      s.workspace.Edit (s.commit edited change).session.workspace := by
  rw [workspace_commit]
  cases edited with
  | none => exact Or.inl rfl
  | some w => exact Or.inr (edit w rfl)

theorem workspace_perform (s : Session) (command : Command) :
    (s.perform command).session.workspace = s.workspace ∨
      s.workspace.Edit (s.perform command).session.workspace := by
  cases command with
  | insert index snippets => exact edit_of_commit _ _ fun w done => .insert index snippets done
  | insertJson index text =>
    rw [perform, insertRowJson]
    split
    · exact edit_of_commit _ _ fun w done => .insert index _ done
    · exact Or.inl rfl
  | delete index => exact edit_of_commit _ _ fun w done => .delete index done
  | select index => exact edit_of_commit _ _ fun w done => .select index done
  | emphasize index => exact edit_of_commit _ _ fun w done => .emphasize index done
  | point signal =>
    rw [perform, workspace_point]
    rcases s.listing.point_cases signal with same | ⟨p, marked⟩ | ⟨p, unmarked⟩
    · rw [same]
      exact Or.inl rfl
    · rw [marked]
      exact Or.inr (.mark p)
    · rw [unmarked]
      exact Or.inr (.unmark p)
  | subscribe name => exact Or.inl rfl
  | listen name => exact Or.inl rfl

theorem settings_perform (s : Session) (command : Command) :
    (s.perform command).session.settings = s.settings := by
  rcases s.workspace_perform command with same | edited
  · exact congrArg Workspace.settings same
  · exact edited.settings

theorem run_concat (s : Session) (commands : List Command) (command : Command) :
    s.run (commands ++ [command]) = ((s.run commands).perform command).session := by
  induction commands generalizing s with
  | nil => rfl
  | cons first commands ih => exact ih _

/-- What every edit keeps holds after every run. -/
theorem workspace_run {P : Workspace → Prop}
    (edit : ∀ w w', P w → w.Edit w' → P w') (commands : List Command) (s : Session)
    (start : P s.workspace) : P (s.run commands).workspace := by
  induction commands generalizing s with
  | nil => exact start
  | cons command commands ih =>
    rw [run]
    apply ih
    rcases s.workspace_perform command with same | edited
    · rw [same]
      exact start
    · exact edit _ _ start edited

theorem settings_run (commands : List Command) (s : Session) :
    (s.run commands).settings = s.settings :=
  workspace_run (P := fun w => w.settings = s.settings)
    (fun _ _ same edit => edit.settings.trans same) commands s rfl

end Session

end CodeRows
