import CodeRows.Proofs.Run
import Mathlib.Algebra.Group.Nat.Defs
import Mathlib.Algebra.Ring.Int.Defs

/-! # Line numbers are current

A row keeps its line number twice, as a value and as the text of its first gutter slot, and only
insertion and deletion renew the two.  No other edit disturbs them, so after every run each row
shows the number of its index (`Session.numbered_run`), and renewing a number that a row shows
already changes nothing (`Row.ShowsNumber.setNumber_eq`).  The same holds of a workspace that is
used without a session, however often its numbers are renewed
(`Workspace.line_numbers_current`). -/

set_option autoImplicit false

namespace CodeRows

/-! ## The number of an index -/

namespace Settings

theorem toInt_numberAt (settings : Settings) {index : Nat} (small : index < 2 ^ 63) :
    (settings.numberAt index).toInt =
      min (settings.firstNumber.toInt + index) (2 ^ 63 - 1) := by
  have word : (Int64.ofNat index).toInt = index := Int64.toInt_ofNat_of_lt small
  have nonneg : 0 ≤ (Int64.ofNat index).toInt := by
    rw [word]
    exact Int.natCast_nonneg index
  have top : Int64.maxValue.toInt = 2 ^ 63 - 1 := by decide
  rw [numberAt, Numeric.toInt_saturatingAdd_of_nonneg _ nonneg, word, top]

end Settings

/-! ## The number of one row -/

namespace Row

structure ShowsNumber (row : Row) (number : Option Int) : Prop where
  value : row.number = number
  text : row.text? Position.numberColumn = some ((number.map Numeric.intText).getD "")

theorem setText_eq_self {row : Row} {column : Nat} {text : String}
    (shown : row.text? column = some text) : row.setText column text = row := by
  refine congrArg (Row.mk row.number · row.isSelected) (modify_eq_self_of_fixed ?_)
  intro token found
  rw [text?, token?, found] at shown
  rw [← Option.some.inj shown]
  rfl

theorem ShowsNumber.setNumber_eq {row : Row} {number : Option Int}
    (shown : row.ShowsNumber number) : row.setNumber number = row := by
  have value : { row with number := number } = row := by
    rw [← shown.value]
  rw [setNumber, value]
  exact setText_eq_self shown.text

theorem showsNumber_setNumber {row : Row}
    (slot : (row.text? Position.numberColumn).isSome = true) (number : Option Int) :
    (row.setNumber number).ShowsNumber number := by
  refine ⟨rfl, ?_⟩
  obtain ⟨text, found⟩ := Option.isSome_iff_exists.1 slot
  have kept : ({ row with number := number } : Row).text? Position.numberColumn = some text := found
  rw [setNumber, text?_setText, if_pos rfl, kept]
  rfl

theorem ShowsNumber.setSelected {row : Row} {number : Option Int} (shown : row.ShowsNumber number)
    (selected : Bool) : (row.setSelected selected).ShowsNumber number := by
  refine ⟨shown.value, ?_⟩
  rw [Row.setSelected, text?_setText, if_neg (by decide)]
  exact shown.text

theorem ShowsNumber.isSome_slot {row : Row} {number : Option Int} (shown : row.ShowsNumber number) :
    (row.text? Position.numberColumn).isSome = true := by
  rw [shown.text]
  rfl

end Row

/-! ## The numbers of a workspace -/

/-- Pointing to a row leaves the first slots alone. -/
theorem Listing.forall_numberText_pointTo {P : Option String → Prop} {listing : Listing}
    (all : ∀ row ∈ listing.rows, P (row.text? Position.numberColumn)) (index : Nat) :
    ∀ row ∈ (listing.pointTo index).rows, P (row.text? Position.numberColumn) := by
  intro row member
  obtain ⟨other, found⟩ := row?_of_mem_rows member
  rw [row?_pointTo] at found
  obtain ⟨old, foundOld, rfl⟩ := Option.map_eq_some_iff.1 found
  have before := all old (mem_rows_of_row? foundOld)
  split
  · exact before
  · rw [Row.setSelected, Row.text?_setText, if_neg (by decide)]
    exact before

namespace Workspace

def Numbered (w : Workspace) : Prop :=
  ∀ index row, w.listing.row? index = some row → row.ShowsNumber (w.settings.lineNumber index)

theorem numbered_renumber {w : Workspace}
    (slots : ∀ row ∈ w.listing.rows, (row.text? Position.numberColumn).isSome = true) :
    (renumber w).Numbered := by
  intro index row found
  rw [row?_renumber] at found
  obtain ⟨old, foundOld, rfl⟩ := Option.map_eq_some_iff.1 found
  exact Row.showsNumber_setNumber (slots old (Listing.mem_rows_of_row? foundOld)) _

/-- Renumbering relies only on the slots being there, and pointing to a row does not remove them. -/
theorem numbered_renumber_pointTo (w : Workspace) {listing : Listing}
    (slots : ∀ row ∈ listing.rows, (row.text? Position.numberColumn).isSome = true)
    (index : Nat) : (renumber (w.setListing (listing.pointTo index))).Numbered := by
  apply numbered_renumber
  exact Listing.forall_numberText_pointTo (P := fun text => text.isSome = true) slots index

theorem Numbered.slots {w : Workspace} (numbered : w.Numbered) :
    ∀ row ∈ w.listing.rows, (row.text? Position.numberColumn).isSome = true := by
  intro row member
  obtain ⟨index, found⟩ := Listing.row?_of_mem_rows member
  exact (numbered index row found).isSome_slot

theorem Numbered.pointTo {w : Workspace} (numbered : w.Numbered) (index : Nat) :
    (w.setListing (w.listing.pointTo index)).Numbered := by
  intro other row found
  rw [listing_setListing, Listing.row?_pointTo] at found
  obtain ⟨old, foundOld, rfl⟩ := Option.map_eq_some_iff.1 found
  have shown := numbered other old foundOld
  split
  · exact shown
  · exact shown.setSelected _

theorem Numbered.mapTokensOf {w : Workspace} (numbered : w.Numbered) (index : Nat)
    {f : Token → Token} (keeps : ∀ token, (f token).text = token.text) :
    (w.setListing (w.listing.mapTokensOf index f)).Numbered := by
  intro other row found
  rw [listing_setListing, Listing.row?_mapTokensOf] at found
  obtain ⟨old, foundOld, rfl⟩ := Option.map_eq_some_iff.1 found
  have shown := numbered other old foundOld
  split
  · exact ⟨shown.value, (Row.text?_mapTokens old keeps _).trans shown.text⟩
  · exact shown

theorem Numbered.mapTokensIn {w : Workspace} (numbered : w.Numbered) (tokens : Highlight)
    {f : Token → Token} (keeps : ∀ token, (f token).text = token.text) :
    (w.setListing (w.listing.mapTokensIn tokens f)).Numbered := by
  intro index row found
  rw [listing_setListing, Listing.mapTokensIn_eq, Listing.row?_mapRows] at found
  obtain ⟨old, foundOld, rfl⟩ := Option.map_eq_some_iff.1 found
  have shown := numbered index old foundOld
  exact ⟨shown.value, (Row.text?_mapIn old tokens index keeps _).trans shown.text⟩

theorem Edit.numbered {w w' : Workspace} (edit : w.Edit w') (numbered : w.Numbered) :
    w'.Numbered := by
  cases edit with
  | insert index snippets done =>
    obtain ⟨⟨fits, -⟩, rfl⟩ := insertRow_eq_some_iff.1 done
    refine numbered_renumber_pointTo w ?_ _
    intro row member
    rcases (List.mem_insertIdx fits).1 member with rfl | old
    · rfl
    · exact numbered.slots row old
  | delete index done =>
    obtain ⟨-, rfl⟩ := deleteRow_eq_some_iff.1 done
    refine numbered_renumber_pointTo w ?_ _
    intro row member
    exact numbered.slots row (List.mem_of_mem_eraseIdx member)
  | select index done =>
    obtain ⟨-, rfl⟩ := selectRow_eq_some_iff.1 done
    exact numbered.pointTo index
  | emphasize index done =>
    obtain ⟨-, rfl⟩ := emphasizeRow_eq_some_iff.1 done
    have plain := numbered.mapTokensOf w.listing.selected (f := (·.removeTag .selected))
      fun token => Token.text_removeTag token _
    exact (plain.pointTo index).mapTokensOf index fun token => Token.text_addTag token _
  | mark p => exact numbered.mapTokensIn _ fun token => Token.text_addTag token _
  | unmark p => exact numbered.mapTokensIn _ fun token => Token.text_removeTag token _

/-- Where every number is current, renewing them changes nothing. -/
theorem Numbered.renumber_eq {w : Workspace} (numbered : w.Numbered) : renumber w = w := by
  refine congrArg (fun rows => (⟨⟨rows, w.listing.selected⟩, w.settings⟩ : Workspace))
    (List.mapIdx_eq_iff.2 ?_)
  intro index
  cases found : w.listing.rows[index]? with
  | none => rfl
  | some row => rw [Option.map_some, (numbered index row found).setNumber_eq]

theorem numbered_new (settings : Settings) : (new settings).Numbered := by
  apply numbered_renumber
  intro row member
  rw [List.mem_singleton.1 member]
  rfl

end Workspace

namespace Session

theorem numbered_perform {s : Session} (numbered : s.workspace.Numbered) (command : Command) :
    (s.perform command).session.workspace.Numbered := by
  rcases s.workspace_perform command with same | edited
  · rw [same]
    exact numbered
  · exact edited.numbered numbered

theorem numbered_run (settings : Settings) (commands : List Command) :
    ((new settings).run commands).workspace.Numbered :=
  workspace_run (P := Workspace.Numbered) (fun _ _ numbered edit => edit.numbered numbered)
    commands (new settings) (Workspace.numbered_new settings)

end Session

/-! ## Requests to a workspace

A workspace can be used without a session.  It then takes the same edits, though no pointer, and
can be asked to renew its numbers at any time. -/

namespace Workspace

inductive Request where
  | insert (index : Nat) (snippets : List Snippet)
  | delete (index : Nat)
  | select (index : Nat)
  | emphasize (index : Nat)
  | renumber

/-- The workspace after a request, the same if the request is refused. -/
def fulfil (w : Workspace) : Request → Workspace
  | .insert index snippets => (w.insertRow index snippets).getD w
  | .delete index => (w.deleteRow index).getD w
  | .select index => (w.selectRow index).getD w
  | .emphasize index => (w.emphasizeRow index).getD w
  | .renumber => renumber w

theorem fulfil_cases (w : Workspace) (request : Request) :
    w.fulfil request = w ∨ w.Edit (w.fulfil request) ∨ w.fulfil request = renumber w := by
  have answered : ∀ edited : Option Workspace, (∀ w', edited = some w' → w.Edit w') →
      edited.getD w = w ∨ w.Edit (edited.getD w) ∨ edited.getD w = renumber w := by
    intro edited edit
    cases edited with
    | none => exact Or.inl rfl
    | some w' => exact Or.inr (Or.inl (edit w' rfl))
  cases request with
  | insert index snippets => exact answered _ fun w' done => .insert index snippets done
  | delete index => exact answered _ fun w' done => .delete index done
  | select index => exact answered _ fun w' done => .select index done
  | emphasize index => exact answered _ fun w' done => .emphasize index done
  | renumber => exact Or.inr (Or.inr rfl)

theorem Numbered.foldl_fulfil {w : Workspace} (numbered : w.Numbered) (requests : List Request) :
    (requests.foldl fulfil w).Numbered ∧ (requests.foldl fulfil w).settings = w.settings := by
  induction requests generalizing w with
  | nil => exact ⟨numbered, rfl⟩
  | cons request requests ih =>
    rw [List.foldl_cons]
    rcases w.fulfil_cases request with same | edit | renewed
    · rw [same]
      exact ih numbered
    · rw [← edit.settings]
      exact ih (edit.numbered numbered)
    · rw [renewed, numbered.renumber_eq]
      exact ih numbered

/-- Wherever commands to a session or requests to a workspace lead, each row carries a number and
shows its decimal text, or has none at all if numbers are off.  The number is that of its index, up
to the largest there is, as long as the index is a 64-bit integer itself.  Renewing the numbers
changes nothing. -/
theorem line_numbers_current (settings : Settings) {w : Workspace}
    (reached : (∃ commands, w = ((Session.new settings).run commands).workspace) ∨
      ∃ requests, w = List.foldl fulfil (new settings) requests) :
    (∀ index row, w.listing.row? index = some row →
      if settings.lineNumbers then
        ∃ number : Int, row.number = some number ∧
          row.text? Position.numberColumn = some (toString number) ∧
          (index < 2 ^ 63 →
            number = min (settings.firstNumber.toInt + index) (2 ^ 63 - 1))
      else row.number = none ∧ row.text? Position.numberColumn = some "") ∧
    renumber w = w := by
  have current : w.Numbered ∧ w.settings = settings := by
    rcases reached with ⟨commands, rfl⟩ | ⟨requests, rfl⟩
    · exact ⟨Session.numbered_run settings commands,
        Session.settings_run commands (Session.new settings)⟩
    · exact (numbered_new settings).foldl_fulfil requests
  obtain ⟨numbered, same⟩ := current
  refine ⟨fun index row found => ?_, numbered.renumber_eq⟩
  have shown := numbered index row found
  rw [same, Settings.lineNumber] at shown
  split
  · rename_i on
    rw [if_pos on] at shown
    refine ⟨_, shown.value, ?_, settings.toInt_numberAt⟩
    rw [shown.text, Option.map_some, Option.getD_some, Numeric.intText_eq_toString]
  · rename_i off
    rw [if_neg off] at shown
    exact ⟨shown.value, shown.text⟩

/-- Numbers that start one below the largest have reached it in the second row and stay there. -/
theorem line_numbers_current_at_top :
    let settings : Settings := { firstNumber := 9223372036854775806 }
    let w := ((Session.new settings).run [.insert 0 [⟨"a", none⟩], .emphasize 0, .insert 1 [],
      .insert 0 [], .delete 1]).workspace
    ∃ row, w.listing.row? 2 = some row ∧ row.number = some 9223372036854775807 ∧
      row.text? Position.numberColumn = some "9223372036854775807" ∧ renumber w = w := by
  intro settings w
  have inside : (w.listing.row? 2).isSome = true := by decide
  obtain ⟨row, found⟩ := Option.isSome_iff_exists.1 inside
  obtain ⟨shown, renewed⟩ := line_numbers_current settings (w := w) (Or.inl ⟨_, rfl⟩)
  obtain ⟨number, value, text, saturated⟩ := shown 2 row found
  have top : number = 9223372036854775807 := (saturated (by decide)).trans (by decide)
  rw [top] at value text
  exact ⟨row, found, value, text, renewed⟩

end Workspace

end CodeRows
