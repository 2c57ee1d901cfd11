import CodeRows.Proofs.Sheet

/-! # Editing confined to the last row

Under the setting that confines editing to the last row, that row is the end of a program: it is
the row that a new listing starts with, it stays selected, and rows come and go above it only.
What stands above it is the program, which can be kept in a journal of the commands that were
applied (`Program.record`).  Apart from line numbers and markings, the rows after a run are those
of the journal followed by the end row (`Session.confined_keeps_end`). -/

set_option autoImplicit false

namespace CodeRows

theorem insertIdx_length_append {α : Type} (above below : List α) (item : α) :
    (above ++ below).insertIdx above.length item = above ++ item :: below := by
  induction above with
  | nil => rfl
  | cons head above ih =>
    rw [List.cons_append, List.length_cons, List.insertIdx_succ_cons, ih, List.cons_append]

/-! ## Rows without numbers and markings -/

namespace Row

def plain (row : Row) : Row := (row.mapTokens Token.unmarked).setNumber none

@[simp] theorem plain_setNumber (row : Row) (number : Option Int) :
    (row.setNumber number).plain = row.plain := by
  obtain ⟨old, tokens, selected⟩ := row
  cases tokens <;> rfl

theorem plain_mapTokens (row : Row) {f : Token → Token}
    (keeps : ∀ token, (f token).unmarked = token.unmarked) :
    (row.mapTokens f).plain = row.plain := by
  have same : (row.mapTokens f).mapTokens Token.unmarked = row.mapTokens Token.unmarked := by
    refine congrArg (Row.mk row.number · row.isSelected) ?_
    rw [mapTokens, List.map_map]
    exact List.map_congr_left fun token _ => keeps token
  rw [plain, same, plain]

theorem plain_mapIn (row : Row) (tokens : Highlight) (index : Nat) {f : Token → Token}
    (keeps : ∀ token, (f token).unmarked = token.unmarked) :
    (row.mapIn tokens index f).plain = row.plain := by
  have same : (row.mapIn tokens index f).mapTokens Token.unmarked = row.mapTokens Token.unmarked :=
    congrArg (Row.mk row.number · row.isSelected) (map_tokens_mapIn _ row tokens index keeps)
  rw [plain, same, plain]

@[simp] theorem plain_ofSnippets (snippets : List Snippet) (highlighting : Bool) :
    (ofSnippets snippets highlighting).plain = ofSnippets snippets highlighting := by
  have same : (snippets.map (Snippet.token highlighting)).map Token.unmarked =
      snippets.map (Snippet.token highlighting) := by
    rw [List.map_map]
    exact List.map_congr_left fun snippet _ => snippet.unmarked_token highlighting
  have slot : (Token.gutter "").unmarked = Token.gutter "" := by decide
  simp only [plain, ofSnippets, mapTokens, blank, List.map_append, List.map_cons, List.map_nil,
    slot, same]
  rfl

theorem content_plain (row : Row) : row.plain.content = row.plainContent := by
  rw [plain, content_setNumber, content_mapTokens, plainContent]

def programEnd : Row := blank.setSelected true

theorem plain_programEnd : programEnd.plain = programEnd := by
  decide

end Row

namespace Listing

def plainRows (listing : Listing) : List Row := listing.rows.map Row.plain

theorem plainRows_mapTokensOf (listing : Listing) (index : Nat) {f : Token → Token}
    (keeps : ∀ token, (f token).unmarked = token.unmarked) :
    (listing.mapTokensOf index f).plainRows = listing.plainRows :=
  map_modify_of_keeps_at Row.plain fun row _ => row.plain_mapTokens keeps

theorem plainRows_mapTokensIn (listing : Listing) (tokens : Highlight) {f : Token → Token}
    (keeps : ∀ token, (f token).unmarked = token.unmarked) :
    (listing.mapTokensIn tokens f).plainRows = listing.plainRows :=
  map_mapIdx_of_keeps Row.plain (fun index row => row.plain_mapIn tokens index keeps) listing.rows

/-- Where only the last row is flagged, pointing to it changes no row. -/
theorem pointTo_end {above : List Row} {last : Row} (selected : Nat)
    (others : ∀ row ∈ above, row.isSelected = false) (flagged : last.isSelected = true) :
    (Listing.mk (above ++ [last]) selected).pointTo above.length =
      ⟨above ++ [last], above.length⟩ := by
  refine congrArg (Listing.mk · above.length) (List.mapIdx_eq_iff.2 fun index => ?_)
  rcases Nat.lt_trichotomy index above.length with less | same | greater
  · have found : (above ++ [last])[index]? = some above[index] := by
      rw [List.getElem?_append_left less, List.getElem?_eq_getElem less]
    have unflagged : above[index].isSelected = decide (index = above.length) := by
      rw [others _ (List.getElem_mem less), decide_eq_false (Nat.ne_of_lt less)]
    rw [found, Option.map_some, if_pos unflagged]
  · subst same
    rw [List.getElem?_concat_length, Option.map_some, if_pos (by simp [flagged])]
  · have beyond : (above ++ [last]).length ≤ index := by
      rw [List.length_append, List.length_singleton]
      exact greater
    rw [List.getElem?_eq_none beyond]
    rfl

end Listing

theorem Workspace.plainRows_renumber (w : Workspace) :
    (renumber w).listing.plainRows = w.listing.plainRows :=
  map_mapIdx_of_keeps Row.plain (fun _ row => row.plain_setNumber _) w.listing.rows

/-! ## The journal -/

/-- What a command asks to put in, if it is an insertion that can be read. -/
def Command.entry? : Command → Option (List Snippet)
  | insert _ snippets => some snippets
  | insertJson _ text => (Snippet.listOfJson text).toOption
  | delete _ | select _ | emphasize _ | point _ | subscribe _ | listen _ => none

abbrev Program := List (List Snippet)

namespace Program

/-- The program after a command that is applied.  An insertion adds its entry at the end,
whatever its index; a deletion takes out the entry at its index, the last one for the end row. -/
def amend (program : Program) (command : Command) : Program :=
  match command with
  | .insert _ _ | .insertJson _ _ => program ++ command.entry?.toList
  | .delete index => program.eraseIdx (min index (program.length - 1))
  | .select _ | .emphasize _ | .point _ | .subscribe _ | .listen _ => program

def record (program : Program) (command : Command) (reply : Reply) : Program :=
  if reply.accepted? = some true then program.amend command else program

def journal (program : Program) : List Command → List Step → Program
  | command :: commands, step :: steps =>
    journal (program.record command step.reply) commands steps
  | _, _ => program

/-- Rows that are, but for numbers and markings, those of the program and the end row. -/
structure ShownBy (program : Program) (highlighting : Bool) (above : List Row) (last : Row) :
    Prop where
  above_eq : above.map Row.plain = program.map (Row.ofSnippets · highlighting)
  last_eq : last.plain = Row.programEnd

namespace ShownBy

variable {program : Program} {highlighting : Bool} {above : List Row} {last : Row}

theorem length_above (shown : program.ShownBy highlighting above last) :
    above.length = program.length := by
  simpa using congrArg List.length shown.above_eq

theorem content_last (shown : program.ShownBy highlighting above last) : last.content = [] := by
  have empty : last.plain.content = Row.programEnd.content := congrArg Row.content shown.last_eq
  rw [Row.content_plain] at empty
  exact List.map_eq_nil_iff.1 empty

/-- Only the end row is flagged, so the selection is put there without writing to a row. -/
theorem pointTo (shown : program.ShownBy highlighting above last) (selected : Nat) :
    (Listing.mk (above ++ [last]) selected).pointTo above.length =
      ⟨above ++ [last], above.length⟩ := by
  apply Listing.pointTo_end
  · intro row member
    have listed := List.mem_map_of_mem (f := Row.plain) member
    rw [shown.above_eq] at listed
    obtain ⟨snippets, -, same⟩ := List.mem_map.1 listed
    exact (congrArg Row.isSelected same).symm
  · exact congrArg Row.isSelected shown.last_eq

theorem concat (shown : program.ShownBy highlighting above last) (snippets : List Snippet) :
    ShownBy (program ++ [snippets]) highlighting
      (above ++ [Row.ofSnippets snippets highlighting]) last where
  above_eq := by
    rw [List.map_append, List.map_append, shown.above_eq, List.map_singleton, List.map_singleton,
      Row.plain_ofSnippets]
  last_eq := shown.last_eq

theorem eraseIdx (shown : program.ShownBy highlighting above last) (index : Nat) :
    ShownBy (program.eraseIdx index) highlighting (above.eraseIdx index) last where
  above_eq := by
    rw [← List.eraseIdx_map, ← List.eraseIdx_map, shown.above_eq]
  last_eq := shown.last_eq

end ShownBy

end Program

/-! ## Confined workspaces -/

namespace Workspace

structure Holds (w : Workspace) (program : Program) : Prop where
  confined : w.settings.lastRowOnly = true
  rows : w.listing.plainRows =
    program.map (Row.ofSnippets · w.settings.highlighting) ++ [Row.programEnd]
  selected : w.listing.selected = program.length

/-- The workspace with these rows above the end row, which is selected. -/
def withProgram (w : Workspace) (above : List Row) (last : Row) : Workspace :=
  renumber (w.setListing ⟨above ++ [last], above.length⟩)

variable {w w' : Workspace} {program : Program} {above : List Row} {last : Row}

theorem holds_new {settings : Settings} (confined : settings.lastRowOnly = true) :
    (new settings).Holds [] := by
  refine ⟨confined, ?_, rfl⟩
  rw [new, plainRows_renumber]
  exact congrArg (fun row => [row]) Row.plain_programEnd

theorem holds_withProgram (confined : w.settings.lastRowOnly = true)
    (shown : program.ShownBy w.settings.highlighting above last) :
    (w.withProgram above last).Holds program where
  confined := confined
  rows := by
    rw [withProgram, plainRows_renumber, settings_renumber, settings_setListing, ← shown.above_eq,
      ← shown.last_eq]
    exact List.map_append
  selected := shown.length_above

/-- The rows as they are, taken apart at the end row. -/
theorem Holds.split (holds : w.Holds program) : ∃ above last,
    program.ShownBy w.settings.highlighting above last ∧
      w.listing = ⟨above ++ [last], above.length⟩ := by
  obtain ⟨above, ending, rows, aboveRows, endRows⟩ := List.map_eq_append_iff.1 holds.rows
  obtain ⟨last, rfl, lastRow⟩ := List.map_eq_singleton_iff.1 endRows
  have shown : program.ShownBy w.settings.highlighting above last := ⟨aboveRows, lastRow⟩
  refine ⟨above, last, shown, ?_⟩
  rw [← rows, shown.length_above, ← holds.selected]

theorem rowCount_of_split (split : w.listing = ⟨above ++ [last], above.length⟩) :
    w.listing.rowCount = above.length + 1 := by
  rw [split, Listing.rowCount, List.length_append, List.length_singleton]

/-- The rows show what the journal holds, each entry at its own index. -/
theorem Holds.showsEntry (holds : w.Holds program) {index : Nat} {snippets : List Snippet}
    (entry : program[index]? = some snippets) :
    w.listing.ShowsEntry w.settings.highlighting index snippets := by
  have inside : index < program.length := (List.getElem?_eq_some_iff.1 entry).1
  have plain : w.listing.plainRows[index]? =
      some (Row.ofSnippets snippets w.settings.highlighting) := by
    rw [holds.rows, List.getElem?_append_left (by rwa [List.length_map]), List.getElem?_map, entry]
    rfl
  rw [Listing.plainRows, List.getElem?_map] at plain
  obtain ⟨row, found, same⟩ := Option.map_eq_some_iff.1 plain
  refine Listing.showsEntry_of_plainContent found ?_
  rw [← Row.content_plain, same, Row.content_ofSnippets]

theorem Holds.eq_of_permits (holds : w.Holds program) {index : Nat}
    (permitted : w.permits index = true) : index = program.length := by
  obtain ⟨above, last, shown, split⟩ := holds.split
  rw [permits_eq_true_iff.1 permitted holds.confined, rowCount_of_split split, shown.length_above,
    Nat.add_sub_cancel]

theorem Holds.pointTo_length (holds : w.Holds program) :
    w.listing.pointTo program.length = w.listing := by
  obtain ⟨above, last, shown, split⟩ := holds.split
  rw [split, ← shown.length_above, shown.pointTo]

/-- The row that is inserted stands directly above the end row. -/
theorem Holds.insertRow_of_split (holds : w.Holds program)
    (shown : program.ShownBy w.settings.highlighting above last)
    (split : w.listing = ⟨above ++ [last], above.length⟩) {index : Nat} {snippets : List Snippet}
    (done : w.insertRow index snippets = some w') :
    w' = w.withProgram (above ++ [Row.ofSnippets snippets w.settings.highlighting]) last := by
  obtain ⟨⟨-, permitted⟩, rfl⟩ := insertRow_eq_some_iff.1 done
  have place : index = above.length := by
    rw [holds.eq_of_permits permitted, shown.length_above]
  have longer := shown.concat snippets
  have next : min (w.listing.selected + 1) w.listing.rowCount =
      (above ++ [Row.ofSnippets snippets w.settings.highlighting]).length := by
    rw [rowCount_of_split split, split, Nat.min_self, List.length_append, List.length_singleton]
  rw [next, place, split, Listing.withRow, insertIdx_length_append, List.append_cons,
    longer.pointTo, withProgram]

/-- A row above the end row is deleted, never the end row itself. -/
theorem deleteRow_of_split (shown : program.ShownBy w.settings.highlighting above last)
    (split : w.listing = ⟨above ++ [last], above.length⟩) {index : Nat}
    (done : w.deleteRow index = some w') :
    min index (above.length - 1) < above.length ∧
      w' = w.withProgram (above.eraseIdx (min index (above.length - 1))) last := by
  obtain ⟨⟨inside, several⟩, rfl⟩ := deleteRow_eq_some_iff.1 done
  rw [rowCount_of_split split] at inside several
  have place : min index (above.length - 1) < above.length := by omega
  have target : w.deleted index = min index (above.length - 1) := by
    rw [deleted, rowCount_of_split split]
    split_ifs <;> omega
  have shorter := shown.eraseIdx (min index (above.length - 1))
  have next : w.selectedAfterDelete index =
      (above.eraseIdx (min index (above.length - 1))).length := by
    have chosen : w.listing.selected = above.length := congrArg Listing.selected split
    rw [selectedAfterDelete, rowCount_of_split split, chosen, List.length_eraseIdx_of_lt place]
    split_ifs <;> omega
  refine ⟨place, ?_⟩
  rw [next, target, split, Listing.withoutRow, List.eraseIdx_append_of_lt_length place,
    shorter.pointTo, withProgram]

theorem Holds.insertRow (holds : w.Holds program) {index : Nat} {snippets : List Snippet}
    (done : w.insertRow index snippets = some w') : w'.Holds (program ++ [snippets]) := by
  obtain ⟨above, last, shown, split⟩ := holds.split
  rw [holds.insertRow_of_split shown split done]
  exact holds_withProgram holds.confined (shown.concat snippets)

theorem Holds.deleteRow (holds : w.Holds program) {index : Nat}
    (done : w.deleteRow index = some w') :
    w'.Holds (program.eraseIdx (min index (program.length - 1))) := by
  obtain ⟨above, last, shown, split⟩ := holds.split
  obtain ⟨-, rfl⟩ := deleteRow_of_split shown split done
  rw [shown.length_above]
  exact holds_withProgram holds.confined (shown.eraseIdx _)

theorem Holds.setListing (holds : w.Holds program) {listing : Listing}
    (sameRows : listing.plainRows = w.listing.plainRows)
    (sameIndex : listing.selected = w.listing.selected) : (w.setListing listing).Holds program :=
  ⟨holds.confined, sameRows.trans holds.rows, sameIndex.trans holds.selected⟩

theorem Holds.selectRow (holds : w.Holds program) {index : Nat}
    (done : w.selectRow index = some w') : w'.Holds program := by
  obtain ⟨⟨-, permitted⟩, rfl⟩ := selectRow_eq_some_iff.1 done
  rw [holds.eq_of_permits permitted, holds.pointTo_length]
  exact holds

theorem Holds.emphasizeRow (holds : w.Holds program) {index : Nat}
    (done : w.emphasizeRow index = some w') : w'.Holds program := by
  obtain ⟨⟨-, permitted⟩, rfl⟩ := emphasizeRow_eq_some_iff.1 done
  have plain : (w.setListing
      (w.listing.mapTokensOf w.listing.selected (·.removeTag .selected))).Holds program :=
    holds.setListing (Listing.plainRows_mapTokensOf _ _ fun token => token.unmarked_removeTag rfl)
      rfl
  have pointed := plain.pointTo_length
  rw [listing_setListing] at pointed
  rw [holds.eq_of_permits permitted, pointed]
  exact plain.setListing (Listing.plainRows_mapTokensOf _ _ fun token => token.unmarked_addTag rfl)
    rfl

theorem Holds.point (holds : w.Holds program) (signal : Pointer.Signal) :
    (w.setListing (w.listing.point signal).1).Holds program := by
  rcases w.listing.point_cases signal with same | ⟨p, marked⟩ | ⟨p, unmarked⟩
  · rw [same]
    exact holds
  · rw [marked]
    exact holds.setListing
      (Listing.plainRows_mapTokensIn _ _ fun token => token.unmarked_addTag rfl) rfl
  · rw [unmarked]
    exact holds.setListing
      (Listing.plainRows_mapTokensIn _ _ fun token => token.unmarked_removeTag rfl) rfl

end Workspace

/-! ## Confined sessions -/

namespace Session

open Workspace

theorem holds_commit {s : Session} {program next : Program} (holds : s.workspace.Holds program)
    {edited : Option Workspace} (change : Workspace → Option (ChangeKind × RowSpan))
    (accepted : ∀ w, edited = some w → w.Holds next) :
    (s.commit edited change).session.workspace.Holds
      (if (s.commit edited change).reply.accepted? = some true then next else program) := by
  rw [workspace_commit, reply_commit]
  cases edited with
  | none => exact holds
  | some w => exact accepted w rfl

theorem holds_perform {s : Session} {program : Program} (holds : s.workspace.Holds program)
    (command : Command) :
    (s.perform command).session.workspace.Holds
      (program.record command (s.perform command).reply) := by
  cases command with
  | insert index snippets => exact holds_commit holds _ fun w done => holds.insertRow done
  | insertJson index text =>
    rw [perform, insertRowJson, Program.record, Program.amend, Command.entry?]
    cases Snippet.listOfJson text with
    | ok snippets => exact holds_commit holds _ fun w done => holds.insertRow done
    | error error => exact holds
  | delete index => exact holds_commit holds _ fun w done => holds.deleteRow done
  | select index => exact holds_commit holds _ fun w done => holds.selectRow done
  | emphasize index => exact holds_commit holds _ fun w done => holds.emphasizeRow done
  | point signal =>
    rw [perform, workspace_point, reply_point]
    exact holds.point signal
  | subscribe name => exact holds
  | listen name => exact holds

theorem holds_run {s : Session} {program : Program} (holds : s.workspace.Holds program)
    (commands : List Command) :
    (s.run commands).workspace.Holds (program.journal commands (s.trace commands)) := by
  induction commands generalizing s program with
  | nil => exact holds
  | cons command commands ih => exact ih (holds_perform holds command)

/-- An accepted insertion is one that the workspace carries out, wherever its entry was read. -/
theorem insertRow_of_accepted {s : Session} {command : Command} {snippets : List Snippet}
    (entry : command.entry? = some snippets)
    (accepted : (s.perform command).reply = .applied true) :
    ∃ index, s.workspace.insertRow index snippets =
      some (s.perform command).session.workspace := by
  cases command with
  | insert index given =>
    cases entry
    exact ⟨index, accepted_commit accepted⟩
  | insertJson index text =>
    rw [Command.entry?] at entry
    rw [perform, insertRowJson] at accepted ⊢
    cases read : Snippet.listOfJson text with
    | ok given =>
      rw [read] at entry accepted
      cases entry
      exact ⟨index, accepted_commit accepted⟩
    | error error =>
      rw [read] at entry
      cases entry
  | _ => cases entry

/-- Where editing is confined to the last row, that row is the end of the program after every run.
It is selected and has no content; what stands above it is the program of the journal, whose
entries the rows show, text by text and tag by tag.  An insertion that is accepted puts its row
directly above the end row, and a deletion that is accepted takes out a row above it. -/
theorem confined_keeps_end (settings : Settings) (confined : settings.lastRowOnly = true)
    (history : List Command) :
    let s := (new settings).run history
    let program := Program.journal [] history ((new settings).trace history)
    s.listing.plainRows =
        program.map (Row.ofSnippets · settings.highlighting) ++ [Row.programEnd] ∧
      s.listing.rowCount = program.length + 1 ∧
      (∀ index snippets, program[index]? = some snippets →
        s.listing.ShowsEntry settings.highlighting index snippets) ∧
      s.listing.selected = s.listing.lastIndex ∧
      ∃ above last, s.listing.rows = above ++ [last] ∧ last.content = [] ∧
        (∀ command snippets, command.entry? = some snippets →
          (s.perform command).reply = .applied true →
            (s.perform command).session.workspace = s.workspace.withProgram
              (above ++ [Row.ofSnippets snippets settings.highlighting]) last) ∧
        ∀ index, (s.perform (.delete index)).reply = .applied true →
          min index (above.length - 1) < above.length ∧
            (s.perform (.delete index)).session.workspace = s.workspace.withProgram
              (above.eraseIdx (min index (above.length - 1))) last := by
  intro s program
  have holds : s.workspace.Holds program := holds_run (holds_new confined) history
  have same : s.workspace.settings = settings := settings_run history (new settings)
  obtain ⟨above, last, shown, split⟩ := holds.split
  have count : s.listing.rowCount = program.length + 1 := by
    rw [listing, rowCount_of_split split, shown.length_above]
  refine ⟨?_, count, ?_, ?_, above, last, congrArg Listing.rows split, shown.content_last, ?_, ?_⟩
  · rw [← same]
    exact holds.rows
  · intro index snippets entry
    rw [← same]
    exact holds.showsEntry entry
  · rw [Listing.lastIndex, count, Nat.add_sub_cancel]
    exact holds.selected
  · intro command snippets entry accepted
    obtain ⟨index, done⟩ := insertRow_of_accepted entry accepted
    rw [← same]
    exact holds.insertRow_of_split shown split done
  · intro index accepted
    exact deleteRow_of_split shown split (accepted_commit accepted)

/-- Of three rows, which are entered at the only index that is open, the first and then, by way of
the end row, the third are deleted. -/
theorem confined_keeps_end_deletions :
    let settings : Settings := { lastRowOnly := true }
    let history : List Command := [.insert 0 [⟨"a", none⟩], .insert 0 [⟨"x", none⟩],
      .insert 1 [⟨"b", some "kw"⟩], .emphasize 2, .insert 2 [⟨"c", none⟩], .delete 0, .delete 2]
    let s := (new settings).run history
    settings.lastRowOnly = true ∧
      s.listing.plainRows = [Row.ofSnippets [⟨"b", some "kw"⟩] true, Row.programEnd] ∧
      s.listing.ShowsEntry true 0 [⟨"b", some "kw"⟩] ∧
      s.listing.selected = 1 := by
  intro settings history s
  obtain ⟨rows, count, entries, selected, -⟩ := confined_keeps_end settings rfl history
  have journal : Program.journal [] history ((new settings).trace history) =
      [[⟨"b", some "kw"⟩]] := by
    decide
  rw [journal] at rows count entries
  refine ⟨rfl, rows, entries 0 _ rfl, ?_⟩
  rw [selected, Listing.lastIndex, count]
  rfl

end Session

end CodeRows
