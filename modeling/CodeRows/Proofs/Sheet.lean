import CodeRows.Proofs.Run
import Mathlib.Data.List.InsertIdx
import Mathlib.Data.List.Forall2

/-! # A sheet of entries with a cursor

A sheet is what a session is to its host: a list of entries, each the snippets of one row, and a
cursor.  It has no tokens, gutter, numbers or markings.  Every command is answered by a session
exactly as by a sheet (`Session.perform_refines`), and after every run the rows of the session show
the entries of the sheet. -/

set_option autoImplicit false

namespace CodeRows

/-! ## Sheets -/

structure Sheet where
  entries : List (List Snippet)
  cursor : Nat

namespace Sheet

def new : Sheet := ⟨[[]], 0⟩

def size (sheet : Sheet) : Nat := sheet.entries.length

def insert (sheet : Sheet) (lastOnly : Bool) (index : Nat) (snippets : List Snippet) :
    Option Sheet :=
  if index > sheet.size ∨ (lastOnly = true ∧ index ≠ sheet.size - 1) then none
  else some ⟨sheet.entries.insertIdx index snippets, min (sheet.cursor + 1) sheet.size⟩

/-- Deleting at the end takes out the entry before the last one. -/
def delete (sheet : Sheet) (index : Nat) : Option Sheet :=
  if index ≥ sheet.size ∨ sheet.size = 1 then none
  else if index = sheet.size - 1 then
    some ⟨sheet.entries.eraseIdx (sheet.size - 2), sheet.size - 2⟩
  else some ⟨sheet.entries.eraseIdx index, min sheet.cursor (sheet.size - 2)⟩

def select (sheet : Sheet) (lastOnly : Bool) (index : Nat) : Option Sheet :=
  if index ≥ sheet.size ∨ (lastOnly = true ∧ index ≠ sheet.size - 1) then none
  else some { sheet with cursor := index }

/-- The sheet after a request that may be refused, and whether it was applied. -/
def answer (sheet : Sheet) (edited : Option Sheet) : Sheet × Option Bool :=
  (edited.getD sheet, some edited.isSome)

def perform (sheet : Sheet) (lastOnly : Bool) : Command → Sheet × Option Bool
  | .insert index snippets => sheet.answer (sheet.insert lastOnly index snippets)
  | .insertJson index text =>
    match Snippet.listOfJson text with
    | .ok snippets => sheet.answer (sheet.insert lastOnly index snippets)
    | .error _ => (sheet, none)
  | .delete index => sheet.answer (sheet.delete index)
  | .select index => sheet.answer (sheet.select lastOnly index)
  | .emphasize index => sheet.answer (sheet.select lastOnly index)
  | .point _ => (sheet, none)
  | .subscribe _ => (sheet, none)
  | .listen _ => (sheet, none)

def run (sheet : Sheet) (lastOnly : Bool) : List Command → Sheet
  | [] => sheet
  | command :: commands => run (sheet.perform lastOnly command).1 lastOnly commands

def answers (sheet : Sheet) (lastOnly : Bool) : List Command → List (Option Bool)
  | [] => []
  | command :: commands =>
    (sheet.perform lastOnly command).2 ::
      answers (sheet.perform lastOnly command).1 lastOnly commands

end Sheet

def Reply.accepted? : Reply → Option Bool
  | .applied accepted => some accepted
  | _ => none

/-! ## Content without markings -/

namespace Token

def unmarked (token : Token) : Token :=
  { token with tags := token.tags.filter fun tag => !tag.isMarking }

theorem mem_tags_unmarked {token : Token} {tag : Tag} :
    tag ∈ token.unmarked.tags ↔ tag ∈ token.tags ∧ tag.isMarking = false := by
  simp [unmarked]

theorem unmarked_addTag (token : Token) {tag : Tag} (marking : tag.isMarking = true) :
    (token.addTag tag).unmarked = token.unmarked := by
  refine ext_tags rfl fun other => ?_
  rw [mem_tags_unmarked, mem_tags_unmarked, mem_tags_addTag]
  refine and_congr_left fun kept => or_iff_right ?_
  rintro rfl
  rw [marking] at kept
  cases kept

theorem unmarked_removeTag (token : Token) {tag : Tag} (marking : tag.isMarking = true) :
    (token.removeTag tag).unmarked = token.unmarked := by
  refine ext_tags rfl fun other => ?_
  rw [mem_tags_unmarked, mem_tags_unmarked, mem_tags_removeTag]
  refine and_congr_left fun kept => and_iff_left ?_
  rintro rfl
  rw [marking] at kept
  cases kept

end Token

namespace Snippet

theorem mem_tags_token {snippet : Snippet} {highlighting : Bool} {tag : Tag} :
    tag ∈ (snippet.token highlighting).tags ↔
      (tag = .code ∨ tag ∈ (snippet.kind.map TagSet.parse).getD ∅ ∧ tag.isMarking = false) ∨
        (highlighting = false ∧ tag = .noHighlighting) := by
  have parsed : TagSet.parse (snippet.kind.getD "") = (snippet.kind.map TagSet.parse).getD ∅ := by
    cases snippet.kind <;> rfl
  cases highlighting <;> simp [token, tags, parsed, or_comm]

theorem unmarked_token (snippet : Snippet) (highlighting : Bool) :
    (snippet.token highlighting).unmarked = snippet.token highlighting := by
  refine Token.ext_tags rfl fun tag => ?_
  rw [Token.mem_tags_unmarked, and_iff_left_iff_imp, mem_tags_token]
  rintro ((rfl | ⟨-, kept⟩) | ⟨-, rfl⟩)
  · rfl
  · exact kept
  · rfl

end Snippet

namespace Row

def plainContent (row : Row) : List Token := row.content.map Token.unmarked

end Row

namespace Listing

def contents (listing : Listing) : List (List Token) := listing.rows.map Row.plainContent

theorem contents_pointTo (listing : Listing) (index : Nat) :
    (listing.pointTo index).contents = listing.contents := by
  refine map_mapIdx_of_keeps Row.plainContent ?_ listing.rows
  intro other row
  split
  · rfl
  · rw [Row.plainContent, Row.content_setSelected, Row.plainContent]

theorem contents_mapTokensOf (listing : Listing) (index : Nat) {f : Token → Token}
    (keeps : ∀ token, (f token).unmarked = token.unmarked) :
    (listing.mapTokensOf index f).contents = listing.contents := by
  have keepsRow : ∀ row : Row, (row.mapTokens f).plainContent = row.plainContent := by
    intro row
    rw [Row.plainContent, Row.content_mapTokens, List.map_map]
    exact List.map_congr_left fun token _ => keeps token
  apply List.ext_getElem?
  intro other
  rw [contents, contents, List.getElem?_map, List.getElem?_map]
  have found := row?_mapTokensOf listing index other f
  rw [row?, row?] at found
  rw [found, Option.map_map]
  congr 1
  funext row
  simp only [Function.comp_apply]
  split
  · exact keepsRow row
  · rfl

theorem contents_mapTokensIn (listing : Listing) (tokens : Highlight) {f : Token → Token}
    (keeps : ∀ token, (f token).unmarked = token.unmarked) :
    (listing.mapTokensIn tokens f).contents = listing.contents := by
  refine map_mapIdx_of_keeps Row.plainContent ?_ listing.rows
  intro index row
  rw [Row.plainContent, Row.plainContent, Row.content, Row.content, List.map_drop, List.map_drop]
  exact congrArg (List.drop _) (Row.map_tokens_mapIn Token.unmarked row tokens index keeps)

theorem contents_withRow (listing : Listing) (index : Nat) (row : Row) :
    (listing.withRow index row).contents = listing.contents.insertIdx index row.plainContent :=
  List.map_insertIdx _ _ _ _

theorem contents_withoutRow (listing : Listing) (index : Nat) :
    (listing.withoutRow index).contents = listing.contents.eraseIdx index :=
  (List.eraseIdx_map _ _ _).symm

end Listing

namespace Workspace

theorem contents_renumber (w : Workspace) : (renumber w).listing.contents = w.listing.contents := by
  refine map_mapIdx_of_keeps Row.plainContent ?_ w.listing.rows
  intro index row
  rw [Row.plainContent, Row.content_setNumber, Row.plainContent]

/-! ## One command -/

structure Represents (w : Workspace) (sheet : Sheet) : Prop where
  contents : w.listing.contents =
    sheet.entries.map (List.map (Snippet.token w.settings.highlighting))
  cursor : w.listing.selected = sheet.cursor

theorem Represents.size {w : Workspace} {sheet : Sheet} (shown : w.Represents sheet) :
    w.listing.rowCount = sheet.size := by
  have lengths := congrArg List.length shown.contents
  rwa [Listing.contents, List.length_map, List.length_map] at lengths

structure AnswersAs (w : Workspace) (sheet : Sheet) (edited : Option Workspace)
    (expected : Option Sheet) : Prop where
  accepted : edited.isSome = expected.isSome
  shown : (edited.getD w).Represents (expected.getD sheet)

theorem answersAs_none {w : Workspace} {sheet : Sheet} (shown : w.Represents sheet) :
    w.AnswersAs sheet none none := ⟨rfl, shown⟩

theorem Represents.permits_iff {w : Workspace} {sheet : Sheet} (shown : w.Represents sheet)
    (index : Nat) :
    w.permits index = true ↔ ¬(w.settings.lastRowOnly = true ∧ index ≠ sheet.size - 1) := by
  rw [permits_eq_true_iff, shown.size, not_and, not_ne_iff]

theorem insertRow_answersAs {w : Workspace} {sheet : Sheet} (shown : w.Represents sheet)
    (index : Nat) (snippets : List Snippet) :
    w.AnswersAs sheet (w.insertRow index snippets)
      (sheet.insert w.settings.lastRowOnly index snippets) := by
  have fits : index ≤ w.listing.rowCount ∧ w.permits index = true ↔
      ¬(index > sheet.size ∨ (w.settings.lastRowOnly = true ∧ index ≠ sheet.size - 1)) := by
    rw [shown.permits_iff, shown.size, not_or, Nat.not_lt]
  rw [insertRow_eq, Sheet.insert]
  by_cases refused : index > sheet.size ∨ (w.settings.lastRowOnly = true ∧ index ≠ sheet.size - 1)
  · rw [if_pos refused, if_neg fun both => fits.1 both refused]
    exact answersAs_none shown
  · rw [if_neg refused, if_pos (fits.2 refused)]
    refine ⟨rfl, ?_, ?_⟩
    · have row : (Row.ofSnippets snippets w.settings.highlighting).plainContent =
          snippets.map (Snippet.token w.settings.highlighting) := by
        rw [Row.plainContent, Row.content_ofSnippets, List.map_map]
        exact List.map_congr_left fun snippet _ => snippet.unmarked_token _
      simp only [Option.getD_some, contents_renumber, listing_setListing,
        Listing.contents_pointTo, Listing.contents_withRow, shown.contents, row,
        settings_renumber, settings_setListing, List.map_insertIdx]
    · simp only [Option.getD_some, selected_renumber, listing_setListing, Listing.selected_pointTo,
        shown.cursor, shown.size]

theorem deleteRow_answersAs {w : Workspace} {sheet : Sheet} (shown : w.Represents sheet)
    (index : Nat) : w.AnswersAs sheet (w.deleteRow index) (sheet.delete index) := by
  have erased : ∀ target next, (renumber (w.setListing
      ((w.listing.withoutRow target).pointTo next))).Represents
        ⟨sheet.entries.eraseIdx target, next⟩ := by
    intro target next
    refine ⟨?_, rfl⟩
    simp only [contents_renumber, listing_setListing, Listing.contents_pointTo,
      Listing.contents_withoutRow, shown.contents, settings_renumber, settings_setListing,
      List.eraseIdx_map]
  rw [deleteRow_eq, Sheet.delete, deleted, selectedAfterDelete, shown.size, shown.cursor]
  by_cases refused : index ≥ sheet.size ∨ sheet.size = 1
  · rw [if_pos refused, if_neg (by omega)]
    exact answersAs_none shown
  · rw [if_neg refused, if_pos (by omega)]
    by_cases isLast : index = sheet.size - 1
    · rw [if_pos isLast, if_pos isLast, if_pos isLast]
      exact ⟨rfl, erased _ _⟩
    · rw [if_neg isLast, if_neg isLast, if_neg isLast]
      exact ⟨rfl, erased _ _⟩

theorem Represents.pointTo {w : Workspace} {sheet : Sheet} (shown : w.Represents sheet)
    (index : Nat) :
    (w.setListing (w.listing.pointTo index)).Represents { sheet with cursor := index } :=
  ⟨(Listing.contents_pointTo _ _).trans shown.contents, rfl⟩

theorem Represents.mapTokensOf {w : Workspace} {sheet : Sheet} (shown : w.Represents sheet)
    (index : Nat) {f : Token → Token} (keeps : ∀ token, (f token).unmarked = token.unmarked) :
    (w.setListing (w.listing.mapTokensOf index f)).Represents sheet :=
  ⟨(Listing.contents_mapTokensOf _ _ keeps).trans shown.contents, shown.cursor⟩

theorem Represents.mapTokensIn {w : Workspace} {sheet : Sheet} (shown : w.Represents sheet)
    (tokens : Highlight) {f : Token → Token} (keeps : ∀ token, (f token).unmarked = token.unmarked) :
    (w.setListing (w.listing.mapTokensIn tokens f)).Represents sheet :=
  ⟨(Listing.contents_mapTokensIn _ _ keeps).trans shown.contents, shown.cursor⟩

theorem canSelect_iff {w : Workspace} {sheet : Sheet} (shown : w.Represents sheet) (index : Nat) :
    w.canSelect index = true ↔
      ¬(index ≥ sheet.size ∨ (w.settings.lastRowOnly = true ∧ index ≠ sheet.size - 1)) := by
  rw [canSelect_eq_true_iff, shown.permits_iff, shown.size, not_or, ge_iff_le, Nat.not_le]

theorem selectRow_answersAs {w : Workspace} {sheet : Sheet} (shown : w.Represents sheet)
    (index : Nat) :
    w.AnswersAs sheet (w.selectRow index) (sheet.select w.settings.lastRowOnly index) := by
  have allowed := canSelect_iff shown index
  rw [selectRow, Sheet.select]
  by_cases refused : index ≥ sheet.size ∨ (w.settings.lastRowOnly = true ∧ index ≠ sheet.size - 1)
  · rw [if_pos refused, if_neg fun can => allowed.1 can refused]
    exact answersAs_none shown
  · rw [if_neg refused, if_pos (allowed.2 refused)]
    exact ⟨rfl, shown.pointTo index⟩

theorem emphasizeRow_answersAs {w : Workspace} {sheet : Sheet} (shown : w.Represents sheet)
    (index : Nat) :
    w.AnswersAs sheet (w.emphasizeRow index) (sheet.select w.settings.lastRowOnly index) := by
  have allowed := canSelect_iff shown index
  rw [emphasizeRow, Sheet.select]
  by_cases refused : index ≥ sheet.size ∨ (w.settings.lastRowOnly = true ∧ index ≠ sheet.size - 1)
  · rw [if_pos refused, if_neg fun can => allowed.1 can refused]
    exact answersAs_none shown
  · rw [if_neg refused, if_pos (allowed.2 refused)]
    have plain : (w.setListing
        (w.listing.mapTokensOf w.listing.selected (·.removeTag .selected))).Represents sheet :=
      shown.mapTokensOf w.listing.selected fun token => token.unmarked_removeTag rfl
    exact ⟨rfl, (plain.pointTo index).mapTokensOf index fun token => token.unmarked_addTag rfl⟩

theorem Represents.point {w : Workspace} {sheet : Sheet} (shown : w.Represents sheet)
    (signal : Pointer.Signal) :
    (w.setListing (w.listing.point signal).1).Represents sheet := by
  rcases w.listing.point_cases signal with same | ⟨p, marked⟩ | ⟨p, unmarked⟩
  · rw [same]
    exact shown
  · rw [marked]
    exact shown.mapTokensIn _ fun token => token.unmarked_addTag rfl
  · rw [unmarked]
    exact shown.mapTokensIn _ fun token => token.unmarked_removeTag rfl

end Workspace

namespace Session

/-- A command is answered as the sheet answers it, and what it leaves is still alike. -/
theorem perform_refines {s : Session} {sheet : Sheet} (shown : s.workspace.Represents sheet)
    (command : Command) :
    (s.perform command).reply.accepted? = (sheet.perform s.settings.lastRowOnly command).2 ∧
      (s.perform command).session.workspace.Represents
        (sheet.perform s.settings.lastRowOnly command).1 := by
  have committed : ∀ (edited : Option Workspace) (expected : Option Sheet)
      (change : Workspace → Option (ChangeKind × RowSpan)),
      s.workspace.AnswersAs sheet edited expected →
        (s.commit edited change).reply.accepted? = (sheet.answer expected).2 ∧
          (s.commit edited change).session.workspace.Represents (sheet.answer expected).1 := by
    intro edited expected change alike
    rw [reply_commit, workspace_commit]
    exact ⟨congrArg some alike.accepted, alike.shown⟩
  cases command with
  | insert index snippets =>
    exact committed _ _ _ (Workspace.insertRow_answersAs shown index snippets)
  | insertJson index text =>
    simp only [perform, insertRowJson, Sheet.perform]
    cases Snippet.listOfJson text with
    | ok snippets => exact committed _ _ _ (Workspace.insertRow_answersAs shown index snippets)
    | error error => exact ⟨rfl, shown⟩
  | delete index => exact committed _ _ _ (Workspace.deleteRow_answersAs shown index)
  | select index => exact committed _ _ _ (Workspace.selectRow_answersAs shown index)
  | emphasize index => exact committed _ _ _ (Workspace.emphasizeRow_answersAs shown index)
  | point signal =>
    rw [perform, reply_point, workspace_point]
    exact ⟨rfl, shown.point signal⟩
  | subscribe name => exact ⟨rfl, shown⟩
  | listen name => exact ⟨rfl, shown⟩

/-! ## Runs -/

theorem run_refines {s : Session} {sheet : Sheet} (shown : s.workspace.Represents sheet)
    (commands : List Command) :
    (s.trace commands).map (·.reply.accepted?) = sheet.answers s.settings.lastRowOnly commands ∧
      (s.run commands).workspace.Represents (sheet.run s.settings.lastRowOnly commands) := by
  induction commands generalizing s sheet with
  | nil => exact ⟨rfl, shown⟩
  | cons command commands ih =>
    obtain ⟨answered, next⟩ := perform_refines shown command
    obtain ⟨later, final⟩ := ih next
    rw [settings_perform] at later final
    refine ⟨?_, final⟩
    rw [trace, List.map_cons, Sheet.answers, answered, later]

theorem represents_new (settings : Settings) : (new settings).workspace.Represents Sheet.new :=
  ⟨Workspace.contents_renumber _, rfl⟩

end Session

/-! ## Rows against entries -/

namespace Snippet

/-- The token has the text of the snippet and, but for markings, the tags that its class list
names, with `code` and, when highlighting is off, `noHighlighting`. -/
def ShownBy (highlighting : Bool) (token : Token) (snippet : Snippet) : Prop :=
  token.text = snippet.text ∧ ∀ tag : Tag, tag.isMarking = false →
    (tag ∈ token.tags ↔ tag = .code ∨ tag ∈ (snippet.kind.map TagSet.parse).getD ∅ ∨
      (highlighting = false ∧ tag = .noHighlighting))

theorem shownBy_of_unmarked {highlighting : Bool} {token : Token} {snippet : Snippet}
    (same : token.unmarked = snippet.token highlighting) :
    ShownBy highlighting token snippet := by
  refine ⟨congrArg Token.text same, fun tag kept => ?_⟩
  have tags : tag ∈ token.unmarked.tags ↔ tag ∈ (snippet.token highlighting).tags := by rw [same]
  rw [Token.mem_tags_unmarked, mem_tags_token, and_iff_left kept, and_iff_left kept] at tags
  rw [tags, or_assoc]

theorem forall₂_shownBy {highlighting : Bool} {tokens : List Token} {snippets : List Snippet}
    (same : tokens.map Token.unmarked = snippets.map (Snippet.token highlighting)) :
    List.Forall₂ (ShownBy highlighting) tokens snippets := by
  induction tokens generalizing snippets with
  | nil =>
    cases snippets with
    | nil => exact .nil
    | cons snippet snippets => cases same
  | cons token tokens ih =>
    cases snippets with
    | nil => cases same
    | cons snippet snippets =>
      obtain ⟨head, tail⟩ := List.cons_eq_cons.1 same
      exact .cons (shownBy_of_unmarked head) (ih tail)

end Snippet

/-- The row at an index shows the snippets of an entry: its texts, one by one and joined, are
theirs, and so are its tags. -/
structure Listing.ShowsEntry (listing : Listing) (highlighting : Bool) (index : Nat)
    (snippets : List Snippet) : Prop where
  texts : listing.contentTexts? index = some (snippets.map (·.text))
  text : listing.contentText? index = some (String.join (snippets.map (·.text)))
  tokens : ∃ row, listing.row? index = some row ∧
    List.Forall₂ (Snippet.ShownBy highlighting) row.content snippets

theorem Listing.showsEntry_of_plainContent {listing : Listing} {highlighting : Bool} {index : Nat}
    {snippets : List Snippet} {row : Row} (found : listing.row? index = some row)
    (same : row.plainContent = snippets.map (Snippet.token highlighting)) :
    listing.ShowsEntry highlighting index snippets := by
  have texts : listing.contentTexts? index = some (snippets.map (·.text)) := by
    have sameTexts := congrArg (List.map Token.text) same
    rw [Row.plainContent, List.map_map, List.map_map] at sameTexts
    rw [contentTexts?, found]
    exact congrArg some sameTexts
  refine ⟨texts, ?_, row, found, Snippet.forall₂_shownBy same⟩
  rw [contentText?, texts]
  rfl

theorem Workspace.Represents.showsEntry {w : Workspace} {sheet : Sheet}
    (shown : w.Represents sheet) {index : Nat} {snippets : List Snippet}
    (entry : sheet.entries[index]? = some snippets) :
    w.listing.ShowsEntry w.settings.highlighting index snippets := by
  have content : w.listing.contents[index]? =
      some (snippets.map (Snippet.token w.settings.highlighting)) := by
    rw [shown.contents, List.getElem?_map, entry]
    rfl
  rw [Listing.contents, List.getElem?_map] at content
  obtain ⟨row, found, same⟩ := Option.map_eq_some_iff.1 content
  exact Listing.showsEntry_of_plainContent found same

/-- Every truth value that a run answers is the one that the sheet answers, and after the run the
selection stands at the cursor and the rows show the entries. -/
theorem Session.run_refines_sheet (settings : Settings) (commands : List Command) :
    ((new settings).trace commands).map (·.reply.accepted?) =
        Sheet.new.answers settings.lastRowOnly commands ∧
      ((new settings).run commands).listing.selected =
        (Sheet.new.run settings.lastRowOnly commands).cursor ∧
      ((new settings).run commands).listing.rowCount =
        (Sheet.new.run settings.lastRowOnly commands).size ∧
      ∀ index snippets,
        (Sheet.new.run settings.lastRowOnly commands).entries[index]? = some snippets →
          ((new settings).run commands).listing.ShowsEntry settings.highlighting index snippets := by
  obtain ⟨answered, shown⟩ := run_refines (represents_new settings) commands
  have unchanged : ((new settings).run commands).workspace.settings = settings :=
    settings_run commands (new settings)
  refine ⟨answered, shown.cursor, shown.size, fun index snippets entry => ?_⟩
  have row := shown.showsEntry entry
  rwa [unchanged] at row

end CodeRows
