import CodeRows.Proofs.Layout

/-! # Editing does not see the pointer

The pointer leaves nothing behind but the marking of related tokens.  A listing without that
marking is unlit.  Editing an unlit workspace gives the edited workspace, unlit; so the marking
never decides whether an edit is applied or what becomes of the rows, and marks that stay on tokens
travel with them.  Taking all signals of the pointer out of a run therefore changes no other answer
and no row, up to the marking (`Session.pointing_leaves_no_trace`). -/

set_option autoImplicit false

namespace CodeRows

theorem map_modify {α β : Type} {f : α → β} {g : α → α} {h : β → β}
    (commutes : ∀ item, f (g item) = h (f item)) (items : List α) (index : Nat) :
    (items.modify index g).map f = (items.map f).modify index h := by
  induction items generalizing index with
  | nil => simp
  | cons item items ih =>
    cases index with
    | zero => simp [commutes]
    | succ index => simp [ih]

/-! ## Changing every token -/

section MapTokens
variable {f g : Token → Token}

namespace Row

theorem mapTokens_setText (blind : ∀ token text, f (token.setText text) = (f token).setText text)
    (row : Row) (column : Nat) (text : String) :
    (row.setText column text).mapTokens f = (row.mapTokens f).setText column text :=
  congrArg (Row.mk row.number · row.isSelected)
    (map_modify (fun token => blind token text) row.tokens column)

theorem mapTokens_setNumber (blind : ∀ token text, f (token.setText text) = (f token).setText text)
    (row : Row) (number : Option Int) :
    (row.setNumber number).mapTokens f = (row.mapTokens f).setNumber number :=
  mapTokens_setText blind _ _ _

theorem mapTokens_setSelected
    (blind : ∀ token text, f (token.setText text) = (f token).setText text)
    (row : Row) (selected : Bool) :
    (row.setSelected selected).mapTokens f = (row.mapTokens f).setSelected selected :=
  mapTokens_setText blind _ _ _

theorem mapTokens_mapTokens (commutes : ∀ token, f (g token) = g (f token)) (row : Row) :
    (row.mapTokens g).mapTokens f = (row.mapTokens f).mapTokens g := by
  simp [mapTokens, commutes]

theorem mapTokens_mapIn (absorbs : ∀ token, f (g token) = f token) (row : Row)
    (tokens : Highlight) (index : Nat) :
    (row.mapIn tokens index g).mapTokens f = row.mapTokens f :=
  congrArg (Row.mk row.number · row.isSelected) (map_tokens_mapIn f row tokens index absorbs)

end Row

namespace Listing

def mapTokens (listing : Listing) (f : Token → Token) : Listing :=
  { listing with rows := listing.rows.map (·.mapTokens f) }

@[simp] theorem row?_mapTokens (listing : Listing) (index : Nat) :
    (listing.mapTokens f).row? index = (listing.row? index).map (·.mapTokens f) :=
  List.getElem?_map

@[simp] theorem rowCount_mapTokens (listing : Listing) :
    (listing.mapTokens f).rowCount = listing.rowCount :=
  List.length_map _

theorem mapTokens_pointTo (blind : ∀ token text, f (token.setText text) = (f token).setText text)
    (listing : Listing) (index : Nat) :
    (listing.pointTo index).mapTokens f = (listing.mapTokens f).pointTo index := by
  refine ext_row? (fun other => ?_) rfl
  simp only [row?_mapTokens, row?_pointTo, Option.map_map]
  congr 1
  funext row
  simp only [Function.comp_apply, show (row.mapTokens f).isSelected = row.isSelected from rfl]
  split
  · rfl
  · exact row.mapTokens_setSelected blind _

theorem mapTokens_mapTokensOf (commutes : ∀ token, f (g token) = g (f token)) (listing : Listing)
    (index : Nat) :
    (listing.mapTokensOf index g).mapTokens f = (listing.mapTokens f).mapTokensOf index g :=
  congrArg (Listing.mk · listing.selected)
    (map_modify (fun row => row.mapTokens_mapTokens commutes) listing.rows index)

theorem mapTokens_mapTokensIn (absorbs : ∀ token, f (g token) = f token) (listing : Listing)
    (tokens : Highlight) : (listing.mapTokensIn tokens g).mapTokens f = listing.mapTokens f :=
  congrArg (Listing.mk · listing.selected)
    (map_mapIdx_of_keeps (Row.mapTokens · f)
      (fun index row => row.mapTokens_mapIn absorbs tokens index) listing.rows)

theorem mapTokens_withRow (listing : Listing) (index : Nat) (row : Row) :
    (listing.withRow index row).mapTokens f =
      (listing.mapTokens f).withRow index (row.mapTokens f) :=
  congrArg (Listing.mk · listing.selected) (List.map_insertIdx _ _ _ _)

theorem mapTokens_withoutRow (listing : Listing) (index : Nat) :
    (listing.withoutRow index).mapTokens f = (listing.mapTokens f).withoutRow index :=
  congrArg (Listing.mk · listing.selected) (List.eraseIdx_map _ _ _).symm

end Listing

theorem Workspace.mapTokens_renumber
    (blind : ∀ token text, f (token.setText text) = (f token).setText text) (w : Workspace) :
    (renumber w).listing.mapTokens f =
      (renumber (w.setListing (w.listing.mapTokens f))).listing := by
  refine Listing.ext_row? (fun index => ?_) rfl
  simp only [Listing.row?_mapTokens, row?_renumber, listing_setListing, settings_setListing,
    Option.map_map]
  congr 1
  funext row
  exact row.mapTokens_setNumber blind _

end MapTokens

/-! ## Without the marking -/

theorem Token.removeTag_comm (token : Token) (tag other : Tag) :
    (token.removeTag tag).removeTag other = (token.removeTag other).removeTag tag := by
  refine ext_tags rfl fun carried => ?_
  simp only [mem_tags_removeTag]
  exact and_right_comm

theorem Token.removeTag_addTag_of_ne {tag other : Tag} (differs : other ≠ tag) (token : Token) :
    (token.addTag other).removeTag tag = (token.removeTag tag).addTag other := by
  refine ext_tags rfl fun carried => ?_
  simp only [mem_tags_removeTag, mem_tags_addTag]
  constructor
  · rintro ⟨rfl | before, kept⟩
    · exact Or.inl rfl
    · exact Or.inr ⟨before, kept⟩
  · rintro (rfl | ⟨before, kept⟩)
    · exact ⟨Or.inl rfl, differs⟩
    · exact ⟨Or.inr before, kept⟩

theorem Token.removeTag_removeTag (token : Token) (tag : Tag) :
    (token.removeTag tag).removeTag tag = token.removeTag tag :=
  removeTag_eq_self_iff.2 fun carried => (mem_tags_removeTag.1 carried).2 rfl

/-- No row that a host puts in carries the marking. -/
theorem Row.removeTag_ofSnippets (tag : Tag) (marking : tag.isMarking = true)
    (snippets : List Snippet) (highlighting : Bool) :
    (ofSnippets snippets highlighting).mapTokens (·.removeTag tag) =
      ofSnippets snippets highlighting := by
  have plain : ∀ token ∈ (ofSnippets snippets highlighting).tokens,
      token.removeTag tag = token := fun token member =>
    Token.removeTag_eq_self_iff.2
      (free_ofSnippets marking snippets highlighting _ (List.mem_map_of_mem member))
  rw [mapTokens, List.map_congr_left plain, List.map_id']

namespace Listing

def unlit (listing : Listing) : Listing := listing.mapTokens (·.removeTag .related)

theorem unlit_pointTo (listing : Listing) (index : Nat) :
    (listing.pointTo index).unlit = listing.unlit.pointTo index :=
  mapTokens_pointTo (fun _ _ => rfl) listing index

theorem unlit_mapTokensOf {g : Token → Token}
    (commutes : ∀ token, (g token).removeTag .related = g (token.removeTag .related))
    (listing : Listing) (index : Nat) :
    (listing.mapTokensOf index g).unlit = listing.unlit.mapTokensOf index g :=
  mapTokens_mapTokensOf commutes listing index

theorem unlit_withRow (listing : Listing) (index : Nat) (snippets : List Snippet)
    (highlighting : Bool) :
    (listing.withRow index (Row.ofSnippets snippets highlighting)).unlit =
      listing.unlit.withRow index (Row.ofSnippets snippets highlighting) := by
  rw [unlit, mapTokens_withRow, Row.removeTag_ofSnippets .related rfl, ← unlit]

theorem unlit_withoutRow (listing : Listing) (index : Nat) :
    (listing.withoutRow index).unlit = listing.unlit.withoutRow index :=
  listing.mapTokens_withoutRow index

@[simp] theorem rowCount_unlit (listing : Listing) : listing.unlit.rowCount = listing.rowCount :=
  listing.rowCount_mapTokens

@[simp] theorem selected_unlit (listing : Listing) :
    listing.unlit.selected = listing.selected := rfl

theorem unlit_point (listing : Listing) (signal : Pointer.Signal) :
    (listing.point signal).1.unlit = listing.unlit := by
  rcases listing.point_cases signal with same | ⟨p, marked⟩ | ⟨p, unmarked⟩
  · rw [same]
  · rw [marked]
    exact mapTokens_mapTokensIn (fun token => token.removeTag_addTag .related) _ _
  · rw [unmarked]
    exact mapTokens_mapTokensIn (fun token => token.removeTag_removeTag .related) _ _

theorem contentTexts?_unlit (listing : Listing) (index : Nat) :
    listing.unlit.contentTexts? index = listing.contentTexts? index := by
  rw [contentTexts?, contentTexts?, unlit, row?_mapTokens, Option.map_map]
  congr 1
  funext row
  simp

end Listing

namespace Workspace

def unlit (w : Workspace) : Workspace := w.setListing w.listing.unlit

@[simp] theorem listing_unlit (w : Workspace) : w.unlit.listing = w.listing.unlit := rfl

@[simp] theorem settings_unlit (w : Workspace) : w.unlit.settings = w.settings := rfl

@[simp] theorem permits_unlit (w : Workspace) (index : Nat) :
    w.unlit.permits index = w.permits index := by
  simp [permits, Listing.lastIndex]

@[simp] theorem canSelect_unlit (w : Workspace) (index : Nat) :
    w.unlit.canSelect index = w.canSelect index := by
  simp [canSelect]

theorem unlit_renumber_pointTo (w : Workspace) (listing : Listing) (index : Nat) :
    (renumber (w.setListing (listing.pointTo index))).unlit =
      renumber (w.unlit.setListing (listing.unlit.pointTo index)) := by
  refine congrArg (Workspace.mk · w.settings) ?_
  rw [Listing.unlit, mapTokens_renumber (fun _ _ => rfl), listing_setListing, ← Listing.unlit,
    Listing.unlit_pointTo]
  rfl

/-! Each edit can be made before or after the marking is taken off. -/

theorem insertRow_unlit (w : Workspace) (index : Nat) (snippets : List Snippet) :
    w.unlit.insertRow index snippets = (w.insertRow index snippets).map unlit := by
  rw [insertRow_eq, insertRow_eq, apply_ite (Option.map unlit), Option.map_some, Option.map_none,
    unlit_renumber_pointTo, Listing.unlit_withRow]
  simp

theorem deleteRow_unlit (w : Workspace) (index : Nat) :
    w.unlit.deleteRow index = (w.deleteRow index).map unlit := by
  rw [deleteRow_eq, deleteRow_eq, apply_ite (Option.map unlit), Option.map_some, Option.map_none,
    unlit_renumber_pointTo, Listing.unlit_withoutRow]
  simp [deleted, selectedAfterDelete]

theorem selectRow_unlit (w : Workspace) (index : Nat) :
    w.unlit.selectRow index = (w.selectRow index).map unlit := by
  rw [selectRow, selectRow, canSelect_unlit, apply_ite (Option.map unlit), Option.map_some,
    Option.map_none, listing_unlit, ← Listing.unlit_pointTo]
  rfl

theorem emphasizeRow_unlit (w : Workspace) (index : Nat) :
    w.unlit.emphasizeRow index = (w.emphasizeRow index).map unlit := by
  have adding : ∀ token : Token, (token.addTag .selected).removeTag .related =
      (token.removeTag .related).addTag .selected := Token.removeTag_addTag_of_ne (by decide)
  have removing : ∀ token : Token, (token.removeTag .selected).removeTag .related =
      (token.removeTag .related).removeTag .selected := fun token => token.removeTag_comm _ _
  simp only [emphasizeRow, canSelect_unlit, apply_ite (Option.map unlit), Option.map_some,
    Option.map_none, listing_unlit, Listing.selected_unlit, ← Listing.unlit_mapTokensOf removing,
    ← Listing.unlit_pointTo, ← Listing.unlit_mapTokensOf adding]
  rfl

end Workspace

/-! ## Commands and runs -/

def Command.isPointing : Command → Bool
  | point _ => true
  | insert _ _ | insertJson _ _ | delete _ | select _ | emphasize _ | subscribe _ | listen _ =>
    false

namespace Session

variable {s other : Session}

theorem commit_unlit {edited edited' : Option Workspace}
    (change change' : Workspace → Option (ChangeKind × RowSpan))
    (same : s.workspace.unlit = other.workspace.unlit)
    (edits : edited.map Workspace.unlit = edited'.map Workspace.unlit) :
    (s.commit edited change).reply = (other.commit edited' change').reply ∧
      (s.commit edited change).session.workspace.unlit =
        (other.commit edited' change').session.workspace.unlit := by
  rw [reply_commit, reply_commit, workspace_commit, workspace_commit]
  cases edited with
  | none =>
    rw [Option.map_none, eq_comm, Option.map_eq_none_iff] at edits
    rw [edits]
    exact ⟨rfl, same⟩
  | some w =>
    obtain ⟨w', done, alike⟩ := Option.map_eq_some_iff.1 edits.symm
    rw [done]
    exact ⟨rfl, alike.symm⟩

theorem insertRow_unlit (same : s.workspace.unlit = other.workspace.unlit) (index : Nat)
    (snippets : List Snippet) :
    (s.insertRow index snippets).reply = (other.insertRow index snippets).reply ∧
      (s.insertRow index snippets).session.workspace.unlit =
        (other.insertRow index snippets).session.workspace.unlit := by
  refine commit_unlit _ _ same ?_
  rw [← Workspace.insertRow_unlit, ← Workspace.insertRow_unlit, same]

/-- A command other than a signal of the pointer does the same to workspaces that differ in the
marking only. -/
theorem perform_unlit (same : s.workspace.unlit = other.workspace.unlit) {command : Command}
    (editing : command.isPointing = false) :
    (s.perform command).reply = (other.perform command).reply ∧
      (s.perform command).session.workspace.unlit =
        (other.perform command).session.workspace.unlit := by
  cases command with
  | insert index snippets => exact insertRow_unlit same index snippets
  | insertJson index text =>
    simp only [perform, insertRowJson]
    cases Snippet.listOfJson text with
    | ok snippets => exact insertRow_unlit same index snippets
    | error error => exact ⟨rfl, same⟩
  | delete index =>
    refine commit_unlit _ _ same ?_
    rw [← Workspace.deleteRow_unlit, ← Workspace.deleteRow_unlit, same]
  | select index =>
    refine commit_unlit _ _ same ?_
    rw [← Workspace.selectRow_unlit, ← Workspace.selectRow_unlit, same]
  | emphasize index =>
    refine commit_unlit _ _ same ?_
    rw [← Workspace.emphasizeRow_unlit, ← Workspace.emphasizeRow_unlit, same]
  | point signal => cases editing
  | subscribe name => exact ⟨rfl, same⟩
  | listen name => exact ⟨rfl, same⟩

theorem point_unlit (s : Session) (signal : Pointer.Signal) :
    (s.point signal).session.workspace.unlit = s.workspace.unlit := by
  rw [workspace_point, Workspace.unlit, Workspace.listing_setListing, Listing.unlit_point]
  rfl

/-- The answers to the commands of a run that are not signals of the pointer. -/
def editReplies (s : Session) (commands : List Command) : List Reply :=
  ((commands.zip (s.trace commands)).filter (!·.1.isPointing)).map (·.2.reply)

theorem run_unlit (same : s.workspace.unlit = other.workspace.unlit) (commands : List Command) :
    s.editReplies commands =
        (other.trace (commands.filter (!·.isPointing))).map (·.reply) ∧
      (s.run commands).workspace.unlit =
        (other.run (commands.filter (!·.isPointing))).workspace.unlit := by
  induction commands generalizing s other with
  | nil => exact ⟨rfl, same⟩
  | cons command commands ih =>
    cases pointing : command.isPointing with
    | true =>
      -- The other run does not take this step at all.
      have skipped : (s.perform command).session.workspace.unlit = other.workspace.unlit := by
        cases command with
        | point signal => exact (s.point_unlit signal).trans same
        | _ => cases pointing
      obtain ⟨replies, final⟩ := ih skipped
      simp only [editReplies, trace, run, List.zip_cons_cons, List.filter_cons, pointing]
      exact ⟨replies, final⟩
    | false =>
      obtain ⟨reply, next⟩ := perform_unlit same pointing
      obtain ⟨replies, final⟩ := ih next
      simp only [editReplies, trace, run, List.zip_cons_cons, List.filter_cons, pointing,
        List.map_cons, Bool.not_false, if_true, reply]
      exact ⟨congrArg _ replies, final⟩

/-- Without the signals of the pointer, a run answers its other commands as before and leads to the
same listing but for the marking; what a host reads back from the rows is the same. -/
theorem pointing_leaves_no_trace (settings : Settings) (commands : List Command) :
    let editing := commands.filter (!·.isPointing)
    let listing := ((new settings).run commands).listing
    let listing' := ((new settings).run editing).listing
    (new settings).editReplies commands = ((new settings).trace editing).map (·.reply) ∧
      listing.unlit = listing'.unlit ∧
      listing.rowCount = listing'.rowCount ∧ listing.selected = listing'.selected ∧
      ∀ index, listing.contentTexts? index = listing'.contentTexts? index ∧
        listing.contentText? index = listing'.contentText? index := by
  intro editing listing listing'
  obtain ⟨replies, final⟩ := run_unlit (s := new settings) rfl commands
  have same : listing.unlit = listing'.unlit := congrArg Workspace.listing final
  have texts : ∀ index, listing.contentTexts? index = listing'.contentTexts? index := by
    intro index
    rw [← listing.contentTexts?_unlit, same, listing'.contentTexts?_unlit]
  refine ⟨replies, same, ?_, ?_, fun index => ⟨texts index, ?_⟩⟩
  · rw [← listing.rowCount_unlit, same, listing'.rowCount_unlit]
  · rw [← listing.selected_unlit, same, listing'.selected_unlit]
  · rw [Listing.contentText?, texts index, Listing.contentText?]

end Session

end CodeRows
