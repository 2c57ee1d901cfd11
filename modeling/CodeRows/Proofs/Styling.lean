import CodeRows.Proofs.Bare
import CodeRows.Proofs.Numbering
import Mathlib.Data.List.Forall2
import Mathlib.Data.List.InsertIdx

/-! # Settings that only show

Four of the five settings decide how a listing looks: whether and from where rows are numbered,
whether content is coloured, how wide the gutter is.  What they leave in a listing is the numbers,
the texts of the number slots and the tag that suppresses colouring.  A listing without these is
unstyled.  An edit can be made before or after the style is taken away, and relating does not see
the style; so two sessions that differ in style only answer, report and edit alike, command by
command (`Session.perform_alike`) and in every run (`Session.style_never_matters`). -/

set_option autoImplicit false

namespace CodeRows

/-- A change of one item commutes with a change of all items if it does so on that one. -/
theorem mapIdx_modify {α β : Type} {f : Nat → α → β} {g : α → α} {h : β → β} {index : Nat}
    (commutes : ∀ item, f index (g item) = h (f index item)) (items : List α) :
    (items.modify index g).mapIdx f = (items.mapIdx f).modify index h := by
  apply List.ext_getElem?
  intro other
  rw [List.getElem?_mapIdx]
  by_cases same : index = other
  · subst same
    rw [List.getElem?_modify_eq, List.getElem?_modify_eq, List.getElem?_mapIdx]
    cases items[index]? with
    | none => rfl
    | some item => exact congrArg some (commutes item)
  · rw [List.getElem?_modify_ne _ _ same, List.getElem?_modify_ne _ _ same, List.getElem?_mapIdx]

/-! ## Unstyled tokens -/

namespace Token

/-- The token in a column without the text of a number and the tag that suppresses colouring. -/
def unstyled (column : Nat) (token : Token) : Token :=
  ⟨if column = Position.numberColumn then "" else token.text, token.tags.erase .noHighlighting⟩

theorem mem_tags_unstyled {column : Nat} {token : Token} {tag : Tag} :
    tag ∈ (token.unstyled column).tags ↔ tag ∈ token.tags ∧ tag ≠ .noHighlighting :=
  OrderedSet.mem_erase

theorem unstyled_setText_of_ne {column : Nat} (other : column ≠ Position.numberColumn)
    (token : Token) (text : String) :
    (token.setText text).unstyled column = (token.unstyled column).setText text := by
  simp only [unstyled, setText, if_neg other]

theorem unstyled_addTag {tag : Tag} (other : tag ≠ .noHighlighting) (column : Nat) (token : Token) :
    (token.addTag tag).unstyled column = (token.unstyled column).addTag tag := by
  refine ext_tags rfl fun carried => ?_
  simp only [mem_tags_unstyled, mem_tags_addTag]
  constructor
  · rintro ⟨rfl | before, kept⟩
    · exact Or.inl rfl
    · exact Or.inr ⟨before, kept⟩
  · rintro (rfl | ⟨before, kept⟩)
    · exact ⟨Or.inl rfl, other⟩
    · exact ⟨Or.inr before, kept⟩

theorem unstyled_removeTag (tag : Tag) (column : Nat) (token : Token) :
    (token.removeTag tag).unstyled column = (token.unstyled column).removeTag tag := by
  refine ext_tags rfl fun carried => ?_
  simp only [mem_tags_unstyled, mem_tags_removeTag]
  exact and_right_comm

theorem hasTag_unstyled {tag : Tag} (other : tag ≠ .noHighlighting) (column : Nat)
    (token : Token) : (token.unstyled column).hasTag tag = token.hasTag tag := by
  rw [Bool.eq_iff_iff, hasTag_iff, hasTag_iff, mem_tags_unstyled]
  exact and_iff_left other

end Token

theorem Snippet.unstyled_token (snippet : Snippet) (highlighting other : Bool) (column : Nat) :
    (snippet.token highlighting).unstyled column = (snippet.token other).unstyled column := by
  have coloured : ∀ on : Bool, (snippet.token on).unstyled column =
      Token.unstyled column ⟨snippet.text, snippet.tags⟩ := by
    intro on
    refine Token.ext_tags rfl fun tag => ?_
    simp only [Token.mem_tags_unstyled, token]
    refine and_congr_left fun kept => ?_
    cases on with
    | true => rfl
    | false =>
      rw [if_neg Bool.false_ne_true, OrderedSet.mem_insert]
      exact or_iff_right kept
  rw [coloured, coloured]

/-! ## Unstyled rows -/

namespace Row

def unstyled (row : Row) : Row := ⟨none, row.tokens.mapIdx Token.unstyled, row.isSelected⟩

@[simp] theorem unstyled_setNumber (row : Row) (number : Option Int) :
    (row.setNumber number).unstyled = row.unstyled := by
  refine congrArg (Row.mk none · row.isSelected) ((mapIdx_modify (h := id) ?_ row.tokens).trans ?_)
  · intro token
    rfl
  · exact List.modify_id _ _

@[simp] theorem unstyled_setSelected (row : Row) (selected : Bool) :
    (row.setSelected selected).unstyled = row.unstyled.setSelected selected :=
  congrArg (Row.mk none · selected)
    (mapIdx_modify (fun token => Token.unstyled_setText_of_ne (by decide) token _) row.tokens)

theorem unstyled_mapIn (row : Row) (tokens : Highlight) (index : Nat) {f : Token → Token}
    (commutes : ∀ column token, (f token).unstyled column = f (token.unstyled column)) :
    (row.mapIn tokens index f).unstyled = row.unstyled.mapIn tokens index f := by
  refine congrArg (Row.mk none · row.isSelected) ?_
  simp only [mapIn, unstyled, List.mapIdx_mapIdx]
  congr 1
  funext column token
  simp only [Function.comp_apply]
  split
  · exact commutes column token
  · rfl

theorem unstyled_mapTokens (row : Row) {f : Token → Token}
    (commutes : ∀ column token, (f token).unstyled column = f (token.unstyled column)) :
    (row.mapTokens f).unstyled = row.unstyled.mapTokens f := by
  refine congrArg (Row.mk none · row.isSelected) (List.ext_getElem? fun column => ?_)
  simp only [mapTokens, unstyled, List.getElem?_mapIdx, List.getElem?_map, Option.map_map]
  congr 1
  funext token
  exact commutes column token

theorem unstyled_ofSnippets (snippets : List Snippet) (highlighting other : Bool) :
    (ofSnippets snippets highlighting).unstyled = (ofSnippets snippets other).unstyled := by
  refine congrArg (Row.mk none · false) (List.ext_getElem? fun column => ?_)
  simp only [ofSnippets, List.getElem?_mapIdx, List.getElem?_append, List.getElem?_map]
  split
  · rfl
  · simp only [Option.map_map]
    congr 1
    funext snippet
    exact snippet.unstyled_token highlighting other column

theorem allTagged_unstyled (row : Row) {tag : Tag} (other : tag ≠ .noHighlighting) :
    row.unstyled.allTagged tag = row.allTagged tag := by
  have tagging : row.unstyled.tokens.map (·.hasTag tag) = row.tokens.map (·.hasTag tag) :=
    map_mapIdx_of_keeps _ (fun column token => Token.hasTag_unstyled other column token) row.tokens
  have viaTags : ∀ tokens : List Token,
      tokens.all (·.hasTag tag) = (tokens.map (·.hasTag tag)).all id := by
    intro tokens
    rw [List.all_map]
    rfl
  rw [allTagged, allTagged, viaTags, viaTags, tagging]

end Row

/-! ## Unstyled listings -/

namespace Listing

def unstyled (listing : Listing) : Listing := { listing with rows := listing.rows.map Row.unstyled }

@[simp] theorem row?_unstyled (listing : Listing) (index : Nat) :
    listing.unstyled.row? index = (listing.row? index).map Row.unstyled :=
  List.getElem?_map

@[simp] theorem rowCount_unstyled (listing : Listing) :
    listing.unstyled.rowCount = listing.rowCount :=
  List.length_map _

@[simp] theorem selected_unstyled (listing : Listing) :
    listing.unstyled.selected = listing.selected := rfl

theorem token?_unstyled (listing : Listing) (p : Position) :
    listing.unstyled.token? p = (listing.token? p).map (Token.unstyled p.column) := by
  rw [token?, token?, row?_unstyled]
  cases listing.row? p.row with
  | none => rfl
  | some row => exact List.getElem?_mapIdx

theorem unstyled_pointTo (listing : Listing) (index : Nat) :
    (listing.pointTo index).unstyled = listing.unstyled.pointTo index := by
  refine ext_row? (fun other => ?_) rfl
  simp only [row?_unstyled, row?_pointTo, Option.map_map]
  congr 1
  funext row
  simp only [Function.comp_apply, show row.unstyled.isSelected = row.isSelected from rfl]
  split
  · rfl
  · exact row.unstyled_setSelected _

theorem unstyled_mapTokensOf (listing : Listing) (index : Nat) {f : Token → Token}
    (commutes : ∀ column token, (f token).unstyled column = f (token.unstyled column)) :
    (listing.mapTokensOf index f).unstyled = listing.unstyled.mapTokensOf index f := by
  refine ext_row? (fun other => ?_) rfl
  simp only [row?_unstyled, row?_mapTokensOf, Option.map_map]
  congr 1
  funext row
  simp only [Function.comp_apply]
  split
  · exact row.unstyled_mapTokens commutes
  · rfl

theorem unstyled_mapTokensIn (listing : Listing) (tokens : Highlight) {f : Token → Token}
    (commutes : ∀ column token, (f token).unstyled column = f (token.unstyled column)) :
    (listing.mapTokensIn tokens f).unstyled = listing.unstyled.mapTokensIn tokens f := by
  refine ext_row? (fun index => ?_) rfl
  simp only [row?_unstyled, mapTokensIn_eq, row?_mapRows, Option.map_map]
  congr 1
  funext row
  exact row.unstyled_mapIn tokens index commutes

theorem unstyled_withRow (listing : Listing) (index : Nat) (row : Row) :
    (listing.withRow index row).unstyled = listing.unstyled.withRow index row.unstyled :=
  congrArg (Listing.mk · listing.selected) (List.map_insertIdx _ _ _ _)

theorem unstyled_withoutRow (listing : Listing) (index : Nat) :
    (listing.withoutRow index).unstyled = listing.unstyled.withoutRow index :=
  congrArg (Listing.mk · listing.selected) (List.eraseIdx_map _ _ _).symm

/-- Relating reads no number slot, unless one shows a parenthesis. -/
theorem related_unstyled {listing : Listing}
    (numbers : ∀ row ∈ listing.rows, row.text? Position.numberColumn ≠ some "(") (p : Position) :
    listing.unstyled.related p = listing.related p := by
  have bareRow : ∀ row ∈ listing.rows, row.unstyled.bare = row.bare := by
    intro row member
    refine congrArg (Row.mk none · false) (map_mapIdx_of_keeps_at Token.bare ?_)
    intro column token found
    refine Token.bare_eq_of ?_ fun tag structural => ?_
    · by_cases slot : column = Position.numberColumn
      · subst slot
        refine iff_of_false (by simp [Token.unstyled]) fun opens => numbers row member ?_
        rw [Row.text?, Row.token?, found, Option.map_some, opens]
      · simp [Token.unstyled, slot]
    · rw [Token.mem_tags_unstyled]
      refine and_iff_left ?_
      rintro rfl
      cases structural
  have same : listing.unstyled.bare = listing.bare := by
    refine congrArg (Listing.mk · 0) ?_
    rw [unstyled, List.map_map]
    exact List.map_congr_left bareRow
  rw [← related_bare, same, related_bare]

end Listing

theorem Numeric.intText_ne_paren (number : Int) : intText number ≠ "(" := by
  intro same
  have chars : intChars number = ['('] := by
    have listed := congrArg String.toList same
    rwa [intText, String.toList_ofList] at listed
  rw [intChars] at chars
  split at chars
  · exact absurd (List.cons.inj chars).1 (by decide)
  · have digit : '(' ∈ Nat.toDigits 10 number.natAbs := by
      rw [show Nat.toDigits 10 number.natAbs = ['('] from chars]
      exact List.mem_singleton.2 rfl
    exact absurd (Nat.isDigit_of_mem_toDigits (by decide) (by decide) digit) (by decide)

theorem Workspace.Numbered.no_paren {w : Workspace} (numbered : w.Numbered) :
    ∀ row ∈ w.listing.rows, row.text? Position.numberColumn ≠ some "(" := by
  intro row member
  obtain ⟨index, found⟩ := Listing.row?_of_mem_rows member
  rw [(numbered index row found).text]
  intro opens
  cases number : w.settings.lineNumber index with
  | none => simp [number] at opens
  | some n =>
    rw [number, Option.some.injEq] at opens
    exact Numeric.intText_ne_paren n opens

/-! ## Workspaces that differ in style -/

namespace Workspace

structure Alike (w other : Workspace) : Prop where
  listing : w.listing.unstyled = other.listing.unstyled
  lastRowOnly : w.settings.lastRowOnly = other.settings.lastRowOnly

variable {w other : Workspace}

theorem Alike.rowCount (alike : w.Alike other) : w.listing.rowCount = other.listing.rowCount := by
  rw [← Listing.rowCount_unstyled, alike.listing, Listing.rowCount_unstyled]

theorem Alike.selected (alike : w.Alike other) : w.listing.selected = other.listing.selected := by
  rw [← Listing.selected_unstyled, alike.listing, Listing.selected_unstyled]

theorem Alike.permits (alike : w.Alike other) (index : Nat) :
    w.permits index = other.permits index := by
  rw [Workspace.permits, Workspace.permits, Listing.lastIndex, Listing.lastIndex, alike.rowCount,
    alike.lastRowOnly]

theorem Alike.setListing (alike : w.Alike other) {listing listing' : Listing}
    (same : listing.unstyled = listing'.unstyled) :
    (w.setListing listing).Alike (other.setListing listing') :=
  ⟨same, alike.lastRowOnly⟩

theorem unstyled_renumber (w : Workspace) :
    (renumber w).listing.unstyled = w.listing.unstyled := by
  refine Listing.ext_row? (fun index => ?_) rfl
  simp only [Listing.row?_unstyled, row?_renumber, Option.map_map]
  congr 1
  funext row
  exact row.unstyled_setNumber _

theorem Alike.renumber (alike : w.Alike other) :
    (Workspace.renumber w).Alike (Workspace.renumber other) := by
  refine ⟨?_, alike.lastRowOnly⟩
  rw [unstyled_renumber, unstyled_renumber]
  exact alike.listing

theorem Alike.related (alike : w.Alike other) (numbered : w.Numbered)
    (numberedOther : other.Numbered) (p : Position) :
    w.listing.related p = other.listing.related p := by
  rw [← Listing.related_unstyled numbered.no_paren, alike.listing,
    Listing.related_unstyled numberedOther.no_paren]

/-! Each edit is applied to both or to neither, and leaves them alike. -/

theorem Alike.insertRow (alike : w.Alike other) (index : Nat) (snippets : List Snippet) :
    Option.Rel Alike (w.insertRow index snippets) (other.insertRow index snippets) := by
  rw [insertRow_eq, insertRow_eq, alike.rowCount, alike.permits, alike.selected]
  split
  · refine .some (renumber (alike.setListing ?_))
    rw [Listing.unstyled_pointTo, Listing.unstyled_withRow, alike.listing,
      Row.unstyled_ofSnippets snippets _ other.settings.highlighting, ← Listing.unstyled_withRow,
      ← Listing.unstyled_pointTo]
  · exact .none

theorem Alike.deleteRow (alike : w.Alike other) (index : Nat) :
    Option.Rel Alike (w.deleteRow index) (other.deleteRow index) := by
  have target : w.deleted index = other.deleted index := by
    rw [deleted, deleted, alike.rowCount]
  have next : w.selectedAfterDelete index = other.selectedAfterDelete index := by
    rw [selectedAfterDelete, selectedAfterDelete, alike.rowCount, alike.selected]
  rw [deleteRow_eq, deleteRow_eq, alike.rowCount, target, next]
  split
  · refine .some (renumber (alike.setListing ?_))
    rw [Listing.unstyled_pointTo, Listing.unstyled_withoutRow, alike.listing,
      ← Listing.unstyled_withoutRow, ← Listing.unstyled_pointTo]
  · exact .none

theorem Alike.canSelect (alike : w.Alike other) (index : Nat) :
    w.canSelect index = other.canSelect index := by
  rw [Workspace.canSelect, Workspace.canSelect, alike.rowCount, alike.permits]

theorem Alike.selectRow (alike : w.Alike other) (index : Nat) :
    Option.Rel Alike (w.selectRow index) (other.selectRow index) := by
  rw [Workspace.selectRow, Workspace.selectRow, alike.canSelect]
  split
  · refine .some (alike.setListing ?_)
    rw [Listing.unstyled_pointTo, alike.listing, Listing.unstyled_pointTo]
  · exact .none

theorem Alike.emphasizeRow (alike : w.Alike other) (index : Nat) :
    Option.Rel Alike (w.emphasizeRow index) (other.emphasizeRow index) := by
  have adding : ∀ column (token : Token), (token.addTag .selected).unstyled column =
      (token.unstyled column).addTag .selected := Token.unstyled_addTag (by decide)
  have removing := Token.unstyled_removeTag .selected
  rw [Workspace.emphasizeRow, Workspace.emphasizeRow, alike.canSelect, alike.selected]
  split
  · refine .some (alike.setListing ?_)
    simp only [Listing.unstyled_mapTokensOf _ _ adding, Listing.unstyled_mapTokensOf _ _ removing,
      Listing.unstyled_pointTo, alike.listing]
  · exact .none

end Workspace

/-! ## Replies and messages that differ in style

Only a click passes on what a token looks like. -/

def ClickTarget.unstyled (target : ClickTarget) : ClickTarget :=
  let token := Token.unstyled target.position.column ⟨target.text, target.tags⟩
  ⟨target.position, token.text, token.tags⟩

def Pointer.Outcome.unstyled : Pointer.Outcome → Pointer.Outcome
  | .clicked target => .clicked target.unstyled
  | outcome => outcome

def Reply.unstyled : Reply → Reply
  | .pointed outcome => .pointed outcome.unstyled
  | reply => reply

def Delivery.unstyled : Delivery → Delivery
  | .click listener target => .click listener target.unstyled
  | delivery => delivery

theorem Pointer.Outcome.touched_unstyled (outcome : Outcome) :
    outcome.unstyled.touched = outcome.touched := by
  cases outcome <;> rfl

theorem Pointer.clicks_unstyled (pointer : Pointer) (outcome : Outcome) :
    ((pointer.heard? outcome).toList.map fun heard => Delivery.click heard.1 heard.2).map
        Delivery.unstyled =
      (pointer.heard? outcome.unstyled).toList.map fun heard => .click heard.1 heard.2 := by
  obtain ⟨listener⟩ := pointer
  cases listener <;> cases outcome <;> rfl

theorem Listing.point_alike {listing other : Listing} (same : listing.unstyled = other.unstyled)
    (related : ∀ p, listing.related p = other.related p) (signal : Pointer.Signal) :
    (listing.point signal).1.unstyled = (other.point signal).1.unstyled ∧
      (listing.point signal).2.unstyled = (other.point signal).2.unstyled := by
  have tokens : ∀ p, (listing.token? p).map (Token.unstyled p.column) =
      (other.token? p).map (Token.unstyled p.column) := by
    intro p
    rw [← token?_unstyled, same, token?_unstyled]
  have occupied : ∀ p, (listing.token? p).isSome = (other.token? p).isSome := by
    intro p
    have both := congrArg Option.isSome (tokens p)
    rwa [Option.isSome_map, Option.isSome_map] at both
  have visited : ∀ p (f : Token → Token),
      (∀ column token, (f token).unstyled column = f (token.unstyled column)) →
      (listing.mapTokensIn (other.related p) f).unstyled =
        (other.mapTokensIn (other.related p) f).unstyled := by
    intro p f commutes
    rw [unstyled_mapTokensIn _ _ commutes, same, unstyled_mapTokensIn _ _ commutes]
  cases signal with
  | enter p =>
    simp only [point, related, occupied]
    split
    · exact ⟨visited p _ (Token.unstyled_addTag (by decide)), rfl⟩
    · exact ⟨same, rfl⟩
  | leave p =>
    simp only [point, related, occupied]
    split
    · exact ⟨visited p _ (Token.unstyled_removeTag .related), rfl⟩
    · exact ⟨same, rfl⟩
  | click p =>
    have found := tokens p
    simp only [point]
    cases first : listing.token? p with
    | none =>
      rw [first] at found
      rw [Option.map_eq_none_iff.1 found.symm]
      exact ⟨same, rfl⟩
    | some token =>
      rw [first] at found
      obtain ⟨token', second, alike⟩ := Option.map_eq_some_iff.1 found.symm
      rw [second]
      exact ⟨same, congrArg
        (fun token : Token => Pointer.Outcome.clicked ⟨p, token.text, token.tags⟩) alike.symm⟩

/-! ## Sessions that differ in style -/

structure Session.Alike (s other : Session) : Prop where
  workspace : s.workspace.Alike other.workspace
  pointer : s.pointer = other.pointer
  version : s.version = other.version
  subscribers : s.subscribers = other.subscribers

/-- Apart from how tokens look, the steps give the same answer, send the same messages and lead to
the same session. -/
structure Step.Alike (step other : Step) : Prop where
  session : step.session.Alike other.session
  reply : step.reply.unstyled = other.reply.unstyled
  deliveries : step.deliveries.map Delivery.unstyled = other.deliveries.map Delivery.unstyled

namespace Session

variable {s other : Session}

theorem Alike.listing (alike : s.Alike other) : s.listing.unstyled = other.listing.unstyled :=
  alike.workspace.listing

theorem Alike.notify (alike : s.Alike other) (kind : ChangeKind) (rows : RowSpan) :
    (s.notify kind rows).1.Alike (other.notify kind rows).1 ∧
      (s.notify kind rows).2 = (other.notify kind rows).2 := by
  refine ⟨⟨alike.workspace, alike.pointer, ?_, alike.subscribers⟩, ?_⟩
  · exact congrArg (· + 1) alike.version
  · rw [Session.notify, Session.notify, alike.version, alike.subscribers]

theorem Alike.commit (alike : s.Alike other) {edited edited' : Option Workspace}
    (edits : Option.Rel Workspace.Alike edited edited')
    {change change' : Workspace → Option (ChangeKind × RowSpan)}
    (changes : ∀ w w', w.Alike w' → change w = change' w') :
    (s.commit edited change).Alike (other.commit edited' change') := by
  cases edits with
  | none => exact ⟨alike, rfl, rfl⟩
  | @some w w' same =>
    have next : Session.Alike { s with workspace := w } { other with workspace := w' } :=
      ⟨same, alike.pointer, alike.version, alike.subscribers⟩
    simp only [Session.commit, changes w w' same]
    cases change' w' with
    | none => exact ⟨next, rfl, rfl⟩
    | some named =>
      obtain ⟨sessions, messages⟩ := next.notify named.1 named.2
      exact ⟨sessions, rfl, congrArg _ messages⟩

theorem Alike.insertRow (alike : s.Alike other) (index : Nat) (snippets : List Snippet) :
    (s.insertRow index snippets).Alike (other.insertRow index snippets) :=
  alike.commit (alike.workspace.insertRow index snippets) fun w w' same => by rw [same.rowCount]

theorem Alike.isEmphasized (alike : s.Alike other) (index : Nat) :
    s.isEmphasized index = other.isEmphasized index := by
  have emphasis : ∀ listing : Listing, (listing.row? index).any (·.allTagged .selected) =
      (listing.unstyled.row? index).any (·.allTagged .selected) := by
    intro listing
    rw [Listing.row?_unstyled, Option.any_map]
    congr 1
    funext row
    exact (row.allTagged_unstyled (by decide)).symm
  have selected : s.listing.selected = other.listing.selected := alike.workspace.selected
  rw [Session.isEmphasized, Session.isEmphasized, selected, emphasis s.listing, alike.listing,
    ← emphasis]

theorem Alike.point (alike : s.Alike other)
    (related : ∀ p, s.listing.related p = other.listing.related p) (signal : Pointer.Signal) :
    (s.point signal).Alike (other.point signal) := by
  obtain ⟨listings, outcomes⟩ := Listing.point_alike alike.listing related signal
  have next : Session.Alike
      { s with workspace := s.workspace.setListing (s.listing.point signal).1 }
      { other with workspace := other.workspace.setListing (other.listing.point signal).1 } :=
    ⟨alike.workspace.setListing listings, alike.pointer, alike.version, alike.subscribers⟩
  have touched : (s.listing.point signal).2.touched = (other.listing.point signal).2.touched := by
    rw [← Pointer.Outcome.touched_unstyled, outcomes, Pointer.Outcome.touched_unstyled]
  have clicks : ((s.pointer.heard? (s.listing.point signal).2).toList.map
        fun heard => Delivery.click heard.1 heard.2).map Delivery.unstyled =
      ((other.pointer.heard? (other.listing.point signal).2).toList.map
        fun heard => Delivery.click heard.1 heard.2).map Delivery.unstyled := by
    rw [Pointer.clicks_unstyled, Pointer.clicks_unstyled, outcomes, alike.pointer]
  simp only [Session.point, touched]
  cases RowSpan.ofHighlight? (other.listing.point signal).2.touched with
  | none => exact ⟨next, congrArg Reply.pointed outcomes, clicks⟩
  | some rows =>
    obtain ⟨sessions, messages⟩ := next.notify .highlight rows
    refine ⟨sessions, congrArg Reply.pointed outcomes, ?_⟩
    rw [List.map_append, List.map_append, clicks, messages]

/-- A command does the same to both sessions, as long as the same tokens are related in both. -/
theorem perform_alike (alike : s.Alike other)
    (related : ∀ p, s.listing.related p = other.listing.related p) (command : Command) :
    (s.perform command).Alike (other.perform command) := by
  have selected : s.listing.selected = other.listing.selected := alike.workspace.selected
  cases command with
  | insert index snippets => exact alike.insertRow index snippets
  | insertJson index text =>
    simp only [perform, insertRowJson]
    cases Snippet.listOfJson text with
    | ok snippets => exact alike.insertRow index snippets
    | error error => exact ⟨alike, rfl, rfl⟩
  | delete index =>
    rw [perform, perform, deleteRow, deleteRow]
    refine alike.commit (alike.workspace.deleteRow index) fun w w' same => ?_
    rw [same.rowCount]
  | select index =>
    rw [perform, perform, selectRow, selectRow]
    refine alike.commit (alike.workspace.selectRow index) fun w w' same => ?_
    rw [selected]
  | emphasize index =>
    rw [perform, perform, emphasizeRow, emphasizeRow]
    refine alike.commit (alike.workspace.emphasizeRow index) fun w w' same => ?_
    rw [selected, alike.isEmphasized]
  | point signal => exact alike.point related signal
  | subscribe name =>
    refine ⟨⟨alike.workspace, alike.pointer, alike.version, ?_⟩, rfl, rfl⟩
    exact congrArg (· ++ [name]) alike.subscribers
  | listen name => exact ⟨⟨alike.workspace, rfl, alike.version, alike.subscribers⟩, rfl, rfl⟩

/-! ## Runs -/

theorem alike_new {settings settings' : Settings}
    (same : settings.lastRowOnly = settings'.lastRowOnly) :
    (new settings).Alike (new settings') := by
  refine ⟨⟨?_, same⟩, rfl, rfl, rfl⟩
  rw [new, new, Workspace.new, Workspace.new, Workspace.unstyled_renumber,
    Workspace.unstyled_renumber]

theorem run_alike (alike : s.Alike other) (numbered : s.workspace.Numbered)
    (numberedOther : other.workspace.Numbered) (commands : List Command) :
    List.Forall₂ Step.Alike (s.trace commands) (other.trace commands) ∧
      (s.run commands).Alike (other.run commands) := by
  induction commands generalizing s other with
  | nil => exact ⟨.nil, alike⟩
  | cons command commands ih =>
    have first := perform_alike alike (alike.workspace.related numbered numberedOther) command
    obtain ⟨steps, final⟩ := ih first.session (numbered_perform numbered command)
      (numbered_perform numberedOther command)
    exact ⟨.cons first steps, final⟩

/-- Settings that agree on where editing is confined to lead through the same commands to the same
answers, versions, records and related tokens.  The listings differ in line numbers, the texts of
number slots and the tag that suppresses colouring, and in nothing else. -/
theorem style_never_matters (settings settings' : Settings)
    (same : settings.lastRowOnly = settings'.lastRowOnly) (commands : List Command) :
    List.Forall₂ Step.Alike ((new settings).trace commands) ((new settings').trace commands) ∧
      ((new settings).run commands).listing.unstyled =
        ((new settings').run commands).listing.unstyled ∧
      ∀ p, ((new settings).run commands).listing.related p =
        ((new settings').run commands).listing.related p := by
  obtain ⟨steps, final⟩ := run_alike (alike_new same) (Workspace.numbered_new settings)
    (Workspace.numbered_new settings') commands
  exact ⟨steps, final.listing, final.workspace.related (numbered_run settings commands)
    (numbered_run settings' commands)⟩

/-- A call is entered, emphasized and clicked with numbers and colouring and without either. -/
theorem style_never_matters_call :
    let plain : Settings := { lineNumbers := false, highlighting := false, firstNumber := -5 }
    let commands : List Command := [.subscribe "host", .listen "host",
      .insert 0 [⟨"f", none⟩, ⟨"(", some "openParen"⟩, ⟨")", some "closeParen"⟩], .emphasize 0,
      .point (.enter ⟨0, 2⟩), .point (.click ⟨0, 0⟩), .point (.leave ⟨7, 0⟩)]
    ((new {}).run commands).listing ≠ ((new plain).run commands).listing ∧
      List.Forall₂ Step.Alike ((new {}).trace commands) ((new plain).trace commands) ∧
      ((new plain).run commands).listing.related ⟨0, 2⟩ =
        OrderedSet.ofList [⟨0, 2⟩, ⟨0, 3⟩, ⟨0, 4⟩] := by
  intro plain commands
  obtain ⟨steps, -, related⟩ := style_never_matters {} plain rfl commands
  refine ⟨by decide, steps, ?_⟩
  rw [← related]
  decide

end Session

end CodeRows
