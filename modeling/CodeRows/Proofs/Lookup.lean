import CodeRows.Hover
import CodeRows.Workspace

/-! # Rows and tokens after an operation

The operations on tokens, rows and listings are described here by what is found afterwards: the
tags and the text of a token, the token in a column, the row at an index.  Later modules reason
with these equations and do not open the operations again. -/

set_option autoImplicit false

namespace CodeRows

/-- A view that no single change affects is the same on the whole list. -/
theorem map_mapIdx_of_keeps_at {α β : Type} (view : α → β) {f : Nat → α → α} {items : List α}
    (keeps : ∀ index item, items[index]? = some item → view (f index item) = view item) :
    (items.mapIdx f).map view = items.map view := by
  apply List.ext_getElem?
  intro index
  rw [List.getElem?_map, List.getElem?_mapIdx, List.getElem?_map]
  cases found : items[index]? with
  | none => rfl
  | some item => exact congrArg some (keeps index item found)

theorem map_mapIdx_of_keeps {α β : Type} (view : α → β) {f : Nat → α → α}
    (keeps : ∀ index item, view (f index item) = view item) (items : List α) :
    (items.mapIdx f).map view = items.map view :=
  map_mapIdx_of_keeps_at view fun index item _ => keeps index item

theorem map_modify_of_keeps_at {α β : Type} (view : α → β) {f : α → α} {items : List α}
    {index : Nat} (keeps : ∀ item, items[index]? = some item → view (f item) = view item) :
    (items.modify index f).map view = items.map view := by
  apply List.ext_getElem?
  intro other
  rw [List.getElem?_map, List.getElem?_map]
  by_cases same : index = other
  · subst same
    rw [List.getElem?_modify_eq]
    cases found : items[index]? with
    | none => rfl
    | some item => exact congrArg some (keeps item found)
  · rw [List.getElem?_modify_ne _ _ same]

/-- Changing an item into itself changes nothing. -/
theorem modify_eq_self_of_fixed {α : Type} {f : α → α} {items : List α} {index : Nat}
    (fixed : ∀ item, items[index]? = some item → f item = item) : items.modify index f = items := by
  have same := map_modify_of_keeps_at id fixed
  rwa [List.map_id, List.map_id] at same

/-- Read backwards from `n`, a list shows its items in the order in which they lie above `n`. -/
theorem getElem?_reverse_take {α : Type} {items : List α} {n k : Nat} (inside : n ≤ items.length)
    (bound : k < n) : (items.take n).reverse[k]? = items[n - 1 - k]? := by
  have length : (items.take n).length = n := List.length_take_of_le inside
  rw [List.getElem?_reverse (by omega), length, List.getElem?_take_of_lt (by omega)]

/-! ## Tokens -/

namespace Token

@[simp] theorem hasTag_iff {token : Token} {tag : Tag} :
    token.hasTag tag = true ↔ tag ∈ token.tags :=
  OrderedSet.contains_iff

@[simp] theorem text_addTag (token : Token) (tag : Tag) : (token.addTag tag).text = token.text := rfl

@[simp] theorem text_removeTag (token : Token) (tag : Tag) :
    (token.removeTag tag).text = token.text := rfl

@[simp] theorem mem_tags_addTag {token : Token} {tag other : Tag} :
    other ∈ (token.addTag tag).tags ↔ other = tag ∨ other ∈ token.tags :=
  OrderedSet.mem_insert

@[simp] theorem mem_tags_removeTag {token : Token} {tag other : Tag} :
    other ∈ (token.removeTag tag).tags ↔ other ∈ token.tags ∧ other ≠ tag :=
  OrderedSet.mem_erase

theorem ext_tags {a b : Token} (sameText : a.text = b.text)
    (sameTags : ∀ tag, tag ∈ a.tags ↔ tag ∈ b.tags) : a = b := by
  cases a
  cases b
  cases sameText
  congr 1
  exact OrderedSet.ext_mem sameTags

theorem removeTag_addTag (token : Token) (tag : Tag) :
    (token.addTag tag).removeTag tag = token.removeTag tag := by
  refine ext_tags rfl fun other => ?_
  simp only [mem_tags_removeTag, mem_tags_addTag]
  constructor
  · rintro ⟨same | member, differs⟩
    · exact absurd same differs
    · exact ⟨member, differs⟩
  · rintro ⟨member, differs⟩
    exact ⟨Or.inr member, differs⟩

theorem removeTag_eq_self_iff {token : Token} {tag : Tag} :
    token.removeTag tag = token ↔ tag ∉ token.tags := by
  constructor
  · intro same member
    rw [← same] at member
    exact (mem_tags_removeTag.1 member).2 rfl
  · intro absent
    refine ext_tags rfl fun other => ?_
    rw [mem_tags_removeTag]
    refine and_iff_left_of_imp fun member same => ?_
    rw [same] at member
    exact absent member

end Token

/-! ## Rows -/

namespace Row

def text? (row : Row) (column : Nat) : Option String := (row.token? column).map (·.text)

theorem text?_eq_getElem? (row : Row) (column : Nat) :
    row.text? column = (row.tokens.map (·.text))[column]? := List.getElem?_map.symm

theorem text?_setText (row : Row) (column c : Nat) (text : String) :
    (row.setText column text).text? c =
      if c = column then (row.text? c).map fun _ => text else row.text? c := by
  simp only [text?, token?, setText, List.getElem?_modify, eq_comm (a := c)]
  split
  · cases row.tokens[c]? <;> rfl
  · cases row.tokens[c]? <;> rfl

theorem text?_setNumber (row : Row) (number : Option Int) {column : Nat}
    (other : column ≠ Position.numberColumn) :
    (row.setNumber number).text? column = row.text? column := by
  rw [setNumber, text?_setText, if_neg other]
  rfl

theorem text?_setSelected (row : Row) (selected : Bool) :
    (row.setSelected selected).text? Position.arrowColumn =
      (row.text? Position.arrowColumn).map fun _ => if selected then arrow else "" := by
  rw [setSelected, text?_setText, if_pos rfl]
  rfl

theorem text?_mapTokens (row : Row) {f : Token → Token} (keeps : ∀ token, (f token).text = token.text)
    (column : Nat) : (row.mapTokens f).text? column = row.text? column := by
  rw [text?_eq_getElem?, text?_eq_getElem?, mapTokens, List.map_map]
  exact congrArg (·[column]?) (List.map_congr_left fun token _ => keeps token)

/-- The row at an index after a change of the tokens at the positions of a set. -/
def mapIn (row : Row) (tokens : Highlight) (index : Nat) (f : Token → Token) : Row :=
  { row with
    tokens := row.tokens.mapIdx fun column token =>
      if tokens.contains ⟨index, column⟩ then f token else token }

theorem map_tokens_mapIn {α : Type} (view : Token → α) (row : Row) (tokens : Highlight)
    (index : Nat) {f : Token → Token} (keeps : ∀ token, view (f token) = view token) :
    (row.mapIn tokens index f).tokens.map view = row.tokens.map view := by
  refine map_mapIdx_of_keeps view ?_ row.tokens
  intro column token
  split
  · exact keeps token
  · rfl

theorem text?_mapIn (row : Row) (tokens : Highlight) (index : Nat) {f : Token → Token}
    (keeps : ∀ token, (f token).text = token.text) (column : Nat) :
    (row.mapIn tokens index f).text? column = row.text? column := by
  rw [text?_eq_getElem?, text?_eq_getElem?, map_tokens_mapIn _ row tokens index keeps]

@[simp] theorem content_setText_number (row : Row) (text : String) :
    (row.setText Position.numberColumn text).content = row.content :=
  List.drop_modify_of_lt _ _ _ _ (by decide)

@[simp] theorem content_setText_arrow (row : Row) (text : String) :
    (row.setText Position.arrowColumn text).content = row.content :=
  List.drop_modify_of_lt _ _ _ _ (by decide)

@[simp] theorem content_setNumber (row : Row) (number : Option Int) :
    (row.setNumber number).content = row.content :=
  content_setText_number _ _

@[simp] theorem content_setSelected (row : Row) (selected : Bool) :
    (row.setSelected selected).content = row.content :=
  content_setText_arrow _ _

@[simp] theorem content_mapTokens (row : Row) (f : Token → Token) :
    (row.mapTokens f).content = row.content.map f :=
  List.map_drop.symm

@[simp] theorem content_ofSnippets (snippets : List Snippet) (highlighting : Bool) :
    (ofSnippets snippets highlighting).content = snippets.map (Snippet.token highlighting) := rfl

end Row

/-! ## Listings -/

namespace Listing

@[simp] theorem rowCount_mapRows (listing : Listing) (f : Nat → Row → Row) :
    (listing.mapRows f).rowCount = listing.rowCount :=
  List.length_mapIdx

@[simp] theorem row?_mapRows (listing : Listing) (f : Nat → Row → Row) (index : Nat) :
    (listing.mapRows f).row? index = (listing.row? index).map (f index) :=
  List.getElem?_mapIdx

@[simp] theorem rowCount_mapTokensOf (listing : Listing) (index : Nat) (f : Token → Token) :
    (listing.mapTokensOf index f).rowCount = listing.rowCount :=
  List.length_modify _ _ _

theorem row?_mapTokensOf (listing : Listing) (index other : Nat) (f : Token → Token) :
    (listing.mapTokensOf index f).row? other =
      (listing.row? other).map fun row => if index = other then row.mapTokens f else row := by
  simp only [row?, mapTokensOf, List.getElem?_modify]
  rfl

theorem token?_mapTokensOf (listing : Listing) (index : Nat) (f : Token → Token) (q : Position) :
    (listing.mapTokensOf index f).token? q =
      (listing.token? q).map fun token => if q.row = index then f token else token := by
  rw [token?, row?_mapTokensOf, token?]
  cases listing.row? q.row with
  | none => rfl
  | some row =>
    by_cases same : q.row = index
    · simp [same, Row.token?, Row.mapTokens]
    · simp [same, Ne.symm same]

@[simp] theorem rowCount_pointTo (listing : Listing) (index : Nat) :
    (listing.pointTo index).rowCount = listing.rowCount :=
  List.length_mapIdx

theorem row?_pointTo (listing : Listing) (index other : Nat) :
    (listing.pointTo index).row? other =
      (listing.row? other).map fun row =>
        if row.isSelected = decide (other = index) then row
        else row.setSelected (decide (other = index)) :=
  List.getElem?_mapIdx

@[simp] theorem selected_pointTo (listing : Listing) (index : Nat) :
    (listing.pointTo index).selected = index := rfl

theorem mem_rows_of_row? {listing : Listing} {index : Nat} {row : Row}
    (found : listing.row? index = some row) : row ∈ listing.rows :=
  List.mem_of_getElem? found

theorem row?_of_mem_rows {listing : Listing} {row : Row} (member : row ∈ listing.rows) :
    ∃ index, listing.row? index = some row :=
  List.mem_iff_getElem?.1 member

theorem ext_row? {listing other : Listing}
    (sameRows : ∀ index, listing.row? index = other.row? index)
    (sameSelected : listing.selected = other.selected) : listing = other := by
  cases listing
  cases other
  cases sameSelected
  exact congrArg (Listing.mk · _) (List.ext_getElem? sameRows)

/-! ### Changing the tokens of a set -/

theorem mapTokensIn_eq (listing : Listing) (tokens : Highlight) (f : Token → Token) :
    listing.mapTokensIn tokens f = listing.mapRows fun index row => row.mapIn tokens index f := rfl

@[simp] theorem token?_mapTokensIn (listing : Listing) (tokens : Highlight) (f : Token → Token)
    (p : Position) :
    (listing.mapTokensIn tokens f).token? p =
      (listing.token? p).map fun token => if p ∈ tokens then f token else token := by
  simp only [token?, mapTokensIn, row?_mapRows]
  cases listing.row? p.row with
  | none => rfl
  | some row => simp [Row.token?]

theorem mapTokensIn_mapTokensIn (listing : Listing) (tokens : Highlight) (f g : Token → Token) :
    (listing.mapTokensIn tokens f).mapTokensIn tokens g = listing.mapTokensIn tokens (g ∘ f) := by
  simp only [mapTokensIn, mapRows, List.mapIdx_mapIdx]
  congr 2
  funext index row
  simp only [Function.comp_apply, List.mapIdx_mapIdx]
  congr 2
  funext column token
  simp only [Function.comp_apply]
  split <;> rfl

end Listing

end CodeRows
