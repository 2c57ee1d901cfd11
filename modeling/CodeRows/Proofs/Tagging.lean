import CodeRows.Proofs.Run

/-! # The tags of a listing

Texts, numbers and flags come and go without touching tags.  What the edits do to tags is said here
once, for any property of the tags of a row: rows are put in and taken out whole, and a marking is
put on or taken off some of the tokens.  A property that holds of a new row and tolerates the
marking is kept. -/

set_option autoImplicit false

namespace CodeRows

namespace Row

def tagging (row : Row) : List TagSet := row.tokens.map (·.tags)

@[simp] theorem tagging_setText (row : Row) (column : Nat) (text : String) :
    (row.setText column text).tagging = row.tagging :=
  map_modify_of_keeps_at Token.tags fun _ _ => rfl

@[simp] theorem tagging_setNumber (row : Row) (number : Option Int) :
    (row.setNumber number).tagging = row.tagging :=
  tagging_setText _ _ _

@[simp] theorem tagging_setSelected (row : Row) (selected : Bool) :
    (row.setSelected selected).tagging = row.tagging :=
  tagging_setText _ _ _

section Touch
variable {f : Token → Token} {g : TagSet → TagSet}

theorem tagging_mapTokens (acts : ∀ token, (f token).tags = g token.tags) (row : Row) :
    (row.mapTokens f).tagging = row.tagging.map g := by
  simp [tagging, mapTokens, Function.comp_def, acts]

theorem tagging_mapIn (acts : ∀ token, (f token).tags = g token.tags) (row : Row)
    (tokens : Highlight) (index : Nat) :
    (row.mapIn tokens index f).tagging =
      row.tagging.mapIdx fun column tags =>
        if tokens.contains ⟨index, column⟩ = true then g tags else tags := by
  apply List.ext_getElem?
  intro column
  simp only [tagging, mapIn, List.getElem?_map, List.getElem?_mapIdx, Option.map_map]
  congr 1
  funext token
  simp only [Function.comp_apply]
  split
  · exact acts token
  · rfl

end Touch

end Row

namespace Listing

def tagging (listing : Listing) : List (List TagSet) := listing.rows.map Row.tagging

@[simp] theorem tagging_pointTo (listing : Listing) (index : Nat) :
    (listing.pointTo index).tagging = listing.tagging := by
  refine map_mapIdx_of_keeps Row.tagging ?_ listing.rows
  intro other row
  split
  · rfl
  · exact row.tagging_setSelected _

theorem hasTag_eq (listing : Listing) (q : Position) (tag : Tag) :
    listing.hasTag q tag =
      ((listing.tagging[q.row]?).bind (·[q.column]?)).any (·.contains tag) := by
  rw [hasTag, token?, row?, tagging, List.getElem?_map]
  cases listing.rows[q.row]? with
  | none => rfl
  | some row =>
    simp only [Option.bind_some, Option.map_some, Row.token?, Row.tagging, List.getElem?_map]
    cases row.tokens[q.column]? <;> rfl

theorem isSome_token?_of_hasTag {listing : Listing} {q : Position} {tag : Tag}
    (carried : listing.hasTag q tag = true) : (listing.token? q).isSome = true := by
  obtain ⟨token, found, -⟩ := (Option.any_eq_true _ _).1 carried
  rw [found]
  rfl

/-! ## What holds of the tags of every row -/

def AllLines (P : List TagSet → Prop) (listing : Listing) : Prop :=
  ∀ line ∈ listing.tagging, P line

/-- A property of a line that stays when some tag sets of the line are changed by `g`. -/
def Tolerates (P : List TagSet → Prop) (g : TagSet → TagSet) : Prop :=
  ∀ (line : List TagSet) (touched : Nat → Bool), P line →
    P (line.mapIdx fun column tags => if touched column = true then g tags else tags)

/-- A line that is changed as a whole is one all of whose tag sets are touched. -/
theorem map_of_tolerates {P : List TagSet → Prop} {g : TagSet → TagSet} (tolerates : Tolerates P g)
    (line : List TagSet) (holds : P line) : P (line.map g) := by
  have whole : (line.mapIdx fun _ tags => g tags) = line.map g :=
    List.mapIdx_eq_iff.2 fun _ => List.getElem?_map
  rw [← whole]
  exact tolerates line (fun _ => true) holds

theorem tolerates_forall {Q : TagSet → Prop} {g : TagSet → TagSet}
    (keeps : ∀ tags, Q tags → Q (g tags)) : Tolerates (fun line => ∀ tags ∈ line, Q tags) g := by
  intro line touched all tags member
  obtain ⟨column, bound, rfl⟩ := List.mem_mapIdx.1 member
  have before := all _ (List.getElem_mem bound)
  split
  · exact keeps _ before
  · exact before

theorem tolerates_map {β : Type} {view : TagSet → β} {R : List β → Prop} {g : TagSet → TagSet}
    (keeps : ∀ tags, view (g tags) = view tags) : Tolerates (fun line => R (line.map view)) g := by
  intro line touched holds
  rwa [map_mapIdx_of_keeps view]
  intro column tags
  split
  · exact keeps tags
  · rfl

namespace AllLines

variable {P : List TagSet → Prop} {listing : Listing} {f : Token → Token} {g : TagSet → TagSet}

theorem pointTo (all : listing.AllLines P) (index : Nat) : (listing.pointTo index).AllLines P := by
  rw [AllLines, tagging_pointTo]
  exact all

theorem withRow (all : listing.AllLines P) {index : Nat} (bound : index ≤ listing.rowCount)
    {row : Row} (new : P row.tagging) : (listing.withRow index row).AllLines P := by
  intro line member
  obtain ⟨old, inRows, rfl⟩ := List.mem_map.1 member
  rcases (List.mem_insertIdx bound).1 inRows with rfl | before
  · exact new
  · exact all _ (List.mem_map_of_mem before)

theorem withoutRow (all : listing.AllLines P) (index : Nat) :
    (listing.withoutRow index).AllLines P := by
  intro line member
  obtain ⟨old, inRows, rfl⟩ := List.mem_map.1 member
  exact all _ (List.mem_map_of_mem (List.mem_of_mem_eraseIdx inRows))

theorem mapTokensOf (all : listing.AllLines P) (index : Nat)
    (acts : ∀ token, (f token).tags = g token.tags) (whole : ∀ line, P line → P (line.map g)) :
    (listing.mapTokensOf index f).AllLines P := by
  intro line member
  obtain ⟨row, inRows, rfl⟩ := List.mem_map.1 member
  obtain ⟨other, found⟩ := row?_of_mem_rows inRows
  rw [row?_mapTokensOf] at found
  obtain ⟨old, foundOld, rfl⟩ := Option.map_eq_some_iff.1 found
  have before := all _ (List.mem_map_of_mem (mem_rows_of_row? foundOld))
  split
  · rw [Row.tagging_mapTokens acts]
    exact whole old.tagging before
  · exact before

theorem mapTokensIn (all : listing.AllLines P) (tokens : Highlight)
    (acts : ∀ token, (f token).tags = g token.tags) (tolerates : Tolerates P g) :
    (listing.mapTokensIn tokens f).AllLines P := by
  intro line member
  obtain ⟨row, inRows, rfl⟩ := List.mem_map.1 member
  obtain ⟨index, found⟩ := row?_of_mem_rows inRows
  rw [mapTokensIn_eq, row?_mapRows] at found
  obtain ⟨old, foundOld, rfl⟩ := Option.map_eq_some_iff.1 found
  rw [Row.tagging_mapIn acts]
  exact tolerates old.tagging _ (all _ (List.mem_map_of_mem (mem_rows_of_row? foundOld)))

theorem mark (all : listing.AllLines P) (tokens : Highlight)
    (adding : Tolerates P (·.insert .related)) : (listing.mark tokens).AllLines P :=
  all.mapTokensIn tokens (fun _ => rfl) adding

theorem unmark (all : listing.AllLines P) (tokens : Highlight)
    (removing : Tolerates P (·.erase .related)) : (listing.unmark tokens).AllLines P :=
  all.mapTokensIn tokens (fun _ => rfl) removing

end AllLines

end Listing

namespace Workspace

theorem tagging_renumber (w : Workspace) : (renumber w).listing.tagging = w.listing.tagging := by
  refine map_mapIdx_of_keeps Row.tagging ?_ w.listing.rows
  intro index row
  exact row.tagging_setNumber _

section AllLines
variable {P : List TagSet → Prop} {w w' : Workspace} {index : Nat}

theorem allLines_renumber_pointTo {listing : Listing} (all : listing.AllLines P) (place : Nat) :
    (renumber (w.setListing (listing.pointTo place))).listing.AllLines P := by
  rw [Listing.AllLines, tagging_renumber]
  exact all.pointTo place

theorem allLines_insertRow {snippets : List Snippet} (done : w.insertRow index snippets = some w')
    (all : w.listing.AllLines P)
    (new : P (Row.ofSnippets snippets w.settings.highlighting).tagging) :
    w'.listing.AllLines P := by
  obtain ⟨⟨fits, -⟩, rfl⟩ := insertRow_eq_some_iff.1 done
  exact allLines_renumber_pointTo (all.withRow fits new) _

theorem allLines_deleteRow (done : w.deleteRow index = some w') (all : w.listing.AllLines P) :
    w'.listing.AllLines P := by
  obtain ⟨-, rfl⟩ := deleteRow_eq_some_iff.1 done
  exact allLines_renumber_pointTo (all.withoutRow _) _

theorem allLines_selectRow (done : w.selectRow index = some w') (all : w.listing.AllLines P) :
    w'.listing.AllLines P := by
  obtain ⟨-, rfl⟩ := selectRow_eq_some_iff.1 done
  exact all.pointTo index

theorem allLines_emphasizeRow (done : w.emphasizeRow index = some w')
    (all : w.listing.AllLines P)
    (removing : ∀ line, P line → P (line.map (·.erase .selected)))
    (adding : ∀ line, P line → P (line.map (·.insert .selected))) : w'.listing.AllLines P := by
  obtain ⟨-, rfl⟩ := emphasizeRow_eq_some_iff.1 done
  have plain : (w.listing.mapTokensOf w.listing.selected (·.removeTag .selected)).AllLines P :=
    all.mapTokensOf _ (fun _ => rfl) removing
  exact (plain.pointTo index).mapTokensOf index (fun _ => rfl) adding

end AllLines

end Workspace

end CodeRows
