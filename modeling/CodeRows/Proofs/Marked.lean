import CodeRows.Proofs.Painted
import CodeRows.Proofs.Report
import CodeRows.Proofs.Unlit

/-! # Marking by any set

A set of tokens may have been found in another listing, or before rows came and went, so that some
of its positions are out of date.  Marking and unmarking pass over these and act on all others, and
on nothing else (`Listing.marking_follows_set`).  Changing the tokens of one set and then those of
another comes to changing those of both at once (`Listing.mapTokensIn_mapTokensIn_union`); hence
the order of the sets is of no matter, nor is that of the tokens of a set when they are changed one
after the other (`Listing.foldl_modifyToken`). -/

set_option autoImplicit false

namespace CodeRows

/-! ## Document order -/

namespace Listing

theorem ascending_taggedInRow (listing : Listing) (index : Nat) (tag : Tag) :
    Ascending (listing.taggedInRow index tag) := by
  rw [taggedInRow]
  cases listing.row? index with
  | none => exact List.Pairwise.nil
  | some row =>
    have columns : row.tokens.zipIdx.Pairwise fun first later => first.2 < later.2 := by
      rw [← List.pairwise_map (f := Prod.snd) (R := (· < ·)), List.zipIdx_map_snd]
      exact List.pairwise_lt_range'
    refine List.pairwise_filterMap.2 (columns.imp ?_)
    intro first later before p isFirst q isLater
    cases (Option.ite_none_right_eq_some.1 isFirst).2
    cases (Option.ite_none_right_eq_some.1 isLater).2
    exact Position.compare_eq_lt_iff.2 (Or.inr ⟨rfl, before⟩)

theorem ascending_tagged (listing : Listing) (tag : Tag) : Ascending (listing.tagged tag) := by
  refine List.pairwise_flatMap.2 ⟨fun index _ => listing.ascending_taggedInRow index tag, ?_⟩
  refine List.pairwise_lt_range.imp ?_
  intro upper lower above p inUpper q inLower
  rw [(mem_taggedInRow.1 inUpper).1.symm, (mem_taggedInRow.1 inLower).1.symm] at above
  exact Position.compare_eq_lt_iff.2 (Or.inl above)

end Listing

/-! ## One token after the other -/

theorem modify_eq_mapIdx {α : Type} (items : List α) (index : Nat) (f : α → α) :
    items.modify index f = items.mapIdx fun i item => if i = index then f item else item := by
  refine (List.mapIdx_eq_iff.2 fun i => ?_).symm
  rw [List.getElem?_modify]
  simp only [eq_comm (a := index)]
  rfl

theorem Token.addTag_addTag (token : Token) (tag : Tag) :
    (token.addTag tag).addTag tag = token.addTag tag :=
  addTag_eq_self_iff.2 (mem_tags_addTag.2 (Or.inl rfl))

namespace Listing

def modifyToken (listing : Listing) (q : Position) (f : Token → Token) : Listing :=
  { listing with
    rows := listing.rows.modify q.row fun row =>
      { row with tokens := row.tokens.modify q.column f } }

theorem modifyToken_eq_mapTokensIn (listing : Listing) (q : Position) (f : Token → Token) :
    listing.modifyToken q f = listing.mapTokensIn (OrderedSet.ofList [q]) f := by
  obtain ⟨line, place⟩ := q
  simp only [modifyToken, modify_eq_mapIdx, mapTokensIn, mapRows]
  congr 2
  funext index row
  by_cases here : index = line
  · subst here
    simp
  · have untouched : row.tokens.mapIdx (fun _ token => token) = row.tokens :=
      List.mapIdx_eq_iff.2 fun _ => Option.map_id'.symm
    simp [here, untouched]

section Sets
variable {f : Token → Token}

theorem mapTokensIn_mapTokensIn_union (settles : ∀ token, f (f token) = f token)
    (listing : Listing) (tokens others : Highlight) :
    (listing.mapTokensIn tokens f).mapTokensIn others f =
      listing.mapTokensIn (tokens.insertMany others.elems) f := by
  simp only [mapTokensIn, mapRows, List.mapIdx_mapIdx]
  congr 2
  funext index row
  simp only [Function.comp_apply, List.mapIdx_mapIdx]
  congr 2
  funext column token
  simp only [Function.comp_apply, OrderedSet.contains_iff, OrderedSet.mem_insertMany,
    ← OrderedSet.mem_def]
  by_cases first : ⟨index, column⟩ ∈ tokens <;> by_cases later : ⟨index, column⟩ ∈ others <;>
    simp [first, later, settles]

theorem mapTokensIn_comm (settles : ∀ token, f (f token) = f token) (listing : Listing)
    (tokens others : Highlight) :
    (listing.mapTokensIn tokens f).mapTokensIn others f =
      (listing.mapTokensIn others f).mapTokensIn tokens f := by
  have sameUnion : tokens.insertMany others.elems = others.insertMany tokens.elems := by
    refine OrderedSet.ext_mem fun q => ?_
    rw [OrderedSet.mem_insertMany, OrderedSet.mem_insertMany]
    exact or_comm
  rw [mapTokensIn_mapTokensIn_union settles, sameUnion, mapTokensIn_mapTokensIn_union settles]

/-- Tokens that are changed one after the other, in any order and some of them repeatedly, end up as
when they are changed at once. -/
theorem foldl_modifyToken (settles : ∀ token, f (f token) = f token) (listing : Listing)
    (order : List Position) :
    order.foldl (fun changed q => changed.modifyToken q f) listing =
      listing.mapTokensIn (OrderedSet.ofList order) f := by
  induction order generalizing listing with
  | nil =>
    refine (mapTokensIn_eq_self fun q member => ?_).symm
    exact absurd member (OrderedSet.not_mem_empty q)
  | cons q order ih =>
    have union : (OrderedSet.ofList [q]).insertMany (OrderedSet.ofList order).elems =
        OrderedSet.ofList (q :: order) := by
      refine OrderedSet.ext_mem fun p => ?_
      rw [OrderedSet.mem_insertMany, ← OrderedSet.mem_def]
      simp only [OrderedSet.mem_ofList, List.mem_cons, List.not_mem_nil, or_false]
      exact or_comm
    rw [List.foldl_cons, ih, modifyToken_eq_mapTokensIn, mapTokensIn_mapTokensIn_union settles,
      union]

end Sets

/-! ## Marking and unmarking -/

/-- Whatever listing a set of tokens comes from, marking by it adds those of its tokens that are
there to the marked ones, and unmarking by it removes them; the marked tokens are found in document
order.  Without the marking the listing is the same as before: its rows, their numbers and flags,
the selection, and all texts and other tags.  Two sets can be marked in either order, or unmarked;
and a set is marked and unmarked token by token. -/
theorem marking_follows_set (listing : Listing) (tokens others : Highlight) :
    (Ascending (listing.tagged .related) ∧ Ascending ((listing.mark tokens).tagged .related) ∧
      Ascending ((listing.unmark tokens).tagged .related)) ∧
    ((∀ q, q ∈ (listing.mark tokens).tagged .related ↔
        q ∈ listing.tagged .related ∨ q ∈ tokens ∧ (listing.token? q).isSome = true) ∧
      ∀ q, q ∈ (listing.unmark tokens).tagged .related ↔
        q ∈ listing.tagged .related ∧ q ∉ tokens) ∧
    ((listing.mark tokens).unlit = listing.unlit ∧ (listing.unmark tokens).unlit = listing.unlit) ∧
    ((listing.mark tokens).mark others = (listing.mark others).mark tokens ∧
      (listing.unmark tokens).unmark others = (listing.unmark others).unmark tokens) ∧
    (tokens.elems.foldl (fun marked q => marked.modifyToken q (·.addTag .related)) listing =
        listing.mark tokens ∧
      tokens.elems.foldl (fun marked q => marked.modifyToken q (·.removeTag .related)) listing =
        listing.unmark tokens) := by
  have adding : ∀ token : Token, (token.addTag .related).addTag .related = token.addTag .related :=
    fun token => token.addTag_addTag .related
  have removing : ∀ token : Token,
      (token.removeTag .related).removeTag .related = token.removeTag .related :=
    fun token => token.removeTag_removeTag .related
  refine ⟨⟨ascending_tagged _ _, ascending_tagged _ _, ascending_tagged _ _⟩, ⟨?_, ?_⟩, ⟨?_, ?_⟩,
    ⟨mapTokensIn_comm adding _ _ _, mapTokensIn_comm removing _ _ _⟩, ?_, ?_⟩
  · intro q
    rw [mem_tagged, mem_tagged, hasTag_mark_iff]
    simp only [true_and]
  · intro q
    rw [mem_tagged, mem_tagged, hasTag_unmark_iff]
    simp only [true_and]
  · exact mapTokens_mapTokensIn (fun token => token.removeTag_addTag .related) listing tokens
  · exact mapTokens_mapTokensIn removing listing tokens
  · rw [foldl_modifyToken adding, OrderedSet.ofList_elems, mark]
  · rw [foldl_modifyToken removing, OrderedSet.ofList_elems, unmark]

-- Of these positions only the last is one of a single empty row.
example : (Listing.blank.mark (OrderedSet.ofList [⟨3, 0⟩, ⟨0, 7⟩, ⟨0, 1⟩])).tagged .related =
    [⟨0, 1⟩] := by
  decide

end Listing

end CodeRows
