import CodeRows.Proofs.Lookup
import CodeRows.Proofs.Walk

/-! # Delimiters match in both directions

A block is found from its opening row by walking down, and from its closing row by walking up; a
group is found from its parentheses by walking right and left.  The two walks are written apart,
with the row or token before the block added at different times.  They agree: each ends at the
other's start, and then both give the same set of tokens. -/

set_option autoImplicit false

namespace CodeRows

open Nesting

/-! ## Walks over a list -/

/-- The index at which the walk down from an item first comes to depth zero. -/
def downFrom? {α : Type} (down : α → Nesting.Step) (items : List α) (first : Nat) : Option Nat :=
  (surface? 1 ((items.drop (first + 1)).map down)).map (first + ·)

/-- The index at which the walk up from an item first comes to depth zero. -/
def upFrom? {α : Type} (up : α → Nesting.Step) (items : List α) (last : Nat) : Option Nat :=
  (surface? 1 ((items.take last).reverse.map up)).map (last - ·)

section Scan
variable {α : Type} {down up : α → Nesting.Step} {items : List α} {first last : Nat}
  {opener closer : α}

theorem drop_eq_inner_append (order : first < last) (closes : items[last]? = some closer) :
    items.drop (first + 1) =
      (items.drop (first + 1)).take (last - first - 1) ++ closer :: items.drop (last + 1) := by
  obtain ⟨bound, rfl⟩ := List.getElem?_eq_some_iff.1 closes
  have position : first + 1 + (last - first - 1) = last := by omega
  have rest : (items.drop (first + 1)).drop (last - first - 1) =
      items[last] :: items.drop (last + 1) := by
    rw [List.drop_drop, position]
    exact List.drop_eq_getElem_cons bound
  rw [← rest, List.take_append_drop]

theorem take_eq_append_inner (order : first < last) (opens : items[first]? = some opener) :
    items.take last =
      items.take first ++ opener :: (items.drop (first + 1)).take (last - first - 1) := by
  obtain ⟨bound, rfl⟩ := List.getElem?_eq_some_iff.1 opens
  have size : last - first = (last - first - 1) + 1 := by omega
  have rest : (items.take last).drop first =
      items[first] :: (items.drop (first + 1)).take (last - first - 1) := by
    rw [List.drop_take, List.drop_eq_getElem_cons bound, size, List.take_succ_cons,
      Nat.add_sub_cancel]
  have start : (items.take last).take first = items.take first := by
    rw [List.take_take, Nat.min_eq_left (Nat.le_of_lt order)]
  rw [← rest, ← start, List.take_append_drop]

theorem surface?_down_iff_up (mirrored : ∀ item ∈ items, up item = (down item).flip)
    (order : first < last) (opens : items[first]? = some opener) (opening : down opener = .deepen)
    (closes : items[last]? = some closer) (closing : down closer = .rise) :
    surface? 1 ((items.drop (first + 1)).map down) = some (last - first) ↔
      surface? 1 ((items.take last).reverse.map up) = some (last - first) := by
  have inside := (List.getElem?_eq_some_iff.1 closes).1
  have downward := drop_eq_inner_append order closes
  have upward := take_eq_append_inner order opens
  generalize innerEq : (items.drop (first + 1)).take (last - first - 1) = inner at downward upward
  have size : last - first = inner.length + 1 := by
    rw [← innerEq, List.length_take, List.length_drop]
    omega
  have reached : up opener = .rise := by
    rw [mirrored opener (List.mem_of_getElem? opens), opening]
    rfl
  have mirroredInner : inner.reverse.map up = (inner.map down).reverse.map Step.flip := by
    rw [← List.map_reverse, List.map_map]
    refine List.map_congr_left fun item member => mirrored item ?_
    rw [← innerEq] at member
    exact List.mem_of_mem_drop (List.mem_of_mem_take (List.mem_reverse.1 member))
  rw [downward, upward, size]
  simp only [List.map_append, List.map_cons, List.reverse_append, List.reverse_cons,
    List.append_assoc, List.singleton_append, closing, reached, mirroredInner]
  have walks := surface?_mirror (inner.map down) ((items.take first).reverse.map up)
    ((items.drop (last + 1)).map down)
  rwa [List.length_map] at walks

theorem downFrom?_eq_some_iff (order : first < last) :
    downFrom? down items first = some last ↔
      surface? 1 ((items.drop (first + 1)).map down) = some (last - first) := by
  rw [downFrom?, Option.map_eq_some_iff]
  constructor
  · rintro ⟨n, surfaced, total⟩
    rw [surfaced, ← total, Nat.add_sub_cancel_left]
  · intro surfaced
    exact ⟨last - first, surfaced, by omega⟩

theorem upFrom?_eq_some_iff (order : first < last) :
    upFrom? up items last = some first ↔
      surface? 1 ((items.take last).reverse.map up) = some (last - first) := by
  rw [upFrom?, Option.map_eq_some_iff]
  constructor
  · rintro ⟨n, surfaced, total⟩
    -- The walk cannot take more steps than there are items above.
    have bound := (surface?_eq_some_iff.1 surfaced).1
    rw [List.length_map, List.length_reverse, List.length_take] at bound
    have count : n = last - first := by omega
    rw [surfaced, count]
  · intro surfaced
    exact ⟨last - first, surfaced, by omega⟩

theorem reach_of_downFrom? (order : first < last) (ends : downFrom? down items first = some last) :
    reach 1 ((items.drop (first + 1)).map down) = last - first := by
  rw [reach_eq, (downFrom?_eq_some_iff order).1 ends, Option.getD_some]

theorem reach_of_upFrom? (order : first < last) (starts : upFrom? up items last = some first) :
    reach 1 ((items.take last).reverse.map up) = last - first := by
  rw [reach_eq, (upFrom?_eq_some_iff order).1 starts, Option.getD_some]

/-- From an opening item the walk down surfaces at a closing one exactly when the walk up from
there surfaces at the opening one. -/
theorem downFrom?_iff_upFrom? (mirrored : ∀ item ∈ items, up item = (down item).flip)
    (order : first < last) (opens : items[first]? = some opener) (opening : down opener = .deepen)
    (closes : items[last]? = some closer) (closing : down closer = .rise) :
    downFrom? down items first = some last ↔ upFrom? up items last = some first := by
  rw [downFrom?_eq_some_iff order, upFrom?_eq_some_iff order]
  exact surface?_down_iff_up mirrored order opens opening closes closing

end Scan

namespace Listing

/-! ## Blocks -/

def markerHas (listing : Listing) (index : Nat) (tag : Tag) : Bool :=
  (listing.marker? index).any (listing.hasTag · tag)

theorem markerHas_eq {listing : Listing} {index : Nat} {row : Row}
    (found : listing.row? index = some row) (tag : Tag) :
    listing.markerHas index tag = row.marker?.any (·.hasTag tag) := by
  simp only [markerHas, marker?, found, Row.marker?, List.getLast?_eq_getElem?]
  cases tokens : row.tokens with
  | nil => rfl
  | cons token rest =>
    simp only [List.isEmpty_cons, Bool.false_eq_true, if_false, Option.any_some, hasTag, token?,
      found, Option.bind_some, Row.token?, tokens]

theorem step_eq_of_row? {listing : Listing} {index : Nat} {row : Row}
    (found : listing.row? index = some row) (deeper shallower : Tag) :
    row.step deeper shallower =
      Step.of (listing.markerHas index deeper) (listing.markerHas index shallower) := by
  rw [markerHas_eq found, markerHas_eq found, Row.step]
  cases row.marker? <;> rfl

def blockEnd? (listing : Listing) (row : Nat) : Option Nat :=
  downFrom? (·.step .openBracket .closeBracket) listing.rows row

def blockStart? (listing : Listing) (row : Nat) : Option Nat :=
  upFrom? (·.step .closeBracket .openBracket) listing.rows row

/-- No marker opens and closes a block at once. -/
def BracketsApart (listing : Listing) : Prop :=
  ∀ index, ¬(listing.markerHas index .openBracket = true ∧
    listing.markerHas index .closeBracket = true)

theorem exists_row_of_markerHas {listing : Listing} {index : Nat} {tag : Tag}
    (carries : listing.markerHas index tag = true) : ∃ row, listing.row? index = some row := by
  cases found : listing.row? index with
  | none => simp [markerHas, marker?, found] at carries
  | some row => exact ⟨row, rfl⟩

theorem blockEnd?_iff_blockStart? {listing : Listing} (apart : listing.BracketsApart)
    {first last : Nat} (order : first < last)
    (opens : listing.markerHas first .openBracket = true)
    (closes : listing.markerHas last .closeBracket = true) :
    listing.blockEnd? first = some last ↔ listing.blockStart? last = some first := by
  obtain ⟨opener, foundOpener⟩ := exists_row_of_markerHas opens
  obtain ⟨closer, foundCloser⟩ := exists_row_of_markerHas closes
  have notOpening : listing.markerHas last .openBracket = false :=
    Bool.eq_false_iff.2 fun both => apart last ⟨both, closes⟩
  refine downFrom?_iff_upFrom? ?_ order foundOpener ?_ foundCloser ?_
  · intro row member
    obtain ⟨index, found⟩ := row?_of_mem_rows member
    rw [step_eq_of_row? found, step_eq_of_row? found, Step.flip_of (apart index)]
  · rw [step_eq_of_row? foundOpener, opens]
    rfl
  · rw [step_eq_of_row? foundCloser, notOpening, closes]
    rfl

theorem blockBelow_eq_blockAbove {listing : Listing} {first last : Nat} (order : first < last)
    (ends : listing.blockEnd? first = some last) (starts : listing.blockStart? last = some first) :
    listing.blockBelow first = listing.blockAbove last := by
  have height : listing.blockHeight first = last - first := reach_of_downFrom? order ends
  have depth : listing.blockDepth last = last - first := reach_of_upFrom? order starts
  have bottom : first + (last - first) = last := by omega
  have top : last - (last - first) = first := by omega
  rw [blockBelow, blockAbove, height, depth, bottom, top]

/-! ## Groups -/

def groupEnd? (listing : Listing) (p : Position) : Option Nat :=
  downFrom? (·.step .openParen .closeParen) (listing.tokensOfRow p.row) p.column

def groupStart? (listing : Listing) (p : Position) : Option Nat :=
  upFrom? (·.step .closeParen .openParen) (listing.tokensOfRow p.row) p.column

/-- No token of the row opens and closes a group at once. -/
def ParensApart (listing : Listing) (row : Nat) : Prop :=
  ∀ column, ¬(listing.hasTag ⟨row, column⟩ .openParen = true ∧
    listing.hasTag ⟨row, column⟩ .closeParen = true)

theorem getElem?_tokensOfRow (listing : Listing) (row column : Nat) :
    (listing.tokensOfRow row)[column]? = listing.token? ⟨row, column⟩ := by
  rw [tokensOfRow, token?]
  cases listing.row? row <;> rfl

theorem groupEnd?_iff_groupStart? {listing : Listing} {row : Nat}
    (apart : listing.ParensApart row) {first last : Nat} (order : first < last)
    (opens : listing.hasTag ⟨row, first⟩ .openParen = true)
    (closes : listing.hasTag ⟨row, last⟩ .closeParen = true) :
    listing.groupEnd? ⟨row, first⟩ = some last ↔ listing.groupStart? ⟨row, last⟩ = some first := by
  have apartToken : ∀ token ∈ listing.tokensOfRow row,
      ¬(token.hasTag .openParen = true ∧ token.hasTag .closeParen = true) := by
    intro token member both
    obtain ⟨column, found⟩ := List.mem_iff_getElem?.1 member
    rw [getElem?_tokensOfRow] at found
    apply apart column
    rw [hasTag, hasTag, found]
    exact both
  obtain ⟨opener, foundOpener, opening⟩ := (Option.any_eq_true _ _).1 opens
  obtain ⟨closer, foundCloser, closing⟩ := (Option.any_eq_true _ _).1 closes
  rw [← getElem?_tokensOfRow] at foundOpener foundCloser
  have notOpening : closer.hasTag .openParen = false :=
    Bool.eq_false_iff.2 fun both => apartToken closer (List.mem_of_getElem? foundCloser)
      ⟨both, closing⟩
  refine downFrom?_iff_upFrom? ?_ order foundOpener ?_ foundCloser ?_
  · intro token member
    rw [Token.step, Token.step, Step.flip_of (apartToken token member)]
  · rw [Token.step, opening]
    rfl
  · rw [Token.step, notOpening, closing]
    rfl

theorem groupRight_eq_groupLeft {listing : Listing} {row first last : Nat} (order : first < last)
    (ends : listing.groupEnd? ⟨row, first⟩ = some last)
    (starts : listing.groupStart? ⟨row, last⟩ = some first) :
    listing.groupRight ⟨row, first⟩ = listing.groupLeft ⟨row, last⟩ := by
  have right : listing.groupWidthRight ⟨row, first⟩ = last - first := reach_of_downFrom? order ends
  have left : listing.groupWidthLeft ⟨row, last⟩ = last - first := reach_of_upFrom? order starts
  have stop : first + (last - first) = last := by omega
  have start : last - (last - first) = first := by omega
  simp only [groupRight, groupLeft, right, left, stop, start]

/-! ## Both together -/

/-- An opening and a closing delimiter are partners in one direction exactly when they are in the
other, and then stand for the same tokens: bracket rows of a listing in which no marker is both,
and parentheses of a row in which no token is both. -/
theorem delimiters_match_both_ways (listing : Listing) :
    (listing.BracketsApart → ∀ first last, first < last →
      listing.markerHas first .openBracket = true → listing.markerHas last .closeBracket = true →
        (listing.blockEnd? first = some last ↔ listing.blockStart? last = some first) ∧
        (listing.blockEnd? first = some last →
          listing.blockBelow first = listing.blockAbove last)) ∧
    (∀ row, listing.ParensApart row → ∀ first last, first < last →
      listing.hasTag ⟨row, first⟩ .openParen = true →
      listing.hasTag ⟨row, last⟩ .closeParen = true →
        (listing.groupEnd? ⟨row, first⟩ = some last ↔
          listing.groupStart? ⟨row, last⟩ = some first) ∧
        (listing.groupEnd? ⟨row, first⟩ = some last →
          listing.groupRight ⟨row, first⟩ = listing.groupLeft ⟨row, last⟩)) := by
  constructor
  · intro apart first last order opens closes
    have partners := blockEnd?_iff_blockStart? apart order opens closes
    exact ⟨partners, fun ends => blockBelow_eq_blockAbove order ends (partners.1 ends)⟩
  · intro row apart first last order opens closes
    have partners := groupEnd?_iff_groupStart? apart order opens closes
    exact ⟨partners, fun ends => groupRight_eq_groupLeft order ends (partners.1 ends)⟩

def nested : Listing where
  rows :=
    let word (text : String) : Token := ⟨text, OrderedSet.ofList [.code]⟩
    let delimiter (text : String) (tag : Tag) : Token := ⟨text, OrderedSet.ofList [.code, tag]⟩
    [⟨none, [word "while"], false⟩,
      ⟨none, [delimiter "\x7b" .openBracket], false⟩,
      ⟨none, [word "f", delimiter "(" .openParen, delimiter "(" .openParen,
        delimiter ")" .closeParen, delimiter ")" .closeParen], false⟩,
      ⟨none, [delimiter "\x7b" .openBracket], false⟩,
      ⟨none, [delimiter "\x7d" .closeBracket], false⟩,
      ⟨none, [delimiter "\x7d" .closeBracket], false⟩]
  selected := 0

theorem bracketsApart_nested : nested.BracketsApart
  | 0 | 1 | 2 | 3 | 4 | 5 => by decide
  | _ + 6 => fun both => Bool.noConfusion both.1

theorem parensApart_nested : nested.ParensApart 2
  | 0 | 1 | 2 | 3 | 4 => by decide
  | _ + 5 => fun both => Bool.noConfusion both.1

theorem delimiters_match_both_ways_nested :
    (nested.blockEnd? 1 = some 5 ∧ nested.blockStart? 5 = some 1 ∧
      nested.blockBelow 1 = nested.blockAbove 5) ∧
    (nested.groupEnd? ⟨2, 1⟩ = some 4 ∧ nested.groupStart? ⟨2, 4⟩ = some 1 ∧
      nested.groupRight ⟨2, 1⟩ = nested.groupLeft ⟨2, 4⟩) := by
  have ends : nested.blockEnd? 1 = some 5 := by decide
  have closes : nested.groupEnd? ⟨2, 1⟩ = some 4 := by decide
  obtain ⟨blocks, groups⟩ := delimiters_match_both_ways nested
  obtain ⟨rows, sameRows⟩ :=
    blocks bracketsApart_nested 1 5 (by decide) (by decide) (by decide)
  obtain ⟨columns, sameColumns⟩ :=
    groups 2 parensApart_nested 1 4 (by decide) (by decide) (by decide)
  exact ⟨⟨ends, rows.1 ends, sameRows ends⟩, closes, columns.1 closes, sameColumns closes⟩

end Listing

end CodeRows
