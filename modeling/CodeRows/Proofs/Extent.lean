import CodeRows.Proofs.Matching
import CodeRows.Proofs.Related
import Mathlib.Algebra.BigOperators.Intervals
import Mathlib.Order.Interval.Finset.Nat
import Mathlib.Order.Nat

/-! # How far blocks and groups reach

A walk keeps count of its depth and stops at the surface.  Told without a walk: a row weighs one,
minus one or nothing, and a block ends at the first row down to which the weights cancel the
bracket that opens it; if they never do, it ends at the last row.  Upwards, and within a row, the
same is said with the weights exchanged and with columns in place of rows.

The two agree because a step changes the depth by at most one.  A sum that has not been zero so far
is still positive, so the first zero of the sums is where the walk surfaces
(`Nesting.surface?_eq_some_iff_isLeast`). -/

set_option autoImplicit false

namespace CodeRows

open Nesting

/-! ## Sums of weights -/

/-- One, minus one or nothing, where the first test has precedence. -/
def weighed (more less : Bool) : Int := if more then 1 else if less then -1 else 0

/-- The indices after `start` at which the weights from there on have made up for a one. -/
def closings (weight : Nat → Int) (start stop : Nat) : Set Nat :=
  {last | start < last ∧ last < stop ∧ 1 + ∑ i ∈ Finset.Ioc start last, weight i = 0}

/-- The indices before `start` from which on the weights make up for a one at `start`. -/
def openings (weight : Nat → Int) (start : Nat) : Set Nat :=
  {first | first < start ∧ 1 + ∑ i ∈ Finset.Ico first start, weight i = 0}

def IsLeastOr (indices : Set Nat) (otherwise index : Nat) : Prop :=
  IsLeast indices index ∨ indices = ∅ ∧ index = otherwise

def IsGreatestOr (indices : Set Nat) (otherwise index : Nat) : Prop :=
  IsGreatest indices index ∨ indices = ∅ ∧ index = otherwise

namespace Nesting

theorem weight_of (deepens rises : Bool) :
    (Step.of deepens rises).weight = weighed deepens rises := by
  cases deepens <;> cases rises <;> rfl

theorem balance_take_succ {steps : List Step} {n : Nat} {step : Step}
    (next : steps[n]? = some step) :
    balance (steps.take (n + 1)) = balance (steps.take n) + step.weight := by
  rw [List.take_add_one, next, Option.toList_some, balance_append, balance_cons, balance_nil]
  omega

theorem balance_take_le_succ (steps : List Step) (n : Nat) :
    balance (steps.take n) ≤ balance (steps.take (n + 1)) + 1 := by
  cases next : steps[n]? with
  | none =>
    have ended := List.getElem?_eq_none_iff.1 next
    rw [List.take_of_length_le ended, List.take_of_length_le (Nat.le_succ_of_le ended)]
    omega
  | some step =>
    rw [balance_take_succ next]
    cases step <;> simp only [Step.weight] <;> omega

/-! ## Where a walk surfaces, by sums -/

def surfacings (depth : Nat) (steps : List Step) : Set Nat :=
  {n | n ≤ steps.length ∧ depth + balance (steps.take n) = 0}

theorem balance_pos_of_nonzero {depth : Nat} {steps : List Step} {n : Nat}
    (nonzero : ∀ k < n, depth + balance (steps.take k) ≠ 0) :
    ∀ k < n, 0 < depth + balance (steps.take k) := by
  intro k
  induction k with
  | zero =>
    intro bound
    have start := nonzero 0 bound
    simp only [List.take_zero, balance_nil] at start ⊢
    omega
  | succ k ih =>
    intro bound
    have before := ih (by omega)
    have here := nonzero (k + 1) bound
    have step := balance_take_le_succ steps k
    omega

theorem surface?_eq_some_iff_isLeast {depth : Nat} {steps : List Step} {n : Nat} :
    surface? depth steps = some n ↔ IsLeast (surfacings depth steps) n := by
  rw [surface?_eq_some_iff]
  constructor
  · intro ⟨bound, surfaced, above⟩
    refine ⟨⟨bound, surfaced⟩, ?_⟩
    intro k ⟨_, zero⟩
    apply Nat.le_of_not_lt
    intro earlier
    have positive := above k earlier
    omega
  · intro ⟨⟨bound, surfaced⟩, least⟩
    refine ⟨bound, surfaced, balance_pos_of_nonzero ?_⟩
    intro k earlier zero
    have later := least ⟨by omega, zero⟩
    omega

theorem surfacings_eq_empty {depth : Nat} {steps : List Step}
    (under : surface? depth steps = none) : surfacings depth steps = ∅ := by
  apply Set.eq_empty_of_forall_notMem
  intro n member
  have some_zero : ∃ n, n ≤ steps.length ∧ depth + balance (steps.take n) = 0 := ⟨n, member⟩
  rw [surface?_eq_some_iff_isLeast.2 (Nat.isLeast_find some_zero)] at under
  cases under

theorem isLeastOr_reach (depth : Nat) (steps : List Step) :
    IsLeastOr (surfacings depth steps) steps.length (reach depth steps) := by
  rw [reach_eq]
  cases surfaced : surface? depth steps with
  | none => exact Or.inr ⟨surfacings_eq_empty surfaced, rfl⟩
  | some n => exact Or.inl (surface?_eq_some_iff_isLeast.1 surfaced)

end Nesting

/-! ## Walks over a list, by sums -/

section Sums
variable {weight : Nat → Int} {steps : List Nesting.Step} {start stop : Nat}

theorem isLeastOr_closings (size : start + steps.length + 1 = stop)
    (sums : ∀ n ≤ steps.length,
      balance (steps.take n) = ∑ i ∈ Finset.Ioc start (start + n), weight i) :
    IsLeastOr (closings weight start stop) (stop - 1) (start + reach 1 steps) := by
  have closing : ∀ n, start + n ∈ closings weight start stop ↔ n ∈ surfacings 1 steps := by
    intro n
    constructor
    · intro ⟨_, below, zero⟩
      have bound : n ≤ steps.length := by omega
      exact ⟨bound, by rw [sums n bound]; exact zero⟩
    · intro ⟨bound, zero⟩
      rw [sums n bound] at zero
      refine ⟨?_, by omega, zero⟩
      cases n with
      | zero => simp at zero
      | succ n => omega
  have shifted : ∀ last ∈ closings weight start stop, ∃ n ∈ surfacings 1 steps, last = start + n := by
    intro last member
    obtain ⟨n, rfl⟩ := Nat.exists_eq_add_of_lt member.1
    exact ⟨n + 1, (closing (n + 1)).1 member, rfl⟩
  rcases isLeastOr_reach 1 steps with ⟨surfaced, least⟩ | ⟨never, atEnd⟩
  · left
    refine ⟨(closing _).2 surfaced, ?_⟩
    intro last member
    obtain ⟨n, surfacing, rfl⟩ := shifted last member
    exact Nat.add_le_add_left (least surfacing) start
  · right
    refine ⟨Set.eq_empty_of_forall_notMem ?_, by omega⟩
    intro last member
    obtain ⟨n, surfacing, -⟩ := shifted last member
    rw [never] at surfacing
    exact surfacing

theorem isGreatestOr_openings (size : steps.length = start)
    (sums : ∀ n ≤ steps.length,
      balance (steps.take n) = ∑ i ∈ Finset.Ico (start - n) start, weight i) :
    IsGreatestOr (openings weight start) 0 (start - reach 1 steps) := by
  have opening : ∀ n ≤ start, start - n ∈ openings weight start ↔ n ∈ surfacings 1 steps := by
    intro n bound
    rw [← size] at bound
    constructor
    · intro ⟨_, zero⟩
      exact ⟨bound, by rw [sums n bound]; exact zero⟩
    · intro ⟨_, zero⟩
      rw [sums n bound] at zero
      refine ⟨?_, zero⟩
      cases n with
      | zero => simp at zero
      | succ n => omega
  have shifted : ∀ first ∈ openings weight start,
      start - first ∈ surfacings 1 steps := by
    intro first member
    apply (opening (start - first) (Nat.sub_le _ _)).1
    rwa [Nat.sub_sub_self (Nat.le_of_lt member.1)]
  rcases isLeastOr_reach 1 steps with ⟨surfaced, least⟩ | ⟨never, atEnd⟩
  · left
    refine ⟨(opening _ (size ▸ surfaced.1)).2 surfaced, ?_⟩
    intro first member
    have count := least (shifted first member)
    have above := member.1
    omega
  · right
    refine ⟨Set.eq_empty_of_forall_notMem ?_, by omega⟩
    intro first member
    have surfacing := shifted first member
    rw [never] at surfacing
    exact surfacing

end Sums

section Items
variable {α : Type} {step : α → Nesting.Step} {weight : Nat → Int} {items : List α}

theorem balance_take_drop
    (weighs : ∀ i item, items[i]? = some item → weight i = (step item).weight)
    {start n : Nat} (bound : start + n < items.length) :
    balance (((items.drop (start + 1)).map step).take n) =
      ∑ i ∈ Finset.Ioc start (start + n), weight i := by
  induction n with
  | zero => simp
  | succ n ih =>
    obtain ⟨item, found⟩ : ∃ item, items[start + (n + 1)]? = some item :=
      ⟨_, List.getElem?_eq_getElem bound⟩
    have place : start + 1 + n = start + (n + 1) := by omega
    have next : ((items.drop (start + 1)).map step)[n]? = some (step item) := by
      rw [List.getElem?_map, List.getElem?_drop, place, found, Option.map_some]
    rw [balance_take_succ next, ih (by omega), ← weighs _ _ found, ← Nat.add_assoc,
      Finset.sum_Ioc_succ_top (by omega)]

theorem balance_take_reverse
    (weighs : ∀ i item, items[i]? = some item → weight i = (step item).weight)
    {start n : Nat} (inside : start ≤ items.length) (bound : n ≤ start) :
    balance (((items.take start).reverse.map step).take n) =
      ∑ i ∈ Finset.Ico (start - n) start, weight i := by
  induction n with
  | zero => simp
  | succ n ih =>
    have place : start - 1 - n = start - (n + 1) := by omega
    have below : start - (n + 1) < start := by omega
    obtain ⟨item, found⟩ : ∃ item, items[start - (n + 1)]? = some item :=
      ⟨_, List.getElem?_eq_getElem (by omega)⟩
    have next : ((items.take start).reverse.map step)[n]? = some (step item) := by
      rw [List.getElem?_map, getElem?_reverse_take inside bound, place, found, Option.map_some]
    have rest : start - (n + 1) + 1 = start - n := by omega
    rw [balance_take_succ next, ih (by omega), ← weighs _ _ found,
      Finset.sum_eq_sum_Ico_succ_bot below, rest]
    omega

theorem isLeastOr_reach_down
    (weighs : ∀ i item, items[i]? = some item → weight i = (step item).weight) {start : Nat}
    (inside : start < items.length) :
    IsLeastOr (closings weight start items.length) (items.length - 1)
      (start + reach 1 ((items.drop (start + 1)).map step)) := by
  have size : start + ((items.drop (start + 1)).map step).length + 1 = items.length := by
    rw [List.length_map, List.length_drop]
    omega
  apply isLeastOr_closings size
  intro n bound
  exact balance_take_drop weighs (by omega)

theorem isGreatestOr_reach_up
    (weighs : ∀ i item, items[i]? = some item → weight i = (step item).weight) {start : Nat}
    (inside : start < items.length) :
    IsGreatestOr (openings weight start) 0
      (start - reach 1 ((items.take start).reverse.map step)) := by
  have size : ((items.take start).reverse.map step).length = start := by
    rw [List.length_map, List.length_reverse, List.length_take]
    omega
  apply isGreatestOr_openings size
  intro n bound
  exact balance_take_reverse weighs (Nat.le_of_lt inside) (by omega)

end Items

namespace Listing

/-! ## Blocks -/

def rowWeight (listing : Listing) (deeper shallower : Tag) (row : Nat) : Int :=
  weighed (listing.markerHas row deeper) (listing.markerHas row shallower)

theorem rowWeight_eq {listing : Listing} {index : Nat} {row : Row}
    (found : listing.row? index = some row) (deeper shallower : Tag) :
    listing.rowWeight deeper shallower index = (row.step deeper shallower).weight := by
  rw [step_eq_of_row? found, weight_of]
  rfl

/-- A block holds the code of the rows from the one before its opening bracket to the one where the
weights first cancel that bracket, or to the end of the listing on its side. -/
theorem block_ends_at_first_balance (listing : Listing) {row : Nat}
    (inside : row < listing.rowCount) :
    (∃ last,
      IsLeastOr (closings (listing.rowWeight .openBracket .closeBracket) row listing.rowCount)
        listing.lastIndex last ∧
      ∀ q, q ∈ listing.blockBelow row ↔
        listing.hasTag q .code = true ∧ row - 1 ≤ q.row ∧ q.row ≤ last) ∧
    ∃ first,
      IsGreatestOr (openings (listing.rowWeight .closeBracket .openBracket) row) 0 first ∧
      ∀ q, q ∈ listing.blockAbove row ↔
        listing.hasTag q .code = true ∧ first - 1 ≤ q.row ∧ q.row ≤ row := by
  refine ⟨⟨row + listing.blockHeight row, ?_, ?_⟩, row - listing.blockDepth row, ?_, ?_⟩
  · exact isLeastOr_reach_down (fun index line found => rowWeight_eq found _ _) inside
  · intro q
    rw [blockBelow, mem_codeOfRows]
    exact and_comm
  · exact isGreatestOr_reach_up (fun index line found => rowWeight_eq found _ _) inside
  · intro q
    rw [blockAbove, mem_codeOfRows]
    exact and_comm

/-- From the opening bracket in the second row the weights run `0, 1, -1, -1`, and cancel it in the
sixth. -/
theorem block_ends_at_first_balance_nested :
    1 < nested.rowCount ∧ 5 ∈ closings (nested.rowWeight .openBracket .closeBracket) 1 6 ∧
      ∃ last, IsLeast (closings (nested.rowWeight .openBracket .closeBracket) 1 6) last ∧
        ∀ q, q ∈ nested.blockBelow 1 ↔
          nested.hasTag q .code = true ∧ 0 ≤ q.row ∧ q.row ≤ last := by
  have inside : 1 < nested.rowCount := by decide
  have closes : 5 ∈ closings (nested.rowWeight .openBracket .closeBracket) 1 6 :=
    ⟨by decide, by decide, by decide⟩
  obtain ⟨⟨last, ends, members⟩, -⟩ := block_ends_at_first_balance nested inside
  rcases ends with least | ⟨never, -⟩
  · exact ⟨inside, closes, last, least, members⟩
  · exact absurd (never ▸ closes) (Set.notMem_empty 5)

/-! ## Groups -/

def tokenWeight (listing : Listing) (deeper shallower : Tag) (row column : Nat) : Int :=
  weighed (listing.hasTag ⟨row, column⟩ deeper) (listing.hasTag ⟨row, column⟩ shallower)

theorem tokenWeight_eq {listing : Listing} {row column : Nat} {token : Token}
    (found : (listing.tokensOfRow row)[column]? = some token) (deeper shallower : Tag) :
    listing.tokenWeight deeper shallower row column = (token.step deeper shallower).weight := by
  rw [getElem?_tokensOfRow] at found
  rw [tokenWeight, hasTag, hasTag, found, Token.step, weight_of]
  rfl

/-- A group holds the columns from the one before its opening token to the one where the weights
first cancel that token, or to the end of the row on its side.  Other rows are neither part of it
nor looked at. -/
theorem group_ends_at_first_balance (listing : Listing) {p : Position}
    (occupied : (listing.token? p).isSome = true) :
    (∃ last,
      IsLeastOr (closings (listing.tokenWeight .openParen .closeParen p.row) p.column
        (listing.tokensOfRow p.row).length) ((listing.tokensOfRow p.row).length - 1) last ∧
      ∀ q, q ∈ listing.groupRight p ↔
        q.row = p.row ∧ p.column - 1 ≤ q.column ∧ q.column ≤ last) ∧
    (∃ first,
      IsGreatestOr (openings (listing.tokenWeight .closeParen .openParen p.row) p.column) 0
        first ∧
      ∀ q, q ∈ listing.groupLeft p ↔
        q.row = p.row ∧ first - 1 ≤ q.column ∧ q.column ≤ p.column) ∧
    ∀ other : Listing, other.row? p.row = listing.row? p.row →
      other.groupRight p = listing.groupRight p ∧ other.groupLeft p = listing.groupLeft p := by
  have inside := isSome_token?_iff.1 occupied
  refine ⟨⟨p.column + listing.groupWidthRight p, ?_, ?_⟩,
    ⟨p.column - listing.groupWidthLeft p, ?_, ?_⟩, ?_⟩
  · exact isLeastOr_reach_down (fun column token found => tokenWeight_eq found _ _) inside
  · intro q
    rw [groupRight, mem_columnsOfRow]
  · exact isGreatestOr_reach_up (fun column token found => tokenWeight_eq found _ _) inside
  · intro q
    rw [groupLeft, mem_columnsOfRow]
  · intro other same
    have tokens : other.tokensOfRow p.row = listing.tokensOfRow p.row := by
      rw [tokensOfRow, tokensOfRow, same]
    simp only [groupRight, groupLeft, groupWidthRight, groupWidthLeft, tokens]
    exact ⟨trivial, trivial⟩

/-- Back from the last token of the row, the weights run `1, -1, -1`. -/
theorem group_ends_at_first_balance_nested :
    (nested.token? ⟨2, 4⟩).isSome = true ∧
      1 ∈ openings (nested.tokenWeight .closeParen .openParen 2) 4 ∧
      ∃ first, IsGreatest (openings (nested.tokenWeight .closeParen .openParen 2) 4) first ∧
        ∀ q, q ∈ nested.groupLeft ⟨2, 4⟩ ↔ q.row = 2 ∧ first - 1 ≤ q.column ∧ q.column ≤ 4 := by
  have occupied : (nested.token? ⟨2, 4⟩).isSome = true := by decide
  have opens : 1 ∈ openings (nested.tokenWeight .closeParen .openParen 2) 4 :=
    ⟨by decide, by decide⟩
  obtain ⟨-, ⟨first, starts, members⟩, -⟩ := group_ends_at_first_balance nested occupied
  rcases starts with greatest | ⟨never, -⟩
  · exact ⟨occupied, opens, first, greatest, members⟩
  · exact absurd (never ▸ opens) (Set.notMem_empty 1)

end Listing

end CodeRows
