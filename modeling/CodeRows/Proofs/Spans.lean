import CodeRows.Proofs.Kinds
import CodeRows.Proofs.Locality
import Mathlib.Data.List.Sort

/-! # The rows of related tokens

A set of tokens lists its rows by dropping repeated entries, which leaves each row once because the
tokens come row by row (`Highlight.mem_rows`, `Highlight.pairwise_lt_rows`).  The rules that relate
tokens take in code of neighbouring rows without leaving one out, and every row of a session has
code.  So the rows of related tokens run from a first to a last one without a gap
(`Highlight.FillsRows`), and a report that names just the first and the last names no row in vain
(`Session.highlight_report_exact`). -/

set_option autoImplicit false

namespace CodeRows

/-! ## The rows of a set -/

namespace Highlight

theorem mem_dropRepeats {items : List Nat} {n : Nat} : n ∈ dropRepeats items ↔ n ∈ items := by
  fun_induction dropRepeats items with
  | case1 => rfl
  | case2 m => rfl
  | case3 m rest ih => simp [ih]
  | case4 m k rest differs ih => rw [List.mem_cons, ih, ← List.mem_cons]

/-- Where no entry is below the one before it, equal entries are neighbours. -/
theorem pairwise_lt_dropRepeats {items : List Nat} (sorted : items.Pairwise (· ≤ ·)) :
    (dropRepeats items).Pairwise (· < ·) := by
  fun_induction dropRepeats items with
  | case1 => exact List.Pairwise.nil
  | case2 m => exact List.pairwise_singleton _ _
  | case3 m rest ih => exact ih (List.pairwise_cons.1 sorted).2
  | case4 m k rest differs ih =>
    obtain ⟨least, sortedRest⟩ := List.pairwise_cons.1 sorted
    refine List.pairwise_cons.2 ⟨fun n later => ?_, ih sortedRest⟩
    have next : m < k := Nat.lt_of_le_of_ne (least k List.mem_cons_self) differs
    rcases List.mem_cons.1 (mem_dropRepeats.1 later) with same | further
    · rw [same]
      exact next
    · exact Nat.lt_of_lt_of_le next ((List.pairwise_cons.1 sortedRest).1 n further)

variable {tokens : Highlight} {first last : Nat}

theorem mem_rows {index : Nat} : index ∈ tokens.rows ↔ ∃ q ∈ tokens, q.row = index := by
  rw [rows, mem_dropRepeats, List.mem_map]
  rfl

theorem pairwise_lt_rows (tokens : Highlight) : tokens.rows.Pairwise (· < ·) :=
  pairwise_lt_dropRepeats tokens.pairwise_rows

/-- The rows of the tokens are those from `first` to `last`, none of them left out. -/
structure FillsRows (tokens : Highlight) (first last : Nat) : Prop where
  order : first ≤ last
  rows_eq : tokens.rows = List.range' first (last + 1 - first)

theorem FillsRows.of_mem (order : first ≤ last)
    (between : ∀ q ∈ tokens, first ≤ q.row ∧ q.row ≤ last)
    (reached : ∀ index, first ≤ index → index ≤ last → ∃ q ∈ tokens, q.row = index) :
    tokens.FillsRows first last := by
  refine ⟨order, tokens.pairwise_lt_rows.eq_of_mem_iff List.pairwise_lt_range' fun index => ?_⟩
  rw [mem_rows, List.mem_range'_1]
  constructor
  · rintro ⟨q, member, rfl⟩
    have bounds := between q member
    omega
  · intro bounds
    exact reached index (by omega) (by omega)

theorem FillsRows.ofHighlight?_eq (fills : tokens.FillsRows first last) :
    RowSpan.ofHighlight? tokens = some ⟨first, last + 1⟩ := by
  have order := fills.order
  have nonempty : last + 1 - first ≠ 0 := by omega
  have final : first + (last + 1 - first) - 1 = last := by omega
  rw [RowSpan.ofHighlight?, fills.rows_eq, List.head?_range', if_neg nonempty,
    List.getLast?_range', if_neg nonempty, final]

theorem FillsRows.mem_span_iff (fills : tokens.FillsRows first last) {index : Nat} :
    index ∈ (⟨first, last + 1⟩ : RowSpan) ↔ ∃ q ∈ tokens, q.row = index := by
  have order := fills.order
  rw [← mem_rows, fills.rows_eq, List.mem_range'_1, RowSpan.mem_mk]
  omega

end Highlight

/-! ## The rows that a rule takes in -/

namespace Listing

section Rules
variable {listing : Listing} {p : Position}

theorem Filled.fillsRows_codeOfRows (filled : listing.Filled) {first last : Nat}
    (order : first ≤ last) (inside : last < listing.rowCount) :
    (listing.codeOfRows first last).FillsRows first last := by
  refine .of_mem order (fun q member => (mem_codeOfRows.1 member).1) ?_
  intro index above below
  obtain ⟨column, code⟩ := filled index (by omega)
  exact ⟨⟨index, column⟩, mem_codeOfRows.2 ⟨⟨above, below⟩, code⟩, rfl⟩

theorem row_of_mem_relatedInRow {q : Position} (member : q ∈ listing.relatedInRow p) :
    q.row = p.row := by
  obtain ⟨sameRow, -⟩ := listing.callTarget_near p
  rw [sameRow]
  rw [relatedInRow] at member
  split at member
  · exact (mem_columnsOfRow.1 member).1
  · split at member
    · exact (mem_columnsOfRow.1 member).1
    · rw [OrderedSet.mem_ofList, List.mem_singleton] at member
      rw [member]

theorem fillsRows_relatedInRow (listing : Listing) (p : Position) :
    (listing.relatedInRow p).FillsRows p.row p.row := by
  refine .of_mem (Nat.le_refl _) (fun q member => ?_) fun index above below => ?_
  · have sameRow := row_of_mem_relatedInRow member
    omega
  · have target := listing.callTarget_mem_relatedInRow p
    have sameRow := row_of_mem_relatedInRow target
    exact ⟨_, target, by omega⟩

/-- Whichever rule decides, the rows are without a gap, and the row of the token under the pointer
is one of them. -/
theorem Filled.fillsRows_related (filled : listing.Filled)
    (occupied : (listing.token? p).isSome = true) :
    ∃ first last, (first ≤ p.row ∧ p.row ≤ last) ∧ (listing.related p).FillsRows first last := by
  have inside := row_lt_rowCount occupied
  have decided := decides_related occupied
  generalize listing.related p = tokens at decided
  cases decided with
  | row found covers =>
    exact ⟨_, _, ⟨Nat.le_refl _, Nat.le_refl _⟩,
      filled.fillsRows_codeOfRows (Nat.le_refl _) inside⟩
  | opening found plain opens =>
    -- The block may begin one row further down, and then the row of its header is taken in.
    have near := listing.headerTarget_near p
    have insideTarget := row_lt_rowCount (isSome_token?_headerTarget occupied)
    refine ⟨_, _, ?_, filled.fillsRows_codeOfRows ?_ (blockHeight_lt insideTarget)⟩
    · omega
    · omega
  | closing found plain unopened closes =>
    refine ⟨_, _, ?_, filled.fillsRows_codeOfRows ?_ inside⟩
    · omega
    · omega
  | within found plain unopened unclosed =>
    exact ⟨_, _, ⟨Nat.le_refl _, Nat.le_refl _⟩, listing.fillsRows_relatedInRow p⟩

end Rules

end Listing

/-! ## Reports -/

namespace Session

theorem Reported.visits {s : Session} {command : Command} {w : Workspace} {rows : RowSpan}
    (change : s.Reported command w .highlight rows) :
    ∃ p, (command = .point (.enter p) ∨ command = .point (.leave p)) ∧
      (s.listing.token? p).isSome = true ∧
      RowSpan.ofHighlight? (s.listing.related p) = some rows := by
  cases change with
  | enter p occupied spanned => exact ⟨p, Or.inl rfl, occupied, spanned⟩
  | leave p occupied spanned => exact ⟨p, Or.inr rfl, occupied, spanned⟩

/-- The rows of related tokens are listed once each and in order.  In the course of a session those
of the tokens related to a token run from a first to a last one without a gap, past the row of the
token itself, and the span of the set is from the one to the other.  A report of a change of the
highlight names this span, and so names exactly the rows of the tokens that were marked or
unmarked. -/
theorem highlight_report_exact :
    (∀ (listing : Listing) (p : Position),
      (listing.related p).rows.Pairwise (· < ·) ∧
      ∀ index, index ∈ (listing.related p).rows ↔ ∃ q ∈ listing.related p, q.row = index) ∧
    ∀ (settings : Settings) (history : List Command),
      let s := (new settings).run history
      (∀ p, (s.listing.token? p).isSome = true →
        ∃ first last, (first ≤ p.row ∧ p.row ≤ last) ∧
          (s.listing.related p).rows = List.range' first (last + 1 - first) ∧
          RowSpan.ofHighlight? (s.listing.related p) = some ⟨first, last + 1⟩) ∧
      ∀ command name record, Delivery.change name record ∈ (s.perform command).deliveries →
        record.kind = .highlight →
        ∃ p first last, (command = .point (.enter p) ∨ command = .point (.leave p)) ∧
          (first ≤ p.row ∧ p.row ≤ last) ∧
          (s.listing.related p).rows = List.range' first (last + 1 - first) ∧
          record.rows = ⟨first, last + 1⟩ ∧
          ∀ index, index ∈ record.rows ↔ ∃ q ∈ s.listing.related p, q.row = index := by
  refine ⟨fun listing p => ⟨Highlight.pairwise_lt_rows _, fun index => Highlight.mem_rows⟩, ?_⟩
  intro settings history s
  have filled : s.listing.Filled := filled_run settings history
  have single : s.listing.SingleSelection :=
    singleSelection_kept (singleSelection_new settings) history
  constructor
  · intro p occupied
    obtain ⟨first, last, here, fills⟩ := filled.fillsRows_related occupied
    exact ⟨first, last, here, fills.rows_eq, fills.ofHighlight?_eq⟩
  · intro command name record delivered kind
    have change := reported_of_delivered single delivered
    rw [kind] at change
    obtain ⟨p, signal, occupied, spanned⟩ := change.visits
    obtain ⟨first, last, here, fills⟩ := filled.fillsRows_related occupied
    have named : record.rows = ⟨first, last + 1⟩ :=
      Option.some.inj (spanned.symm.trans fills.ofHighlight?_eq)
    refine ⟨p, first, last, signal, here, fills.rows_eq, named, fun index => ?_⟩
    rw [named]
    exact fills.mem_span_iff

/-- The pointer enters the header of a block of three rows. -/
theorem highlight_report_exact_block :
    let s := (new {}).run [.subscribe "host", .insert 0 [⟨"\x7d", some "closeBracket"⟩],
      .insert 0 [⟨"a", none⟩], .insert 0 [⟨"\x7b", some "openBracket"⟩], .insert 0 [⟨"loop", none⟩],
      .insert 0 [⟨"start", none⟩]]
    let step := s.perform (.point (.enter ⟨1, 2⟩))
    (s.listing.token? ⟨1, 2⟩).isSome = true ∧
      (∃ first last, (first ≤ 1 ∧ 1 ≤ last) ∧
        (s.listing.related ⟨1, 2⟩).rows = List.range' first (last + 1 - first) ∧
        RowSpan.ofHighlight? (s.listing.related ⟨1, 2⟩) = some ⟨first, last + 1⟩) ∧
      Delivery.change "host" ⟨.highlight, 5, 6, ⟨1, 5⟩⟩ ∈ step.deliveries ∧
      ∀ index, index ∈ (⟨1, 5⟩ : RowSpan) ↔ ∃ q ∈ s.listing.related ⟨1, 2⟩, q.row = index := by
  intro s step
  have occupied : (s.listing.token? ⟨1, 2⟩).isSome = true := by decide
  have delivered : Delivery.change "host" ⟨.highlight, 5, 6, ⟨1, 5⟩⟩ ∈ step.deliveries := by decide
  obtain ⟨gapless, reports⟩ := highlight_report_exact.2 {} _
  obtain ⟨p, first, last, signal, -, -, -, named⟩ := reports _ _ _ delivered rfl
  have here : p = ⟨1, 2⟩ := by
    rcases signal with enters | leaves
    · cases enters
      rfl
    · cases leaves
  rw [here] at named
  exact ⟨occupied, gapless ⟨1, 2⟩ occupied, delivered, named⟩

end Session

end CodeRows
