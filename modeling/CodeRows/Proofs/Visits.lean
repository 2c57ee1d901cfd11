import CodeRows.Proofs.Report

/-! # Visits of the pointer while the rows stay

As long as no row is inserted or deleted, nothing that happens to a listing matters to relating:
selections rewrite arrows and emphasis, visits rewrite markings, and the bare listing is the same
throughout.  Every set that a visit marks or unmarks can therefore be computed in advance, on the
listing as it was at the beginning, and the marked tokens are the result of adding and removing
these sets in the order of the visits (`Session.marked_run_eq_foldl`). -/

set_option autoImplicit false

namespace CodeRows

/-! ## Selections are of no matter to relating -/

theorem Token.hasTag_addTag_of_ne {tag other : Tag} (differs : other ≠ tag) (token : Token) :
    (token.addTag tag).hasTag other = token.hasTag other := by
  rw [Bool.eq_iff_iff, hasTag_iff, hasTag_iff, mem_tags_addTag]
  exact or_iff_right differs

theorem Token.hasTag_removeTag_of_ne {tag other : Tag} (differs : other ≠ tag) (token : Token) :
    (token.removeTag tag).hasTag other = token.hasTag other := by
  rw [Bool.eq_iff_iff, hasTag_iff, hasTag_iff, mem_tags_removeTag]
  exact and_iff_left differs

theorem Row.bare_setSelected {row : Row} (shown : row.InStep) (selected : Bool) :
    (row.setSelected selected).bare = row.bare := by
  refine congrArg (Row.mk none · false) (map_modify_of_keeps_at Token.bare ?_)
  intro token found
  refine Token.bare_eq_of ?_ fun tag _ => Iff.rfl
  -- Neither an arrow nor an empty slot is a parenthesis.
  have never : ∀ flag : Bool, (if flag then arrow else "") ≠ "(" := by decide
  have before : some token.text = some (if row.isSelected then arrow else "") := by
    rw [← shown, text?, token?]
    exact (congrArg (Option.map (·.text)) found).symm
  rw [Option.some.inj before]
  exact iff_of_false (never selected) (never row.isSelected)

namespace Listing

theorem bare_pointTo {listing : Listing} (shown : ∀ row ∈ listing.rows, row.InStep) (index : Nat) :
    (listing.pointTo index).bare = listing.bare := by
  refine congrArg (Listing.mk · 0) (map_mapIdx_of_keeps_at Row.bare ?_)
  intro other row found
  split
  · rfl
  · exact Row.bare_setSelected (shown row (List.mem_of_getElem? found)) _

theorem bare_mapTokensOf (listing : Listing) (index : Nat) {f : Token → Token}
    (keeps : ∀ token, (f token).bare = token.bare) :
    (listing.mapTokensOf index f).bare = listing.bare := by
  refine congrArg (Listing.mk · 0) (map_modify_of_keeps_at Row.bare ?_)
  intro row found
  refine congrArg (Row.mk none · false) ?_
  rw [Row.mapTokens, List.map_map]
  exact List.map_congr_left fun token _ => keeps token

theorem hasTag_pointTo (listing : Listing) (index : Nat) (q : Position) (tag : Tag) :
    (listing.pointTo index).hasTag q tag = listing.hasTag q tag := by
  rw [hasTag_eq, hasTag_eq, tagging_pointTo]

theorem hasTag_mapTokensOf (listing : Listing) (index : Nat) {f : Token → Token} {tag : Tag}
    (keeps : ∀ token, (f token).hasTag tag = token.hasTag tag) (q : Position) :
    (listing.mapTokensOf index f).hasTag q tag = listing.hasTag q tag := by
  rw [hasTag, token?_mapTokensOf, hasTag]
  cases listing.token? q with
  | none => rfl
  | some token =>
    rw [Option.map_some, Option.any_some, Option.any_some]
    split
    · exact keeps token
    · rfl

end Listing

/-! ## The marked tokens -/

theorem Highlight.mem_filter_not_contains {marks tokens : Highlight} {q : Position} :
    q ∈ marks.filter (!tokens.contains ·) ↔ q ∈ marks ∧ q ∉ tokens := by
  rw [OrderedSet.mem_filter, Bool.not_eq_true', Bool.eq_false_iff, ne_eq, OrderedSet.contains_iff]

namespace Listing

def marked (listing : Listing) : Highlight := OrderedSet.ofList (listing.tagged .related)

@[simp] theorem mem_marked {listing : Listing} {q : Position} :
    q ∈ listing.marked ↔ listing.hasTag q .related = true := by
  rw [marked, OrderedSet.mem_ofList, mem_tagged]

theorem marked_congr {listing other : Listing}
    (same : ∀ q, other.hasTag q .related = listing.hasTag q .related) :
    other.marked = listing.marked := by
  refine OrderedSet.ext_mem fun q => ?_
  rw [mem_marked, mem_marked, same]

theorem marked_mark {listing : Listing} {tokens : Highlight}
    (occupied : ∀ q ∈ tokens, (listing.token? q).isSome = true) :
    (listing.mark tokens).marked = listing.marked.insertMany tokens.elems := by
  refine OrderedSet.ext_mem fun q => ?_
  rw [mem_marked, hasTag_mark_iff, OrderedSet.mem_insertMany, mem_marked, ← OrderedSet.mem_def]
  constructor
  · rintro (before | ⟨-, member, -⟩)
    · exact Or.inr before
    · exact Or.inl member
  · rintro (member | before)
    · exact Or.inr ⟨rfl, member, occupied q member⟩
    · exact Or.inl before

theorem marked_unmark (listing : Listing) (tokens : Highlight) :
    (listing.unmark tokens).marked = listing.marked.filter (!tokens.contains ·) := by
  refine OrderedSet.ext_mem fun q => ?_
  rw [mem_marked, hasTag_unmark_iff, Highlight.mem_filter_not_contains, mem_marked]
  exact and_congr_right fun _ => not_congr (and_iff_right rfl)

end Listing

/-! ## One command -/

namespace Command

def keepsRows : Command → Bool
  | insert _ _ | insertJson _ _ | delete _ => false
  | select _ | emphasize _ | point _ | subscribe _ | listen _ => true

/-- Neither a change of rows nor the pointer entering or leaving. -/
def keepsMarks : Command → Bool
  | point (.click _) => true
  | point (.enter _) | point (.leave _) => false
  | command => command.keepsRows

theorem keepsRows_of_keepsMarks {command : Command} (keeps : command.keepsMarks = true) :
    command.keepsRows = true := by
  cases command with
  | point signal => rfl
  | _ => exact keeps

end Command

namespace Listing

/-- The marked tokens after a command, where what is related is looked up in `origin`. -/
def marksAfter (origin : Listing) (marks : Highlight) : Command → Highlight
  | .point (.enter p) => marks.insertMany (origin.related p).elems
  | .point (.leave p) => marks.filter (!(origin.related p).contains ·)
  | _ => marks

theorem marksAfter_of_keepsMarks (origin : Listing) (marks : Highlight) {command : Command}
    (keeps : command.keepsMarks = true) : origin.marksAfter marks command = marks := by
  cases command with
  | point signal =>
    cases signal with
    | click p => rfl
    | enter p => cases keeps
    | leave p => cases keeps
  | _ => rfl

theorem foldl_marksAfter_of_keepsMarks (origin : Listing) (marks : Highlight)
    {commands : List Command} (keep : ∀ command ∈ commands, command.keepsMarks = true) :
    commands.foldl origin.marksAfter marks = marks := by
  induction commands with
  | nil => rfl
  | cons command commands ih =>
    obtain ⟨first, rest⟩ := List.forall_mem_cons.1 keep
    rw [List.foldl_cons, origin.marksAfter_of_keepsMarks marks first, ih rest]

theorem marksAfter_of_bare_eq {listing origin : Listing} (same : listing.bare = origin.bare) :
    listing.marksAfter = origin.marksAfter := by
  have related : listing.related = origin.related := by
    funext p
    rw [← related_bare, same, related_bare]
  funext marks command
  unfold marksAfter
  rw [related]

/-- Where there is no token nothing is related, so there is nothing to change. -/
theorem mapTokensIn_related_of_vacant {listing : Listing} {p : Position}
    (vacant : ¬(listing.token? p).isSome = true) (f : Token → Token) :
    listing.mapTokensIn (listing.related p) f = listing := by
  have alone : listing.related p = ∅ := by
    rw [related, Option.not_isSome_iff_eq_none.1 vacant]
  rw [alone]
  exact mapTokensIn_eq_self fun q member => absurd member (OrderedSet.not_mem_empty q)

theorem point_enter_fst (listing : Listing) (p : Position) :
    (listing.point (.enter p)).1 = listing.mark (listing.related p) := by
  rw [point]
  split
  · rfl
  · rename_i vacant
    exact (mapTokensIn_related_of_vacant vacant _).symm

theorem point_leave_fst (listing : Listing) (p : Position) :
    (listing.point (.leave p)).1 = listing.unmark (listing.related p) := by
  rw [point]
  split
  · rfl
  · rename_i vacant
    exact (mapTokensIn_related_of_vacant vacant _).symm

theorem point_click_fst (listing : Listing) (p : Position) :
    (listing.point (.click p)).1 = listing := by
  rw [point]
  split <;> rfl

structure Follows (listing : Listing) (command : Command) (next : Listing) : Prop where
  bare : next.bare = listing.bare
  marked : next.marked = listing.marksAfter listing.marked command

theorem follows_point (listing : Listing) (signal : Pointer.Signal) :
    listing.Follows (.point signal) (listing.point signal).1 := by
  cases signal with
  | enter p =>
    rw [point_enter_fst]
    exact ⟨bare_mapTokensIn _ _ (Token.bare_addTag rfl),
      marked_mark fun q => isSome_token?_of_mem_related⟩
  | leave p =>
    rw [point_leave_fst]
    exact ⟨bare_mapTokensIn _ _ (Token.bare_removeTag rfl), marked_unmark _ _⟩
  | click p =>
    rw [point_click_fst]
    exact ⟨rfl, rfl⟩

theorem SingleSelection.follows_select {listing : Listing} (single : listing.SingleSelection)
    (index : Nat) : listing.Follows (.select index) (listing.pointTo index) where
  bare := bare_pointTo (fun _ member => single.inStep member) index
  marked := marked_congr fun q => listing.hasTag_pointTo index q .related

theorem SingleSelection.follows_emphasize {listing : Listing} (single : listing.SingleSelection)
    (index : Nat) :
    listing.Follows (.emphasize index)
      (((listing.mapTokensOf listing.selected (·.removeTag .selected)).pointTo index).mapTokensOf
        index (·.addTag .selected)) where
  bare := by
    have plain : (listing.mapTokensOf listing.selected (·.removeTag .selected)).SingleSelection :=
      single.mapTokensOf _ fun token => Token.text_removeTag token _
    rw [bare_mapTokensOf _ _ (Token.bare_addTag rfl),
      bare_pointTo (fun _ member => plain.inStep member),
      bare_mapTokensOf _ _ (Token.bare_removeTag rfl)]
  marked := by
    have differs : Tag.related ≠ Tag.selected := by decide
    refine marked_congr fun q => ?_
    rw [hasTag_mapTokensOf _ _ (Token.hasTag_addTag_of_ne differs), hasTag_pointTo,
      hasTag_mapTokensOf _ _ (Token.hasTag_removeTag_of_ne differs)]

end Listing

namespace Session

theorem perform_follows {s : Session} (single : s.listing.SingleSelection) {command : Command}
    (keeps : command.keepsRows = true) :
    s.listing.Follows command (s.perform command).session.listing := by
  cases command with
  | insert index snippets => cases keeps
  | insertJson index text => cases keeps
  | delete index => cases keeps
  | select index =>
    rw [perform, selectRow, listing_commit]
    cases done : s.workspace.selectRow index with
    | none => exact ⟨rfl, rfl⟩
    | some w =>
      obtain ⟨-, rfl⟩ := Workspace.selectRow_eq_some_iff.1 done
      exact single.follows_select index
  | emphasize index =>
    rw [perform, emphasizeRow, listing_commit]
    cases done : s.workspace.emphasizeRow index with
    | none => exact ⟨rfl, rfl⟩
    | some w =>
      obtain ⟨-, rfl⟩ := Workspace.emphasizeRow_eq_some_iff.1 done
      exact single.follows_emphasize index
  | point signal =>
    rw [perform, listing_point]
    exact s.listing.follows_point signal
  | subscribe name => exact ⟨rfl, rfl⟩
  | listen name => exact ⟨rfl, rfl⟩

/-! ## Runs -/

theorem marked_run {origin : Listing} {s : Session} (single : s.listing.SingleSelection)
    (same : s.listing.bare = origin.bare) {commands : List Command}
    (keep : ∀ command ∈ commands, command.keepsRows = true) :
    (s.run commands).listing.marked = commands.foldl origin.marksAfter s.listing.marked := by
  induction commands generalizing s with
  | nil => rfl
  | cons command commands ih =>
    obtain ⟨first, rest⟩ := List.forall_mem_cons.1 keep
    have step := perform_follows single first
    rw [run, List.foldl_cons, ih (singleSelection_perform single command)
      (step.bare.trans same) rest, step.marked, Listing.marksAfter_of_bare_eq same]

/-- As long as rows are neither inserted nor deleted, the marked tokens are those that were marked
at first, with the tokens added and removed, visit by visit, that were related in the listing at
first.  Where nothing was marked, nothing is after the pointer has entered and left a token,
whatever was selected or clicked in between. -/
theorem marked_run_eq_foldl (settings : Settings) (history : List Command) :
    let s := (new settings).run history
    (∀ commands : List Command, (∀ command ∈ commands, command.keepsRows = true) →
      (s.run commands).listing.marked =
        commands.foldl s.listing.marksAfter s.listing.marked) ∧
    ∀ (p : Position) (between : List Command), s.listing.marked = ∅ →
      (∀ command ∈ between, command.keepsMarks = true) →
      (s.run (.point (.enter p) :: between ++ [.point (.leave p)])).listing.marked = ∅ := by
  intro s
  have single : s.listing.SingleSelection :=
    singleSelection_kept (singleSelection_new settings) history
  refine ⟨fun commands keep => marked_run single rfl keep, ?_⟩
  intro p between unmarked keep
  have keepRows : ∀ command ∈ Command.point (.enter p) :: between ++ [.point (.leave p)],
      command.keepsRows = true := by
    intro command member
    rw [List.cons_append, List.mem_cons, List.mem_append, List.mem_singleton] at member
    rcases member with rfl | inside | rfl
    · rfl
    · exact Command.keepsRows_of_keepsMarks (keep command inside)
    · rfl
  rw [marked_run single rfl keepRows, unmarked, List.cons_append, List.foldl_cons,
    List.foldl_append, s.listing.foldl_marksAfter_of_keepsMarks _ keep]
  refine OrderedSet.ext_mem fun q => iff_of_false ?_ (OrderedSet.not_mem_empty q)
  intro left
  obtain ⟨entered, outside⟩ := Highlight.mem_filter_not_contains.1 left
  rcases OrderedSet.mem_insertMany.1 entered with inside | before
  · exact outside inside
  · exact OrderedSet.not_mem_empty q before

/-- The first row is marked from its gutter and then, from the name in front of it, loses its
parenthesis, while selection and emphasis move about and the second row is marked in between. -/
theorem marked_run_eq_foldl_overlapping :
    let s := (new {}).run [.insert 0 [⟨"f", none⟩, ⟨"(", none⟩]]
    (s.run [.point (.enter ⟨0, 0⟩), .emphasize 0, .point (.enter ⟨1, 1⟩), .select 1,
        .point (.leave ⟨0, 2⟩), .point (.enter ⟨5, 5⟩)]).listing.marked =
      OrderedSet.ofList [⟨0, 0⟩, ⟨0, 1⟩, ⟨0, 2⟩, ⟨1, 0⟩, ⟨1, 1⟩] ∧
    (s.run [.point (.enter ⟨0, 0⟩), .emphasize 0, .point (.click ⟨0, 3⟩), .select 1,
        .point (.leave ⟨0, 0⟩)]).listing.marked = ∅ := by
  intro s
  obtain ⟨followed, restored⟩ := marked_run_eq_foldl {} [.insert 0 [⟨"f", none⟩, ⟨"(", none⟩]]
  constructor
  · rw [followed _ (by decide)]
    decide
  · exact restored ⟨0, 0⟩ [.emphasize 0, .point (.click ⟨0, 3⟩), .select 1] (by decide) (by decide)

end Session

end CodeRows
