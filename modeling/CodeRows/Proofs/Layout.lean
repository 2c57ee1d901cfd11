import CodeRows.Proofs.ClassNames
import CodeRows.Proofs.Sheet
import CodeRows.Proofs.Tagging

/-! # Where tags come from

Apart from the two markings, the tags of a row are those it was built with: two gutter slots, and a
token for each snippet with the tags that its class list names.  Hence the layout of a row
(`Row.LaidOut`), whatever class lists a host hands in.  The markings are the program's own.  A
listing without one of them stays so until a command puts it there, and only the pointer entering a
token and an emphasis that is applied do (`Session.free_perform`). -/

set_option autoImplicit false

namespace CodeRows

/-! ## Rows as they were built -/

namespace TagSet

/-- The tags without the markings that the program puts on tokens. -/
def own (tags : TagSet) : TagSet := tags.filter fun tag => !tag.isMarking

theorem mem_own {tags : TagSet} {tag : Tag} :
    tag ∈ tags.own ↔ tag ∈ tags ∧ tag.isMarking = false := by
  simp [own]

theorem own_insert {tag : Tag} (marking : tag.isMarking = true) (tags : TagSet) :
    own (tags.insert tag) = own tags := by
  refine OrderedSet.ext_mem fun other => ?_
  rw [mem_own, mem_own, OrderedSet.mem_insert]
  refine and_congr_left fun kept => or_iff_right ?_
  rintro rfl
  rw [marking] at kept
  cases kept

theorem own_erase {tag : Tag} (marking : tag.isMarking = true) (tags : TagSet) :
    own (tags.erase tag) = own tags := by
  refine OrderedSet.ext_mem fun other => ?_
  rw [mem_own, mem_own, OrderedSet.mem_erase]
  refine and_congr_left fun kept => and_iff_left ?_
  rintro rfl
  rw [marking] at kept
  cases kept

def slot : TagSet := OrderedSet.ofList [.code, .lineNumber]

theorem mem_slot {tag : Tag} : tag ∈ slot ↔ tag = .code ∨ tag = .lineNumber := by
  simp [slot]

end TagSet

theorem Row.tagging_ofSnippets (snippets : List Snippet) (highlighting : Bool) :
    (Row.ofSnippets snippets highlighting).tagging =
      TagSet.slot :: TagSet.slot ::
        snippets.map fun snippet => (snippet.token highlighting).tags := by
  simp only [Row.tagging, Row.ofSnippets, List.map_append, List.map_map]
  rfl

theorem Snippet.own_tags_token (snippet : Snippet) (highlighting : Bool) :
    (snippet.token highlighting).tags.own = (snippet.token highlighting).tags :=
  congrArg Token.tags (snippet.unmarked_token highlighting)

def FromSnippets (line : List TagSet) : Prop :=
  ∃ snippets highlighting,
    line.map TagSet.own = (Row.ofSnippets snippets highlighting).tagging

theorem fromSnippets_ofSnippets (snippets : List Snippet) (highlighting : Bool) :
    FromSnippets (Row.ofSnippets snippets highlighting).tagging := by
  have slot : TagSet.slot.own = TagSet.slot := by decide
  refine ⟨snippets, highlighting, ?_⟩
  simp [Row.tagging_ofSnippets, slot, Snippet.own_tags_token]

theorem fromSnippets_tolerates {g : TagSet → TagSet} (keeps : ∀ tags, (g tags).own = tags.own) :
    Listing.Tolerates FromSnippets g :=
  Listing.tolerates_map (R := fun line => ∃ snippets highlighting,
    line = (Row.ofSnippets snippets highlighting).tagging) keeps

theorem Workspace.Edit.fromSnippets {w w' : Workspace} (edit : w.Edit w')
    (all : w.listing.AllLines FromSnippets) : w'.listing.AllLines FromSnippets := by
  cases edit with
  | insert index snippets done => exact allLines_insertRow done all (fromSnippets_ofSnippets _ _)
  | delete index done => exact allLines_deleteRow done all
  | select index done => exact allLines_selectRow done all
  | emphasize index done =>
    exact allLines_emphasizeRow done all
      (Listing.map_of_tolerates (fromSnippets_tolerates (TagSet.own_erase rfl)))
      (Listing.map_of_tolerates (fromSnippets_tolerates (TagSet.own_insert rfl)))
  | mark p => exact all.mark _ (fromSnippets_tolerates (TagSet.own_insert rfl))
  | unmark p => exact all.unmark _ (fromSnippets_tolerates (TagSet.own_erase rfl))

theorem Session.fromSnippets_run (settings : Settings) (commands : List Command) :
    ((Session.new settings).run commands).listing.AllLines FromSnippets := by
  refine workspace_run (P := fun w => w.listing.AllLines FromSnippets)
    (fun _ _ all edit => edit.fromSnippets all) commands (Session.new settings) ?_
  rw [Session.new, Workspace.new, Listing.AllLines, Workspace.tagging_renumber]
  intro line member
  rw [List.mem_singleton.1 member, Row.tagging_setSelected]
  exact fromSnippets_ofSnippets [] true

/-! ## The layout of a row -/

/-- Two gutter slots with their tags, then content; all of it code, and every host class with a name
that a class list can give. -/
structure Row.LaidOut (row : Row) : Prop where
  slots : 2 ≤ row.tokens.length
  slot_tags : ∀ column < Position.contentColumn, ∀ token, row.token? column = some token →
    ∀ tag : Tag, tag.isMarking = false → (tag ∈ token.tags ↔ tag = .code ∨ tag = .lineNumber)
  code : ∀ token ∈ row.tokens, Tag.code ∈ token.tags
  hostClass : ∀ token ∈ row.tokens, ∀ name, Tag.custom name ∈ token.tags → Tag.HostClass name
  empty_marker : row.content = [] → ∀ token, row.marker? = some token →
    Tag.openBracket ∉ token.tags ∧ Tag.closeBracket ∉ token.tags

theorem Snippet.hostClass_of_mem_tags {snippet : Snippet} {highlighting : Bool} {name : String}
    (member : Tag.custom name ∈ (snippet.token highlighting).tags) : Tag.HostClass name := by
  rw [mem_tags_token] at member
  rcases member with (code | ⟨parsed, -⟩) | ⟨-, plain⟩
  · cases code
  · cases kind : snippet.kind with
    | none => simp [kind] at parsed
    | some classes =>
      rw [kind] at parsed
      exact TagSet.hostClass_of_mem_parse parsed
  · cases plain

section LaidOut
variable {row : Row}

theorem FromSnippets.own_of_mem (built : FromSnippets row.tagging) {token : Token}
    (member : token ∈ row.tokens) :
    token.tags.own = TagSet.slot ∨
      ∃ (snippet : Snippet) (highlighting : Bool),
        token.tags.own = (snippet.token highlighting).tags := by
  obtain ⟨snippets, highlighting, same⟩ := built
  have listed : token.tags.own ∈ row.tagging.map TagSet.own :=
    List.mem_map_of_mem (List.mem_map_of_mem member)
  rw [same, Row.tagging_ofSnippets, List.mem_cons, List.mem_cons, List.mem_map] at listed
  rcases listed with slot | slot | ⟨snippet, -, content⟩
  · exact Or.inl slot
  · exact Or.inl slot
  · exact Or.inr ⟨snippet, highlighting, content.symm⟩

theorem FromSnippets.own_of_slot (built : FromSnippets row.tagging) {column : Nat}
    (gutter : column < Position.contentColumn) {token : Token}
    (found : row.token? column = some token) : token.tags.own = TagSet.slot := by
  obtain ⟨snippets, highlighting, same⟩ := built
  have listed : (row.tagging.map TagSet.own)[column]? = some token.tags.own := by
    rw [Row.token?] at found
    simp [Row.tagging, found]
  rw [same, Row.tagging_ofSnippets] at listed
  cases column with
  | zero => simpa using listed.symm
  | succ column =>
    cases column with
    | zero => simpa using listed.symm
    | succ column => exact absurd gutter (by simp [Position.contentColumn])

theorem FromSnippets.two_le (built : FromSnippets row.tagging) : 2 ≤ row.tokens.length := by
  obtain ⟨snippets, highlighting, same⟩ := built
  rw [Row.tagging_ofSnippets] at same
  have lengths := congrArg List.length same
  simp only [Row.tagging, List.length_map, List.length_cons] at lengths
  omega

theorem FromSnippets.laidOut (built : FromSnippets row.tagging) : row.LaidOut where
  slots := built.two_le
  slot_tags := by
    intro column gutter token found tag unmarked
    rw [← TagSet.mem_slot, ← built.own_of_slot gutter found, TagSet.mem_own]
    exact (and_iff_left unmarked).symm
  code := by
    intro token member
    have kept : Tag.code ∈ token.tags.own := by
      rcases built.own_of_mem member with slot | ⟨snippet, highlighting, content⟩
      · rw [slot]
        exact TagSet.mem_slot.2 (Or.inl rfl)
      · rw [content]
        exact Snippet.mem_tags_token.2 (Or.inl (Or.inl rfl))
    exact (TagSet.mem_own.1 kept).1
  hostClass := by
    intro token member name carried
    have kept : Tag.custom name ∈ token.tags.own := TagSet.mem_own.2 ⟨carried, rfl⟩
    rcases built.own_of_mem member with slot | ⟨snippet, highlighting, content⟩
    · rw [slot] at kept
      rcases TagSet.mem_slot.1 kept with code | number
      · cases code
      · cases number
    · rw [content] at kept
      exact Snippet.hostClass_of_mem_tags kept
  empty_marker := by
    intro empty token last
    -- Without content, the last token is the second slot.
    have short : row.tokens.length = 2 := by
      have atMost := List.drop_eq_nil_iff.1 empty
      have atLeast := built.two_le
      simp only [Position.contentColumn] at atMost
      omega
    rw [Row.marker?, List.getLast?_eq_getElem?, short] at last
    have slot := built.own_of_slot (show 1 < Position.contentColumn by decide) last
    constructor
    · intro carried
      have kept : Tag.openBracket ∈ token.tags.own := TagSet.mem_own.2 ⟨carried, rfl⟩
      rw [slot, TagSet.mem_slot] at kept
      simp at kept
    · intro carried
      have kept : Tag.closeBracket ∈ token.tags.own := TagSet.mem_own.2 ⟨carried, rfl⟩
      rw [slot, TagSet.mem_slot] at kept
      simp at kept

end LaidOut

theorem Session.laidOut_run (settings : Settings) (commands : List Command) :
    ∀ row ∈ ((Session.new settings).run commands).listing.rows, row.LaidOut := by
  intro row member
  exact (fromSnippets_run settings commands _ (List.mem_map_of_mem member)).laidOut

/-! ## Markings -/

namespace Listing

def Free (listing : Listing) (tag : Tag) : Prop :=
  listing.AllLines fun line => ∀ tags ∈ line, tag ∉ tags

theorem Free.not_hasTag {listing : Listing} {tag : Tag} (free : listing.Free tag) (q : Position) :
    ¬listing.hasTag q tag = true := by
  rw [hasTag_eq, Option.any_eq_true]
  rintro ⟨tags, found, carried⟩
  obtain ⟨line, foundLine, foundTags⟩ := Option.bind_eq_some_iff.1 found
  exact free line (List.mem_of_getElem? foundLine) tags (List.mem_of_getElem? foundTags)
    (OrderedSet.contains_iff.1 carried)

theorem free_tolerates_erase (tag other : Tag) :
    Tolerates (fun line => ∀ tags ∈ line, tag ∉ tags) (·.erase other) :=
  tolerates_forall fun _ absent carried => absent (OrderedSet.mem_erase.1 carried).1

theorem free_tolerates_insert {tag other : Tag} (differs : tag ≠ other) :
    Tolerates (fun line => ∀ tags ∈ line, tag ∉ tags) (·.insert other) :=
  tolerates_forall fun _ absent carried =>
    (OrderedSet.mem_insert.1 carried).elim differs absent

end Listing

theorem Row.free_ofSnippets {tag : Tag} (marking : tag.isMarking = true) (snippets : List Snippet)
    (highlighting : Bool) :
    ∀ tags ∈ (Row.ofSnippets snippets highlighting).tagging, tag ∉ tags := by
  intro tags member carried
  have own : tags.own = tags := by
    rw [tagging_ofSnippets, List.mem_cons, List.mem_cons, List.mem_map] at member
    rcases member with rfl | rfl | ⟨snippet, -, rfl⟩
    · decide
    · decide
    · exact snippet.own_tags_token highlighting
  rw [← own, TagSet.mem_own, marking] at carried
  cases carried.2

namespace Session

inductive Puts (s : Session) : Command → Tag → Prop where
  | related (p : Position) (occupied : (s.listing.token? p).isSome = true) :
      Puts s (.point (.enter p)) .related
  | selected (index : Nat) (accepted : (s.perform (.emphasize index)).reply = .applied true) :
      Puts s (.emphasize index) .selected

theorem free_commit {s : Session} {tag : Tag} {edited : Option Workspace}
    (change : Workspace → Option (ChangeKind × RowSpan)) (free : s.listing.Free tag)
    (kept : ∀ w, edited = some w → w.listing.Free tag) :
    (s.commit edited change).session.listing.Free tag := by
  rw [listing_commit]
  cases edited with
  | none => exact free
  | some w => exact kept w rfl

theorem free_emphasize {s : Session} {tag : Tag} (free : s.listing.Free tag) (index : Nat) :
    (s.perform (.emphasize index)).session.listing.Free tag ∨ s.Puts (.emphasize index) tag := by
  cases done : s.workspace.emphasizeRow index with
  | none =>
    refine Or.inl (free_commit _ free fun w applied => ?_)
    rw [done] at applied
    cases applied
  | some w =>
    by_cases same : tag = .selected
    · refine Or.inr ?_
      rw [same]
      refine .selected index ?_
      rw [perform, emphasizeRow, reply_commit, done]
      rfl
    · refine Or.inl (free_commit _ free fun w' applied => ?_)
      exact Workspace.allLines_emphasizeRow applied free
        (Listing.map_of_tolerates (Listing.free_tolerates_erase _ _))
        (Listing.map_of_tolerates (Listing.free_tolerates_insert same))

theorem free_point {s : Session} {tag : Tag} (free : s.listing.Free tag)
    (signal : Pointer.Signal) :
    (s.point signal).session.listing.Free tag ∨ s.Puts (.point signal) tag := by
  rw [listing_point]
  cases signal with
  | enter p =>
    rw [Listing.point]
    split
    · rename_i occupied
      by_cases same : tag = .related
      · rw [same]
        exact Or.inr (.related p occupied)
      · exact Or.inl (Listing.AllLines.mark free _ (Listing.free_tolerates_insert same))
    · exact Or.inl free
  | leave p =>
    rw [Listing.point]
    split
    · exact Or.inl (Listing.AllLines.unmark free _ (Listing.free_tolerates_erase _ _))
    · exact Or.inl free
  | click p =>
    rw [Listing.point]
    split <;> exact Or.inl free

/-- No other command brings a marking into a listing that is free of it. -/
theorem free_perform {s : Session} {tag : Tag} (marking : tag.isMarking = true)
    (free : s.listing.Free tag) (command : Command) :
    (s.perform command).session.listing.Free tag ∨ s.Puts command tag := by
  have inserted : ∀ index snippets, (s.insertRow index snippets).session.listing.Free tag :=
    fun index snippets => free_commit _ free fun w done =>
      Workspace.allLines_insertRow done free (Row.free_ofSnippets marking _ _)
  cases command with
  | insert index snippets => exact Or.inl (inserted index snippets)
  | insertJson index text =>
    rw [perform, insertRowJson]
    split
    · exact Or.inl (inserted index _)
    · exact Or.inl free
  | delete index =>
    exact Or.inl (free_commit _ free fun w done => Workspace.allLines_deleteRow done free)
  | select index =>
    exact Or.inl (free_commit _ free fun w done => Workspace.allLines_selectRow done free)
  | emphasize index => exact free_emphasize free index
  | point signal => exact free_point free signal
  | subscribe name => exact Or.inl free
  | listen name => exact Or.inl free

theorem free_new (settings : Settings) {tag : Tag} (marking : tag.isMarking = true) :
    (new settings).listing.Free tag := by
  rw [listing, new, Workspace.new, Listing.Free, Listing.AllLines, Workspace.tagging_renumber]
  intro line member
  rw [List.mem_singleton.1 member, Row.tagging_setSelected]
  exact Row.free_ofSnippets marking [] true

/-- A marking was put on tokens by some command of the run. -/
theorem exists_puts_of_run {s : Session} {tag : Tag} (marking : tag.isMarking = true)
    (free : s.listing.Free tag) {commands : List Command}
    (carried : ¬(s.run commands).listing.Free tag) :
    ∃ earlier command, earlier ++ [command] <+: commands ∧ (s.run earlier).Puts command tag := by
  induction commands generalizing s with
  | nil => exact absurd free carried
  | cons command commands ih =>
    rcases free_perform marking free command with kept | puts
    · obtain ⟨earlier, cause, before, put⟩ := ih kept carried
      exact ⟨command :: earlier, cause, List.cons_prefix_cons.2 ⟨rfl, before⟩, put⟩
    · exact ⟨[], command, List.cons_prefix_cons.2 ⟨rfl, List.nil_prefix⟩, puts⟩

/-- After every run each row is laid out as it was built, whatever the host handed in.  A token is
marked as related only if the pointer entered a token in the course of the run, and emphasized only
if an emphasis was applied. -/
theorem tags_have_origin (settings : Settings) (history : List Command) :
    let listing := ((new settings).run history).listing
    (∀ row ∈ listing.rows, row.LaidOut) ∧
      (∀ q, listing.hasTag q .related = true →
        ∃ earlier p, earlier ++ [.point (.enter p)] <+: history ∧
          (((new settings).run earlier).listing.token? p).isSome = true) ∧
      ∀ q, listing.hasTag q .selected = true →
        ∃ earlier index, earlier ++ [.emphasize index] <+: history ∧
          (((new settings).run earlier).perform (.emphasize index)).reply = .applied true := by
  intro listing
  have origin : ∀ tag : Tag, tag.isMarking = true → ∀ q, listing.hasTag q tag = true →
      ∃ earlier command, earlier ++ [command] <+: history ∧
        ((new settings).run earlier).Puts command tag := fun tag marking q carried =>
    exists_puts_of_run marking (free_new settings marking) fun free => free.not_hasTag q carried
  refine ⟨laidOut_run settings history, fun q carried => ?_, fun q carried => ?_⟩
  · obtain ⟨earlier, command, before, puts⟩ := origin .related rfl q carried
    cases puts with
    | related p occupied => exact ⟨earlier, p, before, occupied⟩
  · obtain ⟨earlier, command, before, puts⟩ := origin .selected rfl q carried
    cases puts with
    | selected index accepted => exact ⟨earlier, index, before, accepted⟩

end Session

end CodeRows
