/-! # Ordered sets

A set is a strictly ascending list.  The order is part of the type, so two sets with the same
members are the same value (`OrderedSet.ext_mem`) and the members can be listed in order.
Membership after each operation is given by `mem_insert`, `mem_filter`, `mem_erase` and
`mem_ofList`. -/

set_option autoImplicit false

namespace CodeRows

open Std

abbrev Ascending {α : Type} [Ord α] (elems : List α) : Prop :=
  elems.Pairwise fun a b => compare a b = .lt

structure OrderedSet (α : Type) [Ord α] where
  elems : List α
  ascending : Ascending elems
deriving DecidableEq

namespace OrderedSet

variable {α : Type} [Ord α]

instance : Membership α (OrderedSet α) := ⟨fun s a => a ∈ s.elems⟩

theorem mem_def {s : OrderedSet α} {a : α} : a ∈ s ↔ a ∈ s.elems := Iff.rfl

instance [DecidableEq α] (a : α) (s : OrderedSet α) : Decidable (a ∈ s) :=
  inferInstanceAs (Decidable (a ∈ s.elems))

def empty : OrderedSet α := ⟨[], List.Pairwise.nil⟩

instance : EmptyCollection (OrderedSet α) := ⟨empty⟩

instance : Inhabited (OrderedSet α) := ⟨empty⟩

@[simp] theorem not_mem_empty (a : α) : a ∉ (∅ : OrderedSet α) := List.not_mem_nil

def size (s : OrderedSet α) : Nat := s.elems.length

def isEmpty (s : OrderedSet α) : Bool := s.elems.isEmpty

def contains [DecidableEq α] (s : OrderedSet α) (a : α) : Bool := decide (a ∈ s)

@[simp] theorem contains_iff [DecidableEq α] {s : OrderedSet α} {a : α} :
    s.contains a = true ↔ a ∈ s := by
  simp [contains]

def filter (keep : α → Bool) (s : OrderedSet α) : OrderedSet α :=
  ⟨s.elems.filter keep, s.ascending.filter keep⟩

@[simp] theorem mem_filter {keep : α → Bool} {s : OrderedSet α} {a : α} :
    a ∈ s.filter keep ↔ a ∈ s ∧ keep a = true := by
  simp [filter, mem_def]

def erase [DecidableEq α] (a : α) (s : OrderedSet α) : OrderedSet α :=
  s.filter fun b => decide (b ≠ a)

@[simp] theorem mem_erase [DecidableEq α] {s : OrderedSet α} {a b : α} :
    b ∈ s.erase a ↔ b ∈ s ∧ b ≠ a := by
  simp [erase]

/-- The set without `a`, and whether `a` was in it. -/
def take [DecidableEq α] (a : α) (s : OrderedSet α) : OrderedSet α × Bool :=
  (s.erase a, s.contains a)

def any (p : α → Bool) (s : OrderedSet α) : Bool := s.elems.any p

/-- Put `a` in its place; a member equal to it stays. -/
def insertList (a : α) : List α → List α
  | [] => [a]
  | b :: rest =>
    match compare a b with
    | .lt => a :: b :: rest
    | .eq => b :: rest
    | .gt => b :: insertList a rest

section Lawful

variable [TransOrd α] [LawfulEqOrd α]

omit [TransOrd α] in
theorem mem_insertList {a x : α} (elems : List α) :
    x ∈ insertList a elems ↔ x = a ∨ x ∈ elems := by
  induction elems with
  | nil => simp [insertList]
  | cons b rest ih =>
    rw [insertList]
    split
    · simp
    · rename_i same
      rw [LawfulEqOrd.eq_of_compare same]
      simp
    · simp only [List.mem_cons, ih]
      exact or_left_comm

theorem ascending_insertList {a : α} (elems : List α) (sorted : Ascending elems) :
    Ascending (insertList a elems) := by
  induction elems with
  | nil => exact List.pairwise_singleton _ _
  | cons b rest ih =>
    obtain ⟨below, sortedRest⟩ := List.pairwise_cons.1 sorted
    rw [insertList]
    split
    · rename_i less
      refine List.pairwise_cons.2 ⟨fun x member => ?_, sorted⟩
      rcases List.mem_cons.1 member with same | later
      · rw [same]; exact less
      · exact TransCmp.lt_trans less (below x later)
    · exact sorted
    · rename_i greater
      refine List.pairwise_cons.2 ⟨fun x member => ?_, ih sortedRest⟩
      rcases (mem_insertList rest).1 member with same | later
      · rw [same]; exact OrientedCmp.gt_iff_lt.1 greater
      · exact below x later

def insert (a : α) (s : OrderedSet α) : OrderedSet α :=
  ⟨insertList a s.elems, ascending_insertList s.elems s.ascending⟩

@[simp] theorem mem_insert {s : OrderedSet α} {a x : α} : x ∈ s.insert a ↔ x = a ∨ x ∈ s :=
  mem_insertList s.elems

/-- The set with `a` added, and whether `a` is new in it. -/
def put [DecidableEq α] (a : α) (s : OrderedSet α) : OrderedSet α × Bool :=
  (s.insert a, !s.contains a)

def insertMany (items : List α) (s : OrderedSet α) : OrderedSet α :=
  items.foldr insert s

@[simp] theorem mem_insertMany {items : List α} {s : OrderedSet α} {x : α} :
    x ∈ s.insertMany items ↔ x ∈ items ∨ x ∈ s := by
  induction items with
  | nil => simp [insertMany]
  | cons a rest ih =>
    rw [insertMany, List.foldr_cons, ← insertMany, mem_insert, ih, List.mem_cons, or_assoc]

/-- The set of the elements of a list, in whatever order and however often they are given. -/
def ofList (items : List α) : OrderedSet α := insertMany items ∅

@[simp] theorem mem_ofList {items : List α} {x : α} : x ∈ ofList items ↔ x ∈ items := by
  simp [ofList]

omit [LawfulEqOrd α] in
/-- Nothing is below itself, so an ascending list has no element twice. -/
theorem nodup (s : OrderedSet α) : s.elems.Nodup := by
  refine s.ascending.imp fun {a b} less same => ?_
  rw [same, compare_self] at less
  cases less

omit [LawfulEqOrd α] in
/-- A set is determined by its members. -/
@[ext] theorem ext_mem {s t : OrderedSet α} (same : ∀ a, a ∈ s ↔ a ∈ t) : s = t := by
  obtain ⟨left, sortedLeft⟩ := s
  obtain ⟨right, sortedRight⟩ := t
  have perm : left.Perm right :=
    (List.perm_ext_iff_of_nodup (nodup ⟨left, sortedLeft⟩) (nodup ⟨right, sortedRight⟩)).2 same
  have equal : left = right :=
    perm.eq_of_pairwise
      (fun a b _ _ less greater => by
        rw [OrientedCmp.gt_of_lt less] at greater
        cases greater)
      sortedLeft sortedRight
  subst equal
  rfl

end Lawful

end OrderedSet

end CodeRows
