import CodeRows.Hover

/-! # Walks between delimiters

Read in the other direction and with opening and closing exchanged, a walk that comes back to the
depth it started from, without going below it on the way, does so again.  So a walk down from an
opening delimiter surfaces at a closing one exactly when the walk up from the closing one surfaces
at the opening one (`surface?_mirror`).  The depth of a walk is the sum of the weights of its
steps, and the argument is about prefix sums. -/

set_option autoImplicit false

namespace CodeRows.Nesting

/-! ## Weights -/

namespace Step

def weight : Step → Int
  | .deepen => 1
  | .rise => -1
  | .level => 0

/-- The step as it is met when walking the other way. -/
def flip : Step → Step
  | .deepen => .rise
  | .rise => .deepen
  | .level => .level

@[simp] theorem flip_flip (step : Step) : step.flip.flip = step := by
  cases step <;> rfl

theorem weight_flip (step : Step) : step.flip.weight = -step.weight := by
  cases step <;> rfl

/-- Below the surface no step is cut off. -/
theorem depth_eq (step : Step) (depth : Nat) :
    (step.depth (depth + 1) : Int) = (depth + 1 : Nat) + step.weight := by
  cases step with
  | deepen => rfl
  | rise =>
    simp only [Step.depth, weight]
    omega
  | level =>
    simp only [Step.depth, weight]
    omega

theorem flip_of {deepens rises : Bool} (apart : ¬(deepens = true ∧ rises = true)) :
    (Step.of deepens rises).flip = Step.of rises deepens := by
  cases deepens <;> cases rises <;> simp_all [Step.of, flip]

end Step

def balance : List Step → Int
  | [] => 0
  | step :: steps => step.weight + balance steps

@[simp] theorem balance_nil : balance [] = 0 := rfl

@[simp] theorem balance_cons (step : Step) (steps : List Step) :
    balance (step :: steps) = step.weight + balance steps := rfl

theorem balance_append (first later : List Step) :
    balance (first ++ later) = balance first + balance later := by
  induction first with
  | nil => simp
  | cons step first ih =>
    rw [List.cons_append, balance_cons, balance_cons, ih]
    omega

theorem balance_reverse (steps : List Step) : balance steps.reverse = balance steps := by
  induction steps with
  | nil => rfl
  | cons step steps ih =>
    rw [List.reverse_cons, balance_append, ih, balance_cons, balance_cons, balance_nil]
    omega

theorem balance_map_flip (steps : List Step) : balance (steps.map Step.flip) = -balance steps := by
  induction steps with
  | nil => rfl
  | cons step steps ih =>
    rw [List.map_cons, balance_cons, balance_cons, ih, Step.weight_flip]
    omega

/-! ## Where a walk surfaces -/

/-- How many steps a walk takes from the given depth to the surface; nothing if the steps run out
before. -/
def surface? : Nat → List Step → Option Nat
  | 0, _ => some 0
  | _ + 1, [] => none
  | depth + 1, step :: steps => (surface? (step.depth (depth + 1)) steps).map (· + 1)

/-- A walk ends at the surface, or else with the last step. -/
theorem reach_eq (depth : Nat) (steps : List Step) :
    reach depth steps = (surface? depth steps).getD steps.length := by
  induction steps generalizing depth with
  | nil => cases depth <;> rfl
  | cons step steps ih =>
    cases depth with
    | zero => rfl
    | succ depth =>
      rw [reach, surface?, ih, List.length_cons]
      cases surface? (step.depth (depth + 1)) steps <;> rfl

theorem reach_le_length (depth : Nat) (steps : List Step) : reach depth steps ≤ steps.length := by
  induction steps generalizing depth with
  | nil => cases depth <;> exact Nat.zero_le _
  | cons step steps ih =>
    cases depth with
    | zero => exact Nat.zero_le _
    | succ depth => exact Nat.succ_le_succ (ih _)

theorem surface?_eq_some_iff {depth : Nat} {steps : List Step} {n : Nat} :
    surface? depth steps = some n ↔
      n ≤ steps.length ∧ depth + balance (steps.take n) = 0 ∧
        ∀ k < n, 0 < depth + balance (steps.take k) := by
  induction steps generalizing depth n with
  | nil =>
    cases depth with
    | zero =>
      simp only [surface?, Option.some.injEq, List.take_nil, balance_nil]
      constructor
      · rintro rfl
        simp
      · rintro ⟨atEnd, -, -⟩
        exact (Nat.le_zero.1 atEnd).symm
    | succ depth =>
      simp only [surface?, List.take_nil, balance_nil, reduceCtorEq, false_iff]
      omega
  | cons step steps ih =>
    cases depth with
    | zero =>
      simp only [surface?, Option.some.injEq]
      constructor
      · rintro rfl
        simp
      · rintro ⟨-, -, above⟩
        cases n with
        | zero => rfl
        | succ n => exact absurd (above 0 n.succ_pos) (by simp)
    | succ depth =>
      have lower := step.depth_eq depth
      cases n with
      | zero =>
        simp only [surface?, Option.map_eq_some_iff, Nat.add_one_ne_zero, and_false, exists_false,
          List.take_zero, balance_nil, false_iff]
        omega
      | succ n =>
        simp only [surface?, Option.map_eq_some_iff, Nat.add_right_cancel_iff, exists_eq_right, ih,
          List.length_cons, List.take_succ_cons, balance_cons, Nat.add_le_add_iff_right]
        refine and_congr_right fun _ => and_congr (by omega) ?_
        constructor
        · intro above k bound
          cases k with
          | zero => simp
          | succ k =>
            have later := above k (by omega)
            simp only [List.take_succ_cons, balance_cons]
            omega
        · intro above k bound
          have later := above (k + 1) (by omega)
          simp only [List.take_succ_cons, balance_cons] at later
          omega

/-! ## Mirrored walks -/

/-- The steps come back to the depth they start from and never go below it. -/
def Balanced (steps : List Step) : Prop :=
  balance steps = 0 ∧ ∀ k ≤ steps.length, 0 ≤ balance (steps.take k)

theorem surface?_append_rise_iff (inner rest : List Step) :
    surface? 1 (inner ++ .rise :: rest) = some (inner.length + 1) ↔ Balanced inner := by
  have whole : (inner ++ .rise :: rest).take (inner.length + 1) = inner ++ [.rise] := by
    rw [List.take_append, List.take_of_length_le (Nat.le_succ _)]
    simp
  have part : ∀ k ≤ inner.length, (inner ++ .rise :: rest).take k = inner.take k := fun k bound =>
    List.take_append_of_le_length bound
  rw [surface?_eq_some_iff, whole, balance_append, Balanced]
  simp only [balance_cons, balance_nil, Step.weight, List.length_append, List.length_cons]
  constructor
  · rintro ⟨-, closed, above⟩
    refine ⟨by omega, fun k bound => ?_⟩
    have inside := above k (by omega)
    rw [part k bound] at inside
    omega
  · rintro ⟨closed, above⟩
    refine ⟨by omega, by omega, fun k bound => ?_⟩
    rw [part k (by omega)]
    have inside := above k (by omega)
    omega

/-- A suffix of balanced steps, mirrored, has the balance of the prefix before it. -/
theorem Balanced.mirror {inner : List Step} (balanced : Balanced inner) :
    Balanced (inner.reverse.map Step.flip) := by
  obtain ⟨closed, above⟩ := balanced
  refine ⟨by rw [balance_map_flip, balance_reverse]; omega, fun k bound => ?_⟩
  have split : balance (inner.take (inner.length - k)) + balance (inner.drop (inner.length - k)) =
      balance inner := by
    rw [← balance_append, List.take_append_drop]
  have before := above (inner.length - k) (Nat.sub_le _ _)
  rw [← List.map_take, balance_map_flip, List.take_reverse, balance_reverse]
  omega

theorem balanced_mirror_iff (inner : List Step) :
    Balanced (inner.reverse.map Step.flip) ↔ Balanced inner := by
  refine ⟨fun balanced => ?_, Balanced.mirror⟩
  have again := balanced.mirror
  rw [← List.map_reverse, List.reverse_reverse, List.map_map] at again
  simpa [Function.comp_def] using again

theorem surface?_mirror (inner before after : List Step) :
    surface? 1 (inner ++ .rise :: after) = some (inner.length + 1) ↔
      surface? 1 (inner.reverse.map Step.flip ++ .rise :: before) = some (inner.length + 1) := by
  have sameLength : (inner.reverse.map Step.flip).length = inner.length := by simp
  have upward := surface?_append_rise_iff (inner.reverse.map Step.flip) before
  rw [sameLength, balanced_mirror_iff] at upward
  rw [surface?_append_rise_iff, upward]

end CodeRows.Nesting
