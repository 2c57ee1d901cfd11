import CodeRows.Json.Scan

/-! # Skipping values

A value that nobody asks for must still be well formed.  Skipping keeps the containers that are
open, innermost first, instead of a depth of calls. -/

set_option autoImplicit false

namespace CodeRows.Json

inductive Container where
  | list
  | object
deriving DecidableEq

namespace Container

def closer : Container → Char
  | list => ']'
  | object => '\x7d'

def ended : Container → Cause
  | list => .endInList
  | object => .endInObject

/-- The fault of a text in which neither a separator nor the closer follows. -/
def unseparated : Container → Cause
  | list => .noListSeparator
  | object => .noObjectSeparator

end Container

def readColon (s : List Char) : Except Fault (List Char) :=
  match skipSpace s with
  | ':' :: rest => .ok rest
  | [] => .error (.placed .endInObject 0)
  | c :: rest => .error (faultIn .noColon (c :: rest))

def skipKey (s : List Char) : Except Fault (List Char) := do
  match skipSpace s with
  | '"' :: rest =>
    let (_, rest) ← readChars false rest
    readColon rest
  | [] => .error (.placed .endInObject 0)
  | c :: rest => .error (faultIn .keyNotString (c :: rest))

def skipToValue : Container → List Char → Except Fault (List Char)
  | .list, s => .ok s
  | .object, s => skipKey s

def skipScalar (s : List Char) : Except Fault (List Char) :=
  match s with
  | [] => .error (.placed .endInValue 0)
  | c :: rest =>
    if c = 'n' then readWord "ull".toList rest
    else if c = 't' then readWord "rue".toList rest
    else if c = 'f' then readWord "alse".toList rest
    else if c = '"' then (readChars false rest).map Prod.snd
    else if c = '-' ∨ c.isDigit then (readSpelling .badNumber s).map Prod.snd
    else .error (faultIn .noValue s)

theorem length_readColon_lt {s rest : List Char} (done : readColon s = .ok rest) :
    rest.length < s.length := by
  have shorter := length_skipSpace_le s
  unfold readColon at done
  split at done <;> rename_i same <;> rw [same] at shorter <;> cases done
  exact shorter

theorem length_skipKey_lt {s rest : List Char} (done : skipKey s = .ok rest) :
    rest.length < s.length := by
  have shorter := length_skipSpace_le s
  unfold skipKey at done
  split at done
  · rename_i tail same
    rw [same, List.length_cons] at shorter
    obtain ⟨⟨chars, after⟩, key, done⟩ := bind_eq_ok done
    have first := length_readChars_lt key
    have second := length_readColon_lt done
    omega
  · cases done
  · cases done

theorem length_skipToValue_le {container : Container} {s rest : List Char}
    (done : skipToValue container s = .ok rest) : rest.length ≤ s.length := by
  cases container with
  | list => cases done; exact Nat.le_refl _
  | object => exact Nat.le_of_lt (length_skipKey_lt done)

theorem length_skipScalar_lt {s rest : List Char} (done : skipScalar s = .ok rest) :
    rest.length < s.length := by
  cases s with
  | nil => cases done
  | cons c tail =>
    rw [skipScalar] at done
    split at done
    · exact Nat.lt_succ_of_le (length_readWord_le _ _ done)
    split at done
    · exact Nat.lt_succ_of_le (length_readWord_le _ _ done)
    split at done
    · exact Nat.lt_succ_of_le (length_readWord_le _ _ done)
    split at done
    · obtain ⟨pair, result, same⟩ := map_eq_ok done
      rw [← same]
      exact Nat.lt_succ_of_lt (length_readChars_lt result)
    split at done
    · obtain ⟨pair, result, same⟩ := map_eq_ok done
      rw [← same]
      exact length_readSpelling_lt result
    · cases done

inductive SkipPhase where
  | value
  /-- Behind a value, or (`opened`) behind the bracket that opens a container. -/
  | behind (opened : Bool)

namespace SkipPhase

def rank : SkipPhase → Nat
  | value => 0
  | behind _ => 1

end SkipPhase

/-- Skip to the end of the outermost of the open containers. -/
def skipFrom (phase : SkipPhase) (containers : List Container) (s : List Char) :
    Except Fault (List Char) :=
  match phase, containers with
  | .value, containers =>
    match _start : skipSpace s with
    | '[' :: rest => skipFrom (.behind true) (.list :: containers) rest
    | '\x7b' :: rest => skipFrom (.behind true) (.object :: containers) rest
    | rest =>
      match _scalar : skipScalar rest with
      | .error fault => .error fault
      | .ok rest => skipFrom (.behind false) containers rest
  | .behind _, [] => .ok s
  | .behind opened, container :: outer =>
    match _start : skipSpace s with
    | [] => .error (.placed container.ended 0)
    | c :: rest =>
      if c = ',' ∧ opened = false then
        match _next : skipToValue container rest with
        | .error fault => .error fault
        | .ok rest => skipFrom .value (container :: outer) rest
      else if c = container.closer then skipFrom (.behind false) outer rest
      else if opened then
        match _next : skipToValue container (c :: rest) with
        | .error fault => .error fault
        | .ok rest => skipFrom .value (container :: outer) rest
      else .error (faultIn container.unseparated (c :: rest))
termination_by 2 * s.length + phase.rank
decreasing_by
  all_goals simp only [SkipPhase.rank]
  all_goals have shorter := length_skipSpace_le s
  · rw [_start, List.length_cons] at shorter; omega
  · rw [_start, List.length_cons] at shorter; omega
  · have scalar := length_skipScalar_lt _scalar
    rw [_start] at shorter; omega
  · have next := length_skipToValue_le _next
    rw [_start, List.length_cons] at shorter; omega
  · rw [_start, List.length_cons] at shorter; omega
  · have next := length_skipToValue_le _next
    rw [_start] at shorter; omega

def skipValue (s : List Char) : Except Fault (List Char) := skipFrom .value [] s

theorem length_skipFrom_le {phase : SkipPhase} {containers : List Container} {s rest : List Char}
    (done : skipFrom phase containers s = .ok rest) : rest.length ≤ s.length := by
  fun_induction skipFrom phase containers s with
  | case1 s _ tail start ih | case2 s _ tail start ih =>
    have shorter := length_skipSpace_le s
    rw [start, List.length_cons] at shorter
    exact Nat.le_trans (ih done) (Nat.le_of_succ_le shorter)
  | case3 | case6 | case7 | case10 | case12 => cases done
  | case4 s _ tail _ _ scalar ih =>
    exact Nat.le_trans (ih done) (Nat.le_trans (Nat.le_of_lt (length_skipScalar_lt scalar))
      (length_skipSpace_le s))
  | case5 => cases done; exact Nat.le_refl _
  | case8 s _ _ _ _ tail start _ after next ih =>
    have shorter := length_skipSpace_le s
    rw [start, List.length_cons] at shorter
    exact Nat.le_trans (ih done) (Nat.le_trans (length_skipToValue_le next)
      (Nat.le_of_succ_le shorter))
  | case9 s _ _ _ tail start _ ih =>
    have shorter := length_skipSpace_le s
    rw [start, List.length_cons] at shorter
    exact Nat.le_trans (ih done) (Nat.le_of_succ_le shorter)
  | case11 s _ _ _ tail start _ after next _ ih =>
    have shorter := length_skipSpace_le s
    rw [start] at shorter
    exact Nat.le_trans (ih done) (Nat.le_trans (length_skipToValue_le next) shorter)

end CodeRows.Json
