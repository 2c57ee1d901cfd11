import CodeRows.Hover

/-! # Pointer signals

The pointer enters a token, leaves it, or clicks it.  Entering marks the related tokens; leaving
finds them again and takes the marking off, since rows may have changed in between; a click
changes nothing and is passed on to a listener. -/

set_option autoImplicit false

namespace CodeRows

structure ClickTarget where
  position : Position
  text : String
  tags : TagSet
deriving DecidableEq

namespace Pointer

inductive Signal where
  | enter (p : Position)
  | leave (p : Position)
  | click (p : Position)
deriving DecidableEq

inductive Outcome where
  | highlighted (tokens : Highlight)
  | cleared (tokens : Highlight)
  | clicked (target : ClickTarget)
  /-- There is no token at the position. -/
  | ignored
deriving DecidableEq

namespace Outcome

def touched : Outcome → Highlight
  | highlighted tokens => tokens
  | cleared tokens => tokens
  | _ => ∅

def target? : Outcome → Option ClickTarget
  | clicked target => some target
  | _ => none

end Outcome

end Pointer

def Listing.point (listing : Listing) (signal : Pointer.Signal) : Listing × Pointer.Outcome :=
  match signal with
  | .enter p =>
    if (listing.token? p).isSome then
      (listing.mark (listing.related p), .highlighted (listing.related p))
    else (listing, .ignored)
  | .leave p =>
    if (listing.token? p).isSome then
      (listing.unmark (listing.related p), .cleared (listing.related p))
    else (listing, .ignored)
  | .click p =>
    match listing.token? p with
    | some token => (listing, .clicked ⟨p, token.text, token.tags⟩)
    | none => (listing, .ignored)

/-- Who listens to clicks, by name. -/
structure Pointer where
  listener : Option String := none
deriving DecidableEq

namespace Pointer

/-- The listener and what it hears of an outcome. -/
def heard? (pointer : Pointer) (outcome : Outcome) : Option (String × ClickTarget) :=
  match pointer.listener, outcome.target? with
  | some name, some target => some (name, target)
  | _, _ => none

end Pointer

end CodeRows
