import LuaLiterals.Kind

/-!
The kinds a host is ready to accept at a position. A host that recovers from an error in its
own grammar offers everything at once; such an offer says nothing about the position, and
nothing that depends on an open literal may be concluded from it.
-/

set_option autoImplicit false
set_option relaxedAutoImplicit false

namespace LuaLiterals

structure Offer where
  comment : Bool
  opening : Bool
  content : Bool
  closing : Bool
deriving DecidableEq, Repr

namespace Offer

/-- One flag for each symbol; a flag that is missing counts as not offered, and flags past the
last symbol mean nothing. -/
def ofFlags (flags : List Bool) : Offer where
  comment := flags.getD 0 false
  opening := flags.getD 1 false
  content := flags.getD 2 false
  closing := flags.getD 3 false

/-- One bit for each symbol; higher bits mean nothing. -/
def ofBits (bits : Nat) : Offer := ofFlags ((List.range 4).map bits.testBit)

def accepts (offer : Offer) : Kind → Bool
  | .comment => offer.comment
  | .opening => offer.opening
  | .content => offer.content
  | .closing => offer.closing

def accepted (offer : Offer) : List Kind := Kind.all.filter offer.accepts

def bits (offer : Offer) : Nat := (offer.accepted.map Kind.bit).foldl (· ||| ·) 0

/-- Something is offered that can begin where no literal is open. -/
def opens (offer : Offer) : Bool := offer.comment || offer.opening

/-- Something is offered that can only follow an opening delimiter. -/
def continues (offer : Offer) : Bool := offer.content || offer.closing

/-- Everything is offered, as a host does while it recovers from an error. -/
def isRecovery (offer : Offer) : Bool := Kind.all.all offer.accepts

/-- What may come where no literal is open. -/
def outside : Offer := ⟨true, true, false, false⟩

/-- What may come inside an open literal. -/
def inside : Offer := ⟨false, false, true, true⟩

end Offer

end LuaLiterals
