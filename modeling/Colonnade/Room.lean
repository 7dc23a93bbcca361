/-
Room for more cells. A column asks for room before it takes a cell, and may
be told that there is none. What is answered depends on nothing that the
database holds, so the answers are given: one for each request that an
instruction makes, in the order in which it makes them.

Only requests that an instruction can be refused are asked here. Where the
system has no room for anything else the program ends, and no instruction is
left half done that anyone could look at.

Chain: `Column` and `Table` ask for room; the program runs with
`Room.ample`, which grants everything.
-/
import Colonnade.Error

namespace Colonnade

/-- The answers to the requests for room that one instruction makes. -/
structure Room where
  grants : Nat → Bool

namespace Room

/-- Room for everything. -/
def ample : Room := ⟨fun _ => true⟩

/-- The n-th request of an instruction: so many more slots for something. -/
def ask (room : Room) (n : Nat) (what : String) (requested : Nat) :
    Except Error Unit :=
  if room.grants n then pure () else throw (.outOfMemory what requested)

end Room

end Colonnade
