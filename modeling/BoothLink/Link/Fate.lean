import BoothLink.Link.Error

/-!
# How the reading of a connection ended

A connection is read in the background until the stream ends, an error stops it, or the connection is
closed. The error, if there was one, can be fetched once, by whoever has taken the receiver for it.

* `Fate`, `Fate.finish`: whether reading has ended, and why.
* `Fate.poll`: what the receiver gives.
-/

namespace BoothLink

/-- Whether reading has ended, and the error that is still to be fetched. -/
structure Fate where
  ended : Bool := false
  cause : Option LinkError := none
  /-- The receiver of the error has been handed out. -/
  taken : Bool := false
  deriving DecidableEq, Repr

namespace Fate

/-- Reading ends, with an error or without. Only the first end counts. -/
def finish (f : Fate) (cause : Option LinkError) : Fate :=
  if f.ended then f else { f with ended := true, cause }

/-- Takes the receiver, which can be done once. -/
def take (f : Fate) : Bool × Fate := (!f.taken, { f with taken := true })

/-- What the receiver gives. -/
inductive Poll where
  | notTaken
  | pending
  | error (e : LinkError)
  /-- Nothing will come. -/
  | nothing
  deriving DecidableEq, Repr

def poll (f : Fate) : Poll × Fate :=
  if !f.taken then (.notTaken, f)
  else
    match f.cause with
    | some e => (.error e, { f with cause := none })
    | none => (if f.ended then .nothing else .pending, f)

end Fate

end BoothLink
