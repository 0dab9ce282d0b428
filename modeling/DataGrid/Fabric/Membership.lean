import DataGrid.Member
import DataGrid.Ordered.Set

/-!
# Membership — who is here

Members join and depart; who joins again without having left, or departs without having been
there, changes nothing. A listener is told of every change from its registration until its owner is
gone. Every registration makes a listener of its own: an owner that registers again has two, and is
told twice. A listener whose owner is gone stays in the table until there is something to tell, and
is left out then.
-/

namespace DataGrid

/-- A change of the membership. -/
inductive MembershipChange where
  | joined (m : Member)
  /-- A member left, of its own will or because it crashed. -/
  | departed (m : Member) (crashed : Bool)
  deriving DecidableEq, Repr

/-- A listener, as one registration makes it. -/
structure Listener where
  /-- Which registration made it. -/
  token : Nat
  /-- Who is told. The membership does not keep the owner of a listener there. -/
  owner : Nat
  deriving DecidableEq, Repr

/-- What a listener is told. -/
abbrev Notice := Listener × MembershipChange

/-- The current members, and who is told when they change. -/
structure Membership where
  members : OrdSet Member := .empty
  /-- The listeners, oldest first, with those whose owner is gone and that were not left out yet. -/
  listeners : List Listener := []
  /-- The owners that are gone. -/
  gone : List Nat := []
  /-- The number of registrations. -/
  tokens : Nat := 0
  deriving DecidableEq

namespace Membership

/-- Whether a member is here. -/
def contains (g : Membership) (m : Member) : Bool := g.members.contains m

/-- The members in their order. -/
def toList (g : Membership) : List Member := g.members.toList

/-- The members in their order, without one of them. -/
def others (g : Membership) (m : Member) : List Member := g.toList.filter (· ≠ m)

def size (g : Membership) : Nat := g.members.size
def isEmpty (g : Membership) : Bool := g.members.isEmpty

/-- Registers a listener for an owner, which may have others. Answers its token. -/
def listen (g : Membership) (owner : Nat) : Nat × Membership :=
  (g.tokens,
    { g with listeners := g.listeners ++ [⟨g.tokens, owner⟩], tokens := g.tokens + 1 })

/-- An owner goes, and with it all its listeners. -/
def unlisten (g : Membership) (owner : Nat) : Membership := { g with gone := owner :: g.gone }

/-- The listeners whose owners are still there. -/
def live (g : Membership) : List Listener := g.listeners.filter (·.owner ∉ g.gone)

/-- The membership without the listeners whose owners are gone. -/
def sweep (g : Membership) : Membership := { g with listeners := g.live }

/-- Who is told of a change. -/
def notices (g : Membership) (change : MembershipChange) : List Notice := g.live.map (·, change)

/-- A member joins. Answers who is told. -/
def join (g : Membership) (m : Member) : List Notice × Membership :=
  if g.contains m then ([], g)
  else (g.notices (.joined m), { g.sweep with members := g.members.insert m })

/-- A member departs. Answers whether it was here, and who is told. -/
def depart (g : Membership) (m : Member) (crashed : Bool) : Bool × List Notice × Membership :=
  if g.contains m then
    (true, g.notices (.departed m crashed), { g.sweep with members := g.members.erase m })
  else (false, [], g)

variable {g : Membership}

/-- Nobody is left out while every owner is there. -/
theorem live_of_gone (h : g.gone = []) : g.live = g.listeners := by
  simp [live, h]

theorem sweep_of_gone (h : g.gone = []) : g.sweep = g := by
  rw [sweep, live_of_gone h]

end Membership

end DataGrid
