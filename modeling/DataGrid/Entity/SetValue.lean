import DataGrid.Entity.Delta
import DataGrid.Ordered.Set

/-!
# Sets of octets — the value of a set entity

Adding and removing report what they changed: the delta lists, in the order given, the members
that were new or were there, each once. A call that changes nothing has no delta.
-/

namespace DataGrid

/-- The members of a set entity. -/
abbrev SetValue := OrdSet Bytes

namespace SetValue

/-- The set with the listed members, and those of them that were new. -/
def addNew (s : SetValue) : List Bytes → SetValue × List Bytes
  | [] => (s, [])
  | m :: rest =>
    if s.contains m then addNew s rest
    else
      let (s, added) := addNew (s.insert m) rest
      (s, m :: added)

/-- The set without the listed members, and those of them that were there. -/
def removePresent (s : SetValue) : List Bytes → SetValue × List Bytes
  | [] => (s, [])
  | m :: rest =>
    if s.contains m then
      let (s, removed) := removePresent (s.erase m) rest
      (s, m :: removed)
    else removePresent s rest

/-- Adds members. -/
def add (s : SetValue) (members : List Bytes) : SetValue × Option Delta :=
  let (s, added) := addNew s members
  (s, if added.isEmpty then none else some (.adds added))

/-- Removes members. -/
def remove (s : SetValue) (members : List Bytes) : SetValue × Option Delta :=
  let (s, removed) := removePresent s members
  (s, if removed.isEmpty then none else some (.rems removed))

/-- Removes `count` members, or all if there are no more: `chosen` are the ones to go when some
stay. Answers the members removed. -/
def pop (s : SetValue) (count : Nat) (chosen : List Bytes) :
    SetValue × List Bytes × Option Delta :=
  if s.isEmpty || count == 0 then (s, [], none)
  else if s.size ≤ count then (.empty, s.toList, some (.rems s.toList))
  else (s.eraseAll chosen, chosen, some (.rems chosen))

end SetValue

end DataGrid
