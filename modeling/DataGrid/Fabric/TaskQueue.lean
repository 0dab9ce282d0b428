import DataGrid.Frame.Message

/-!
# Task queue — urgent work first

Within a priority, items leave in the order they came. An item of normal priority leaves only when
no urgent one is there. A closed queue takes nothing more and still gives out what it has.
-/

namespace DataGrid

/-- A queue of two priorities. -/
structure TaskQueue (α : Type) where
  high : List α := []
  normal : List α := []
  closed : Bool := false
  deriving DecidableEq, Repr

/-- What a worker finds that waits at a queue. -/
inductive Turn (α : Type) where
  | item (a : α)
  /-- The queue is closed and has nothing left. -/
  | finished
  /-- The worker waits until something is pushed or the queue is closed. -/
  | waiting
  deriving DecidableEq, Repr

namespace TaskQueue

variable {α : Type}

/-- The items in the order they leave. -/
def toList (q : TaskQueue α) : List α := q.high ++ q.normal

def size (q : TaskQueue α) : Nat := q.high.length + q.normal.length
def isEmpty (q : TaskQueue α) : Bool := q.size == 0

/-- Adds an item, and says whether the queue took it. -/
def push (q : TaskQueue α) (a : α) (priority : Priority) : Bool × TaskQueue α :=
  if q.closed then (false, q)
  else
    match priority with
    | .high => (true, { q with high := q.high ++ [a] })
    | .normal => (true, { q with normal := q.normal ++ [a] })

/-- Takes the item whose turn it is, if there is one. -/
def tryPop (q : TaskQueue α) : Option α × TaskQueue α :=
  match q.high, q.normal with
  | a :: rest, _ => (some a, { q with high := rest })
  | [], a :: rest => (some a, { q with normal := rest })
  | [], [] => (none, q)

/-- Takes the item whose turn it is, and says what it means if there is none. -/
def pop (q : TaskQueue α) : Turn α × TaskQueue α :=
  match q.tryPop with
  | (some a, q) => (.item a, q)
  | (none, q) => (if q.closed then .finished else .waiting, q)

/-- Takes everything, in the order it leaves. -/
def drain (q : TaskQueue α) : List α × TaskQueue α :=
  (q.toList, { q with high := [], normal := [] })

/-- Closes the queue. -/
def close (q : TaskQueue α) : TaskQueue α := { q with closed := true }

end TaskQueue

end DataGrid
