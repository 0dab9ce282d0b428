import DataGrid.Reply.Processor

/-!
# Keeper — finding the processor of an answer

Answers name their processor by a number, and the keeper of a member holds the table of those
numbers. Numbers are positive and are handed out in order; past the greatest one they begin at one
again, and those that are still taken are passed over (`Keeper.freshId`).

The table names a processor but does not own it. Its maker does, and so may others who hold on to
it; when the last owner lets go it is gone. Since a number may come to name a newer processor,
processors are told apart by tickets, of which no two are ever equal, and the table entry of a
number is only ever removed by the processor it names.
-/

namespace DataGrid

/-- A processor, the number it was registered under, and who owns it. -/
structure Registration where
  id : Int32
  processor : Processor
  /-- Whether its maker still has it. -/
  owned : Bool := true
  /-- How many others hold on to it. -/
  holders : Nat := 0

/-- The processors of one member. -/
structure Keeper where
  /-- The number to try first. -/
  next : Int32 := 1
  /-- The ticket of the processor that each number names. -/
  table : OrdMap Int32 Nat := .empty
  /-- The processors that have an owner, by ticket. -/
  live : OrdMap Nat Registration := .empty
  /-- The number of tickets handed out. -/
  tickets : Nat := 0

namespace Keeper

/-- The greatest number of a processor. -/
def maxId : Int32 := 2147483647

/-! ## Numbers -/

/-- The next number to try. -/
def candidate (k : Keeper) : Int32 × Keeper :=
  (k.next, { k with next := if k.next = maxId then 1 else k.next + 1 })

/-- Whether a number names no processor that has an owner. -/
def isFree (k : Keeper) (id : Int32) : Bool :=
  match k.table.get? id with
  | some ticket => !k.live.contains ticket
  | none => true

/-- The first free number among as many as the fuel allows. -/
def searchId : (fuel : Nat) → Keeper → Option (Int32 × Keeper)
  | 0, _ => none
  | fuel + 1, k =>
    let (id, k) := k.candidate
    if k.isFree id then some (id, k) else searchId fuel k

/-- A free number. One more try than there are entries finds it, unless every number there is has
an entry; then the next one is taken all the same. -/
def freshId (k : Keeper) : Int32 × Keeper :=
  (k.searchId (k.table.size + 1)).getD k.candidate

/-! ## The table -/

/-- The processor of a ticket. -/
def get? (k : Keeper) (ticket : Nat) : Option Registration := k.live.get? ticket

/-- The ticket of the processor that a number names. -/
def find? (k : Keeper) (id : Int32) : Option Nat :=
  (k.table.get? id).filter k.live.contains

/-- Whether a number names a processor. -/
def contains (k : Keeper) (id : Int32) : Bool := (k.find? id).isSome

/-- The number of entries of the table. -/
def size (k : Keeper) : Nat := k.table.size

/-- Removes the entry of a processor's number, unless it names another one by now. -/
def unregister (k : Keeper) (ticket : Nat) : Keeper :=
  match k.get? ticket with
  | some r =>
    if k.table.get? r.id = some ticket then { k with table := k.table.erase r.id } else k
  | none => k

/-- Registers a processor under a free number. One that has ended already leaves no entry. -/
def register (k : Keeper) (p : Processor) : Nat × Keeper :=
  let (id, k) := k.freshId
  let ticket := k.tickets
  let k := { k with
    tickets := k.tickets + 1
    live := k.live.insert ticket { id, processor := p }
    table := k.table.insert id ticket }
  (ticket, if p.isDone then k.unregister ticket else k)

/-! ## What happens to processors -/

/-- Lets something happen to the processor of a ticket. If that ends it, its entry goes. -/
def update (k : Keeper) (ticket : Nat) (f : Processor → Processor) : Keeper :=
  match k.get? ticket with
  | some r =>
    let p := f r.processor
    let k' := { k with live := k.live.insert ticket { r with processor := p } }
    if p.isDone && !r.processor.isDone then k'.unregister ticket else k'
  | none => k

/-- Hands an answer to the processor of a ticket. -/
def reply (k : Keeper) (ticket : Nat) (sender : Member) (r : Reply) : Keeper :=
  k.update ticket (·.reply sender r)

/-- Tells the processor of a ticket that a member left. -/
def depart (k : Keeper) (ticket : Nat) (m : Member) : Keeper :=
  k.update ticket (·.depart m)

/-- Cancels the processor of a ticket. -/
def cancel (k : Keeper) (ticket : Nat) (sender : Member) (cause : String) : Keeper :=
  k.update ticket (·.cancel sender cause)

/-- Hands an answer to the processor that it names, and says whether there is one. -/
def processReply (k : Keeper) (sender : Member) (r : Reply) : Bool × Keeper :=
  match k.find? r.processor with
  | some ticket => (true, k.reply ticket sender r)
  | none => (false, k)

/-- Tells every processor of the table that a member left. -/
def memberDeparted (k : Keeper) (m : Member) : Keeper :=
  (k.table.entries.map (·.2)).foldl (fun k ticket => k.depart ticket m) k

/-! ## Owners -/

/-- Changes who owns a processor; one without an owner is gone. -/
def reown (k : Keeper) (ticket : Nat) (f : Registration → Registration) : Keeper :=
  match k.get? ticket with
  | some r =>
    let r := f r
    if r.owned || 0 < r.holders then { k with live := k.live.insert ticket r }
    else { k with live := k.live.erase ticket }
  | none => k

/-- The maker of a processor lets go of it. Its number stops naming it. -/
def drop (k : Keeper) (ticket : Nat) : Keeper :=
  (k.unregister ticket).reown ticket fun r => { r with owned := false }

/-- Somebody else holds on to a processor. -/
def hold (k : Keeper) (ticket : Nat) : Keeper :=
  k.reown ticket fun r => { r with holders := r.holders + 1 }

/-- Somebody else lets go of a processor. -/
def release (k : Keeper) (ticket : Nat) : Keeper :=
  k.reown ticket fun r => { r with holders := r.holders - 1 }

end Keeper

end DataGrid
