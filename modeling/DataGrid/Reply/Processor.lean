import DataGrid.Ordered.Set
import DataGrid.Reply.Basic

/-!
# Processors — waiting for every answer

A member that sends a request first makes a processor, which awaits each recipient until it has
replied or left the membership. A recipient is resolved once and then stays as it is. When the
last one is resolved the processor is complete; a cancellation ends it at once. Nothing changes a
processor that has ended.

    awaiting ──(last reply or departure)──▶ completed
        └────(cancellation)──────────────▶ cancelled
-/

namespace DataGrid

/-- How a processor ended. -/
inductive Ending where
  /-- Every recipient was resolved. -/
  | completed
  | cancelled (sender : Member) (cause : String)
  deriving DecidableEq, Repr

/-- The answers to one request. -/
structure Processor where
  /-- The recipients that are still awaited. -/
  pending : OrdSet Member
  replies : OrdMap Member Reply := .empty
  exceptions : OrdMap Member ReplyException := .empty
  /-- The recipients that declined the request, with the cause they gave. -/
  ignored : OrdMap Member (Option ReplyException) := .empty
  /-- The recipients whose answer said that it is their last. -/
  closed : OrdSet Member := .empty
  /-- The recipients that left before they answered. -/
  departed : OrdSet Member := .empty
  ending : Option Ending := none

/-- The answers that a complete processor collected. -/
structure Outcome where
  replies : OrdMap Member Reply
  ignored : OrdMap Member (Option ReplyException)
  closed : OrdSet Member
  departed : OrdSet Member

namespace Outcome

/-- The members that could not apply a delta and want the whole value. -/
def needsFullValue (o : Outcome) : List Member :=
  (o.ignored.filter fun _ cause => cause.any ReplyException.wantsFullValue).keys

end Outcome

/-- Why a wait for answers has no outcome. -/
inductive ReplyError where
  /-- Some recipients have not answered. A later wait may still succeed. -/
  | timeout (processor : Int32) (pending : List Member)
  | cancelled (sender : Member) (cause : String)
  /-- Some recipients failed. -/
  | remote (failures : OrdMap Member ReplyException)

namespace ReplyError

/-- The error's name. -/
def name : ReplyError → String
  | .timeout .. => "Timeout"
  | .cancelled .. => "Cancelled"
  | .remote _ => "Remote"

/-- What the error says. -/
def message : ReplyError → String
  | .timeout processor _ => s!"Timed out waiting on processor {processor.toInt}"
  | .cancelled sender cause => s!"Processor cancelled by {sender.display}: " ++ cause
  | .remote failures =>
    s!"{failures.size} member(s) failed"
      ++ String.join (failures.entries.map fun (m, e) => s!"; {m.display}: {e.display}")

end ReplyError

namespace Processor

/-- Whether the processor has ended. -/
def isDone (p : Processor) : Bool := p.ending.isSome

/-- The processor, complete if it has not ended and awaits nobody. -/
def complete (p : Processor) : Processor :=
  if p.isDone || !p.pending.isEmpty then p else { p with ending := some .completed }

/-- Whether a recipient is still awaited. -/
def awaits (p : Processor) (m : Member) : Bool := !p.isDone && p.pending.contains m

/-- Files an answer where it belongs. -/
def file (p : Processor) (sender : Member) (r : Reply) : Processor :=
  let p := if r.closed then { p with closed := p.closed.insert sender } else p
  if r.ignored then { p with ignored := p.ignored.insert sender r.exception? }
  else
    match r.exception? with
    | some e => { p with exceptions := p.exceptions.insert sender e }
    | none => { p with replies := p.replies.insert sender r }

/-- Takes an answer. One from a member that is not awaited is passed over. -/
def reply (p : Processor) (sender : Member) (r : Reply) : Processor :=
  if p.awaits sender then
    (({ p with pending := p.pending.erase sender }).file sender r).complete
  else p

/-- Takes note that a member left. -/
def depart (p : Processor) (m : Member) : Processor :=
  if p.awaits m then
    ({ p with pending := p.pending.erase m, departed := p.departed.insert m }).complete
  else p

/-- Ends the processor before its recipients are resolved. -/
def cancel (p : Processor) (sender : Member) (cause : String) : Processor :=
  if p.isDone then p else { p with ending := some (.cancelled sender cause) }

/-- A processor for the answers of recipients. Those that are no members have left already. -/
def await (recipients : List Member) (isMember : Member → Bool) : Processor :=
  let expected := OrdSet.ofList recipients
  let absent := expected.toList.filter fun m => !isMember m
  (absent.foldl depart { pending := expected }).complete

/-- The answers of a processor that has ended. A cancellation hides them, and failures hide the
other answers. -/
def outcome (p : Processor) : Except ReplyError Outcome :=
  match p.ending with
  | some (.cancelled sender cause) => .error (.cancelled sender cause)
  | _ =>
    if p.exceptions.isEmpty then
      .ok { replies := p.replies, ignored := p.ignored, closed := p.closed, departed := p.departed }
    else .error (.remote p.exceptions)

/-- What a wait gives that ends now: the outcome, or a timeout under the processor's id. -/
def wait (p : Processor) (id : Int32) : Except ReplyError Outcome :=
  if p.isDone then p.outcome else .error (.timeout id p.pending.toList)

end Processor

end DataGrid
