import DataGrid.Proofs.Ordered.Lookup
import DataGrid.Reply.Keeper
import Mathlib.Data.List.TakeWhile
import Mathlib.Logic.Function.Basic

/-!
# Fates — what becomes of each recipient

Of all that happens to a processor only the first event about each recipient leaves a trace: that
is the recipient's fate. A processor records fates and nothing else (`Processor.Records`), and
every step keeps that up, so whatever a run collected can be read off the events alone
(`run_await_follows`).
-/

namespace DataGrid

/-- What can happen to a processor once it is registered. -/
inductive ProcessorEvent where
  | reply (sender : Member) (r : Reply)
  | departure (m : Member)
  | cancellation (sender : Member) (cause : String)

namespace ProcessorEvent

/-- The member that the event is about. A cancellation is about nobody. -/
def about? : ProcessorEvent → Option Member
  | .reply sender _ => some sender
  | .departure m => some m
  | .cancellation .. => none

/-- How the event ends a processor that awaits somebody. -/
def ending? : ProcessorEvent → Option Ending
  | .cancellation sender cause => some (.cancelled sender cause)
  | _ => none

def isCancellation (e : ProcessorEvent) : Bool := e.ending?.isSome

/-- The reply that is kept as an answer: neither declined nor a failure. -/
def answered : ProcessorEvent → Option Reply
  | .reply _ r => if r.ignored || r.isException then none else some r
  | _ => none

/-- The failure that is kept: the exception of a reply that does not decline. -/
def failed : ProcessorEvent → Option ReplyException
  | .reply _ r => if r.ignored then none else r.exception?
  | _ => none

/-- The cause of a reply that declines, if it states one. -/
def declined : ProcessorEvent → Option (Option ReplyException)
  | .reply _ r => if r.ignored then some r.exception? else none
  | _ => none

/-- Whether the event is a reply that says it is the last. -/
def isLast : ProcessorEvent → Bool
  | .reply _ r => r.closed
  | _ => false

def isDeparture : ProcessorEvent → Bool
  | .departure _ => true
  | _ => false

end ProcessorEvent

open ProcessorEvent

/-- The events before the first cancellation. -/
def early (events : List ProcessorEvent) : List ProcessorEvent :=
  events.takeWhile fun e => !e.isCancellation

/-- The first event about a recipient. One that is no member when the processor is registered has
left already, and a stranger has no fate. -/
def fate (recipients : List Member) (isMember : Member → Bool) (events : List ProcessorEvent)
    (m : Member) : Option ProcessorEvent :=
  if m ∈ recipients then
    if isMember m then events.find? (·.about? = some m) else some (.departure m)
  else none

/-- Whether every recipient has met its fate. -/
def AllResolved (recipients : List Member) (isMember : Member → Bool)
    (events : List ProcessorEvent) : Prop :=
  ∀ m ∈ recipients, isMember m = false ∨ ∃ e ∈ events, e.about? = some m

namespace Processor

/-- Lets an event happen to the processor. -/
def on (p : Processor) : ProcessorEvent → Processor
  | .reply sender r => p.reply sender r
  | .departure m => p.depart m
  | .cancellation sender cause => p.cancel sender cause

/-- Lets events happen in turn. -/
def run (p : Processor) (events : List ProcessorEvent) : Processor := events.foldl on p

theorem run_append (p : Processor) (events later : List ProcessorEvent) :
    p.run (events ++ later) = (p.run events).run later :=
  List.foldl_append

/-- **What a processor holds of the fates of its recipients.** Whoever has none is awaited, and
every fate stands in the collection that it belongs to. -/
structure Records (p : Processor) (recipients : List Member)
    (fates : Member → Option ProcessorEvent) : Prop where
  pending : ∀ m, p.pending.contains m = (decide (m ∈ recipients) && (fates m).isNone)
  replies : ∀ m, p.replies.get? m = (fates m).bind answered
  exceptions : ∀ m, p.exceptions.get? m = (fates m).bind failed
  ignored : ∀ m, p.ignored.get? m = (fates m).bind declined
  closed : ∀ m, p.closed.contains m = (fates m).any isLast
  departed : ∀ m, p.departed.contains m = (fates m).any isDeparture

end Processor

/-! ## Fates -/

variable {recipients : List Member} {isMember : Member → Bool} {events : List ProcessorEvent}

theorem fate_of_not_mem {m : Member} (h : m ∉ recipients) :
    fate recipients isMember events m = none := if_neg h

theorem mem_of_fate_eq_some {m : Member} {e : ProcessorEvent}
    (h : fate recipients isMember events m = some e) : m ∈ recipients := by
  by_contra hm
  rw [fate_of_not_mem hm] at h
  cases h

/-- A cancellation is nobody's fate. -/
theorem isCancellation_of_fate {m : Member} {e : ProcessorEvent}
    (h : fate recipients isMember events m = some e) : e.isCancellation = false := by
  rw [fate, if_pos (mem_of_fate_eq_some h)] at h
  cases hi : isMember m with
  | true =>
    rw [if_pos hi] at h
    have hfound := List.find?_some h
    have habout : e.about? = some m := of_decide_eq_true hfound
    cases e with
    | reply | departure => rfl
    | cancellation => cases habout
  | false =>
    obtain rfl : .departure m = e := by simpa [hi] using h
    rfl

/-- Recipients have met their fates when each is absent or some event is about it. -/
theorem allResolved_iff :
    AllResolved recipients isMember events
      ↔ ∀ m ∈ recipients, (fate recipients isMember events m).isSome := by
  refine forall₂_congr fun m hm => ?_
  rw [fate, if_pos hm]
  cases isMember m <;> simp

theorem AllResolved.append (h : AllResolved recipients isMember events)
    (later : List ProcessorEvent) : AllResolved recipients isMember (events ++ later) :=
  fun m hm => (h m hm).imp_right fun ⟨e, he, hem⟩ => ⟨e, List.mem_append_left _ he, hem⟩

/-- A fate is final. -/
theorem fate_append_of_isSome {m : Member} (h : (fate recipients isMember events m).isSome)
    (later : List ProcessorEvent) :
    fate recipients isMember (events ++ later) m = fate recipients isMember events m := by
  unfold fate at h ⊢
  split
  · next hm =>
    rw [if_pos hm] at h
    split
    · next hi =>
      rw [if_pos hi] at h
      rw [List.find?_append, Option.or_of_isSome h]
    · rfl
  · rfl

/-- Once all are resolved, later events decide nobody's fate. -/
theorem AllResolved.fate_append (h : AllResolved recipients isMember events)
    (later : List ProcessorEvent) :
    fate recipients isMember (events ++ later) = fate recipients isMember events := by
  funext m
  by_cases hm : m ∈ recipients
  · exact fate_append_of_isSome (allResolved_iff.1 h m hm) later
  · rw [fate_of_not_mem hm, fate_of_not_mem hm]

/-- One more event decides the fate of whom it is about, if that was open. -/
theorem fate_concat (e : ProcessorEvent) (m : Member) :
    fate recipients isMember (events ++ [e]) m
      = (fate recipients isMember events m).or
          (if m ∈ recipients ∧ e.about? = some m then some e else none) := by
  unfold fate
  by_cases hm : m ∈ recipients
  · by_cases hi : isMember m
    · simp only [hm, hi, if_true, true_and, List.find?_append, List.find?_singleton,
        decide_eq_true_eq]
    · simp [hm, hi]
  · simp [hm]

theorem early_eq_self (h : ∀ e ∈ events, e.isCancellation = false) : early events = events := by
  rw [early, List.takeWhile_eq_self_iff]
  intro e he
  simp [h e he]

theorem early_append_of_cancelled (h : ∃ e ∈ events, e.isCancellation)
    (later : List ProcessorEvent) : early (events ++ later) = early events := by
  obtain ⟨e, he, hc⟩ := h
  rw [early, List.takeWhile_append, if_neg]
  · rfl
  · intro hlen
    have heq : events.takeWhile (fun e => !e.isCancellation) = events :=
      (List.takeWhile_prefix _).eq_of_length hlen
    have := List.takeWhile_eq_self_iff.1 heq e he
    simp [hc] at this

end DataGrid
