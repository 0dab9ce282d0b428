import DataGrid.Proofs.Reply.Numbers

/-!
# Roll — every processor that was ever registered

A roll lists the processors of a keeper by their tickets, oldest first, with everything that
happened to each. Nothing leaves a roll, so it has no numbers to hand out again: a number names the
last processor that was registered under it, as long as that one waits (`Roll.reached?`).

A keeper follows a roll (`Keeper.Lists`) when its table has an entry for exactly the processors
that wait, and its processors are those of the roll that still have an owner. Every call keeps that
up, with the roll changed by the same call.
-/

namespace DataGrid

open ProcessorEvent

/-- A processor that was registered: under which number, for whom, and what happened since. -/
structure Enrolment where
  id : Int32
  recipients : List Member
  /-- Who was a member when the processor was registered. -/
  isMember : Member → Bool
  /-- What happened to the processor, oldest first. -/
  events : List ProcessorEvent := []
  /-- Whether its maker has not let go of it. -/
  owned : Bool := true
  /-- How many others hold on to it. -/
  holders : Nat := 0

namespace Enrolment

/-- The processor as it is by now. -/
def processor (x : Enrolment) : Processor := (Processor.await x.recipients x.isMember).run x.events

/-- What a keeper holds of the processor while it has an owner. -/
def registration (x : Enrolment) : Registration :=
  { id := x.id, processor := x.processor, owned := x.owned, holders := x.holders }

/-- Whether the processor has an owner. -/
def isKept (x : Enrolment) : Bool := x.owned || 0 < x.holders

/-- Whether the processor waits: neither completed, nor cancelled, nor dropped by its maker. -/
def waits (x : Enrolment) : Bool := x.owned && !x.processor.isDone

/-- One more event happens to a processor that has an owner. -/
def note (x : Enrolment) (e : ProcessorEvent) : Enrolment :=
  if x.isKept then { x with events := x.events ++ [e] } else x

end Enrolment

/-- What can be asked of a keeper and of its processors. -/
inductive KeeperCall where
  | register (recipients : List Member) (isMember : Member → Bool)
  /-- An answer is handed to the processor that it names. -/
  | processReply (sender : Member) (r : Reply)
  /-- Every processor of the table hears that a member left. -/
  | memberDeparted (m : Member)
  /-- Something happens to the processor of a ticket. -/
  | event (ticket : Nat) (e : ProcessorEvent)
  /-- The maker of a processor lets go of it. -/
  | drop (ticket : Nat)
  /-- Somebody else holds on to a processor. -/
  | hold (ticket : Nat)
  /-- Somebody else lets go of a processor. -/
  | release (ticket : Nat)

/-- The processors of a keeper by their tickets. -/
abbrev Roll := List Enrolment

namespace Roll

/-- The last of the first `n` processors that was registered under a number. -/
def latestBefore (l : Roll) (id : Int32) : (n : Nat) → Option Nat
  | 0 => none
  | n + 1 => if l[n]?.any (·.id = id) then some n else latestBefore l id n

/-- The last processor that was registered under a number. -/
def latest? (l : Roll) (id : Int32) : Option Nat := latestBefore l id l.length

/-- **The processor that a number names**: the last one that was registered under it, if that one
waits. -/
def reached? (l : Roll) (id : Int32) : Option Nat :=
  (l.latest? id).filter fun ticket => l[ticket]?.any Enrolment.waits

/-- The roll after a call, in which a registration is given a number. -/
def call (l : Roll) (id : Int32) : KeeperCall → Roll
  | .register recipients isMember => l ++ [{ id, recipients, isMember }]
  | .processReply sender r =>
    match l.reached? r.processor with
    | some ticket => l.modify ticket (·.note (.reply sender r))
    | none => l
  | .memberDeparted m => l.map fun x => if x.waits then x.note (.departure m) else x
  | .event ticket e => l.modify ticket (·.note e)
  | .drop ticket => l.modify ticket fun x => { x with owned := false }
  | .hold ticket =>
    l.modify ticket fun x => if x.isKept then { x with holders := x.holders + 1 } else x
  | .release ticket => l.modify ticket fun x => { x with holders := x.holders - 1 }

end Roll

namespace Keeper

/-- Whether there is a number for one more processor. Without one, a registration goes on looking
for a number and never has a result. -/
def hasNumber (k : Keeper) : Bool := (k.searchId (k.table.size + 1)).isSome

/-- The keeper after a call, if the call has a result. -/
def call? (k : Keeper) : KeeperCall → Option Keeper
  | .register recipients isMember =>
    if k.hasNumber then some (k.register (.await recipients isMember)).2 else none
  | .processReply sender r => some (k.processReply sender r).2
  | .memberDeparted m => some (k.memberDeparted m)
  | .event ticket e => some (k.on ticket e)
  | .drop ticket => some (k.drop ticket)
  | .hold ticket => some (k.hold ticket)
  | .release ticket => some (k.release ticket)

/-- **Whether a keeper follows a roll.** -/
structure Lists (k : Keeper) (l : Roll) : Prop where
  tickets : k.tickets = l.length
  live : ∀ t, k.get? t = (l[t]?.filter Enrolment.isKept).map Enrolment.registration
  table : ∀ id t, k.table.get? id = some t ↔ ∃ x : Enrolment, l[t]? = some x ∧ x.id = id ∧ x.waits
  /-- Of two processors under one number the older does not wait. -/
  older : ∀ (t t' : Nat) (x x' : Enrolment), l[t]? = some x → l[t']? = some x' → x.id = x'.id →
    t < t' → x.waits = false
  positive : ∀ x ∈ l, 0 < x.id.toInt
  next : 0 < k.next.toInt

end Keeper

/-! ## Enrolments -/

namespace Enrolment

variable {x y : Enrolment}

theorem isKept_of_waits (h : x.waits) : x.isKept := by
  rw [waits, Bool.and_eq_true] at h
  rw [isKept, h.1, Bool.true_or]

@[simp] theorem id_note (x : Enrolment) (e : ProcessorEvent) : (x.note e).id = x.id := by
  unfold note
  split <;> rfl

theorem note_of_isKept (h : x.isKept) (e : ProcessorEvent) :
    x.note e = { x with events := x.events ++ [e] } := if_pos h

theorem processor_note (h : x.isKept) (e : ProcessorEvent) :
    (x.note e).processor = x.processor.on e := by
  rw [note_of_isKept h]
  exact Processor.run_append _ x.events [e]

/-- **Who does not wait never waits again**, whatever happens. -/
theorem waits_note_of_not (h : x.waits = false) (e : ProcessorEvent) :
    (x.note e).waits = false := by
  unfold note
  split
  · next hkept =>
    rw [waits, Bool.and_eq_false_iff] at h ⊢
    rcases h with h | h
    · exact .inl h
    · right
      have hdone : x.processor.isDone := by simpa using h
      have hsame := processor_note hkept e
      rw [note_of_isKept hkept, Processor.on_of_isDone hdone] at hsame
      rw [hsame, hdone]
      rfl
  · exact h

end Enrolment

namespace Roll

variable {l : Roll} {id : Int32} {t : Nat} {x : Enrolment}

theorem latestBefore_eq_some_iff {n : Nat} :
    latestBefore l id n = some t ↔ t < n ∧ (∃ x : Enrolment, l[t]? = some x ∧ x.id = id)
      ∧ ∀ (t' : Nat) (x' : Enrolment), t < t' → t' < n → l[t']? = some x' → x'.id ≠ id := by
  induction n with
  | zero => exact ⟨nofun, fun h => absurd h.1 (Nat.not_lt_zero _)⟩
  | succ n ih =>
    rw [latestBefore]
    by_cases hn : l[n]?.any (·.id = id)
    · rw [if_pos hn]
      obtain ⟨x, hx, hid⟩ := Option.any_eq_true _ _ |>.1 hn
      have hid : x.id = id := of_decide_eq_true hid
      constructor
      · intro h
        obtain rfl := Option.some.inj h
        exact ⟨Nat.lt_succ_self n, ⟨x, hx, hid⟩, fun t' _ h1 h2 => by omega⟩
      · rintro ⟨hlt, -, hlast⟩
        by_contra hne
        have hne : n ≠ t := fun heq => hne (congrArg some heq)
        exact hlast n x (by omega) (Nat.lt_succ_self n) hx hid
    · rw [if_neg hn, ih]
      have hnone : ∀ x, l[n]? = some x → x.id ≠ id := fun x hx hid =>
        hn (by rw [hx]; exact decide_eq_true hid)
      constructor
      · rintro ⟨hlt, hx, hlast⟩
        refine ⟨by omega, hx, fun t' x' h1 h2 hx' => ?_⟩
        by_cases ht' : t' = n
        · exact hnone x' (ht' ▸ hx')
        · exact hlast t' x' h1 (by omega) hx'
      · rintro ⟨hlt, ⟨x, hx, hid⟩, hlast⟩
        have hne : t ≠ n := fun heq => hnone x (heq ▸ hx) hid
        exact ⟨by omega, ⟨x, hx, hid⟩, fun t' x' h1 h2 => hlast t' x' h1 (by omega)⟩

theorem lt_length (h : l[t]? = some x) : t < l.length := (List.getElem?_eq_some_iff.1 h).1

/-- The last processor under a number is the one behind which the number does not come again. -/
theorem latest?_eq_some_iff :
    l.latest? id = some t ↔ (∃ x : Enrolment, l[t]? = some x ∧ x.id = id)
      ∧ ∀ (t' : Nat) (x' : Enrolment), t < t' → l[t']? = some x' → x'.id ≠ id := by
  rw [latest?, latestBefore_eq_some_iff]
  constructor
  · rintro ⟨-, hx, hlast⟩
    exact ⟨hx, fun t' x' h1 hx' => hlast t' x' h1 (lt_length hx') hx'⟩
  · rintro ⟨⟨x, hx, hid⟩, hlast⟩
    exact ⟨lt_length hx, ⟨x, hx, hid⟩, fun t' x' h1 _ => hlast t' x' h1⟩

theorem reached?_eq_some_iff :
    l.reached? id = some t ↔ (∃ x : Enrolment, l[t]? = some x ∧ x.id = id ∧ x.waits)
      ∧ ∀ (t' : Nat) (x' : Enrolment), t < t' → l[t']? = some x' → x'.id ≠ id := by
  rw [reached?, Option.filter_eq_some_iff, latest?_eq_some_iff]
  constructor
  · rintro ⟨⟨⟨x, hx, hid⟩, hlast⟩, hwaits⟩
    rw [hx] at hwaits
    exact ⟨⟨x, hx, hid, hwaits⟩, hlast⟩
  · rintro ⟨⟨x, hx, hid, hwaits⟩, hlast⟩
    exact ⟨⟨⟨x, hx, hid⟩, hlast⟩, by rw [hx]; exact hwaits⟩

end Roll

end DataGrid
