import DataGrid.Fabric.TaskQueue

/-!
# Queueing — what goes into a task queue comes out of it

Items are pushed to a queue under two priorities and popped, and at some time the queue is closed.
A run keeps two accounts of that: what the queue took and what it gave out, each item with its
priority. For either priority, what was given out and what is still queued are together what was
taken, in the order of the pushes (`TaskQueue.lane_after`). From this equation follows all that is
said of a run (`TaskQueue.run_orderly`): nothing is lost or given out twice, urgent items leave
first, and a closed queue takes nothing more and gives out the rest before it reports its end.
-/

namespace DataGrid

namespace TaskQueue

/-- What can be done with a queue. -/
inductive Act (α : Type) where
  | push (a : α) (priority : Priority)
  | tryPop
  | pop
  | close

open scoped List

variable {α : Type}

/-! ## Runs and their accounts -/

/-- The items that wait under a priority, oldest first. -/
def lane (q : TaskQueue α) : Priority → List α
  | .high => q.high
  | .normal => q.normal

/-- The priority of the item whose turn it is. -/
def turn (q : TaskQueue α) : Priority := if q.high.isEmpty then .normal else .high

/-- The queue after an act. -/
def act (q : TaskQueue α) : Act α → TaskQueue α
  | .push a priority => (q.push a priority).2
  | .tryPop => q.tryPop.2
  | .pop => q.pop.2
  | .close => q.close

/-- The item that an act puts into the queue, if the queue takes it. -/
def taken? (q : TaskQueue α) : Act α → Option (Priority × α)
  | .push a priority => if (q.push a priority).1 then some (priority, a) else none
  | .tryPop | .pop | .close => none

/-- The item that the queue gives out at an act, under the priority whose turn it is. -/
def given? (q : TaskQueue α) : Act α → Option (Priority × α)
  | .tryPop => q.tryPop.1.map (q.turn, ·)
  | .pop =>
    match q.pop.1 with
    | .item a => some (q.turn, a)
    | .finished | .waiting => none
  | .push .. | .close => none

/-- The queue after a run. -/
def after (q : TaskQueue α) (acts : List (Act α)) : TaskQueue α := acts.foldl act q

/-- What the queue takes in a run. -/
def taken (q : TaskQueue α) : List (Act α) → List (Priority × α)
  | [] => []
  | a :: acts => (q.taken? a).toList ++ (q.act a).taken acts

/-- What the queue gives out in a run. -/
def given (q : TaskQueue α) : List (Act α) → List (Priority × α)
  | [] => []
  | a :: acts => (q.given? a).toList ++ (q.act a).given acts

/-- The items of an account that have a priority. -/
def itemsOf (priority : Priority) (account : List (Priority × α)) : List α :=
  (account.filter (·.1 = priority)).map (·.2)

/-- **What is true of a queue after a run**, by what it took and what it gave out. -/
structure Orderly (q : TaskQueue α) (acts : List (Act α)) (taken given : List (Priority × α)) :
    Prop where
  /-- Under either priority, what was given out and what waits are what was taken, in order. -/
  lanes : ∀ priority, itemsOf priority given ++ q.lane priority = itemsOf priority taken
  /-- Nothing is lost, and nothing is there twice. -/
  items : (given.map (·.2) ++ q.toList).Perm (taken.map (·.2))
  size : given.length ≤ taken.length ∧ q.size = taken.length - given.length
  /-- The item that leaves is the oldest of its priority, and one of normal priority leaves only
  when no urgent one waits. -/
  leaves : ∀ act priority a, q.given? act = some (priority, a) →
    q.lane priority = a :: (q.act act).lane priority
      ∧ (priority = .normal → q.lane .high = [] ∧ itemsOf .high given = itemsOf .high taken)
  /-- Whoever tries to pop gets an item unless all that was taken is gone. -/
  tries : q.tryPop.1 = none ↔ given.length = taken.length
  refuses : ∀ a priority, (q.push a priority).1 = false ↔ .close ∈ acts
  /-- A push that is refused changes nothing. -/
  unchanged : ∀ a priority, (q.push a priority).1 = false → (q.push a priority).2 = q
  /-- The end is reported once the queue is closed and all that was taken is gone. -/
  finishes : q.pop.1 = .finished ↔ .close ∈ acts ∧ given.length = taken.length
  /-- Only at an open queue with nothing left does a pop have to wait. -/
  waits : q.pop.1 = .waiting ↔ .close ∉ acts ∧ given.length = taken.length
  /-- A closed queue takes nothing more, gives out what is left as it stands, and reports the end
  when that is gone. -/
  drains : .close ∈ acts → ∀ later, q.taken later = []
    ∧ (q.given later).map (·.2) ++ (q.after later).toList = q.toList
    ∧ ((q.after later).pop.1 = .finished ↔ (q.given later).map (·.2) = q.toList)
  /-- To drain a queue is to pop it until nothing is left. -/
  drained : q.drain = ((q.given (.replicate q.size .tryPop)).map (·.2),
    q.after (.replicate q.size .tryPop))

variable (q : TaskQueue α) (acts : List (Act α))

/-! ## One act -/

theorem push_of_closed {q : TaskQueue α} (h : q.closed) (a : α) (priority : Priority) :
    q.push a priority = (false, q) := if_pos h

theorem push_of_open {q : TaskQueue α} (h : q.closed = false) (a : α) (priority : Priority) :
    (q.push a priority).1 = true
      ∧ ∀ p, (q.push a priority).2.lane p = q.lane p ++ if p = priority then [a] else [] := by
  unfold push
  rw [if_neg (by rw [h]; exact Bool.false_ne_true)]
  cases priority <;> exact ⟨rfl, fun p => by cases p <;> simp [lane]⟩

theorem push_eq_false_iff (a : α) (priority : Priority) :
    (q.push a priority).1 = false ↔ q.closed := by
  cases h : q.closed with
  | true => simp [push_of_closed h]
  | false => simp [(push_of_open h a priority).1]

/-- What a queue without items, and one with items, gives out. -/
theorem tryPop_cases : (q.toList = [] ∧ q.tryPop = (none, q))
    ∨ ∃ a, q.tryPop.1 = some a ∧ q.toList = a :: q.tryPop.2.toList
      ∧ q.lane q.turn = a :: q.tryPop.2.lane q.turn
      ∧ (∀ p, p ≠ q.turn → q.tryPop.2.lane p = q.lane p) ∧ (q.turn = .normal → q.high = [])
      ∧ q.tryPop.2.closed = q.closed := by
  obtain ⟨high, normal, closed⟩ := q
  cases high with
  | cons a high =>
    refine .inr ⟨a, rfl, rfl, rfl, fun p hp => ?_, nofun, rfl⟩
    cases p with
    | normal => rfl
    | high => exact absurd rfl hp
  | nil =>
    cases normal with
    | nil => exact .inl ⟨rfl, rfl⟩
    | cons a normal =>
      refine .inr ⟨a, rfl, rfl, rfl, fun p hp => ?_, fun _ => rfl, rfl⟩
      cases p with
      | normal => exact absurd rfl hp
      | high => rfl

theorem tryPop_eq_none_iff : q.tryPop.1 = none ↔ q.toList = [] := by
  rcases q.tryPop_cases with ⟨hempty, htry⟩ | ⟨a, ha, htoList, -⟩
  · rw [htry, hempty]
    exact ⟨fun _ => rfl, fun _ => rfl⟩
  · rw [ha, htoList]
    exact ⟨nofun, nofun⟩

/-- A pop gives out what a try gives out. -/
theorem pop_eq : q.pop = match q.tryPop.1 with
    | some a => (.item a, q.tryPop.2)
    | none => (if q.closed then .finished else .waiting, q) := by
  rcases q.tryPop_cases with ⟨-, htry⟩ | ⟨a, ha, -⟩
  · rw [pop, htry]
  · have htry : q.tryPop = (some a, q.tryPop.2) := by rw [← ha]
    rw [pop, htry]

theorem pop_eq_finished_iff : q.pop.1 = .finished ↔ q.closed ∧ q.toList = [] := by
  rw [← tryPop_eq_none_iff, pop_eq]
  cases q.tryPop.1 <;> cases q.closed <;> simp

theorem pop_eq_waiting_iff : q.pop.1 = .waiting ↔ ¬q.closed ∧ q.toList = [] := by
  rw [← tryPop_eq_none_iff, pop_eq]
  cases q.tryPop.1 <;> cases q.closed <;> simp

theorem act_pop : q.act .pop = q.act .tryPop := by
  rw [act, act, pop_eq]
  rcases q.tryPop_cases with ⟨-, htry⟩ | ⟨a, ha, -⟩
  · rw [htry]
  · rw [ha]

theorem given?_pop : q.given? .pop = q.given? .tryPop := by
  rw [given?, given?, pop_eq]
  cases q.tryPop.1 with
  | some a => rfl
  | none =>
    dsimp only
    cases q.closed <;> rfl

theorem given?_tryPop_eq_some_iff {priority : Priority} {a : α} :
    q.given? .tryPop = some (priority, a) ↔ q.tryPop.1 = some a ∧ q.turn = priority := by
  rw [given?, Option.map_eq_some_iff]
  simp only [Prod.mk.injEq]
  constructor
  · rintro ⟨b, hb, hturn, rfl⟩
    exact ⟨hb, hturn⟩
  · exact fun ⟨ha, hturn⟩ => ⟨a, ha, hturn, rfl⟩

/-- The item that leaves is the oldest of its priority, and no urgent one waits behind a normal
one. -/
theorem lane_of_given? {a : Act α} {priority : Priority} {x : α}
    (h : q.given? a = some (priority, x)) :
    q.lane priority = x :: (q.act a).lane priority ∧ (priority = .normal → q.high = []) := by
  have htry : q.given? .tryPop = some (priority, x) ∧ q.act a = q.act .tryPop := by
    cases a with
    | tryPop => exact ⟨h, rfl⟩
    | pop => exact ⟨q.given?_pop ▸ h, q.act_pop⟩
    | push => cases h
    | close => cases h
  obtain ⟨hpopped, rfl⟩ := q.given?_tryPop_eq_some_iff.1 htry.1
  rcases q.tryPop_cases with ⟨-, hnone⟩ | ⟨b, hb, -, hturn, -, hhigh, -⟩
  · rw [hnone] at hpopped
    cases hpopped
  · obtain rfl := Option.some.inj (hb.symm.trans hpopped)
    rw [htry.2]
    exact ⟨hturn, hhigh⟩

theorem itemsOf_append (priority : Priority) (l r : List (Priority × α)) :
    itemsOf priority (l ++ r) = itemsOf priority l ++ itemsOf priority r := by
  rw [itemsOf, List.filter_append, List.map_append]
  rfl

/-- An account by its two priorities. -/
theorem perm_itemsOf (account : List (Priority × α)) :
    (account.map (·.2)).Perm (itemsOf .high account ++ itemsOf .normal account) := by
  have hsplit := (List.filter_append_perm (fun e : Priority × α => e.1 = .high) account).symm
  have hnormal : account.filter (fun e => !decide (e.1 = .high))
      = account.filter (fun e => e.1 = .normal) := by
    refine List.filter_congr fun e _ => ?_
    cases e.1 <;> rfl
  rw [hnormal] at hsplit
  have hmap := hsplit.map (·.2)
  rwa [List.map_append] at hmap

/-- **What an act does to the items of a priority**: what it gives out goes from the front, and
what it puts in comes behind the rest. -/
theorem lane_act (a : Act α) (p : Priority) :
    itemsOf p (q.given? a).toList ++ (q.act a).lane p
      = q.lane p ++ itemsOf p (q.taken? a).toList := by
  have hpop : itemsOf p (q.given? .tryPop).toList ++ (q.act .tryPop).lane p
      = q.lane p ++ itemsOf p (q.taken? .tryPop).toList := by
    rw [given?, act, taken?]
    rcases q.tryPop_cases with ⟨-, htry⟩ | ⟨a, ha, -, hturn, hother, -⟩
    · rw [htry]
      exact (List.append_nil _).symm
    · rw [ha]
      by_cases hp : q.turn = p
      · subst hp
        rw [hturn]
        simp [itemsOf]
      · rw [hother p (Ne.symm hp)]
        simp [itemsOf, hp]
  cases a with
  | push a priority =>
    cases h : q.closed with
    | true => simp [given?, taken?, act, push_of_closed h, itemsOf]
    | false =>
      obtain ⟨htook, hlane⟩ := push_of_open h a priority
      rw [given?, taken?, act, htook, hlane]
      by_cases hp : priority = p
      · simp [itemsOf, hp]
      · simp [itemsOf, hp, Ne.symm hp]
  | tryPop => exact hpop
  | pop =>
    rw [given?_pop, act_pop]
    exact hpop
  | close => exact (List.append_nil _).symm

theorem closed_act (a : Act α) : (q.act a).closed ↔ q.closed ∨ a = .close := by
  have hpop : (q.act .tryPop).closed = q.closed := by
    rw [act]
    rcases q.tryPop_cases with ⟨-, htry⟩ | ⟨a, -, -, -, -, -, hclosed⟩
    · rw [htry]
    · exact hclosed
  cases a with
  | push a priority =>
    cases h : q.closed with
    | true => simp [act, push_of_closed h, h]
    | false =>
      have hpush : (q.push a priority).2.closed = q.closed := by
        unfold push
        cases priority <;> simp [h]
      simp [act, hpush, h]
  | tryPop => simp [hpop]
  | pop => simp [act_pop, hpop]
  | close => simp [act, close]

/-- A closed queue only gives out, in the order in which its items leave. -/
theorem toList_act_of_closed {q : TaskQueue α} (h : q.closed) (a : Act α) :
    q.taken? a = none
      ∧ (q.given? a).toList.map (·.2) ++ (q.act a).toList = q.toList := by
  have hpop : (q.given? .tryPop).toList.map (·.2) ++ (q.act .tryPop).toList = q.toList := by
    rw [given?, act]
    rcases q.tryPop_cases with ⟨-, htry⟩ | ⟨a, ha, htoList, -⟩
    · rw [htry]
      rfl
    · rw [ha, htoList]
      rfl
  cases a with
  | push a priority =>
    rw [taken?, given?, act, push_of_closed h]
    exact ⟨rfl, rfl⟩
  | tryPop => exact ⟨rfl, hpop⟩
  | pop =>
    rw [given?_pop, act_pop]
    exact ⟨rfl, hpop⟩
  | close => exact ⟨rfl, rfl⟩

/-! ## Every run -/

/-- **Nothing is lost, and nothing overtakes within its priority.** -/
theorem lane_after (p : Priority) :
    itemsOf p (q.given acts) ++ (q.after acts).lane p
      = q.lane p ++ itemsOf p (q.taken acts) := by
  induction acts generalizing q with
  | nil => exact (List.append_nil _).symm
  | cons a acts ih =>
    calc itemsOf p ((q.given? a).toList ++ (q.act a).given acts) ++ ((q.act a).after acts).lane p
      _ = itemsOf p (q.given? a).toList ++ ((q.act a).lane p
          ++ itemsOf p ((q.act a).taken acts)) := by rw [itemsOf_append, List.append_assoc, ih]
      _ = q.lane p ++ (itemsOf p (q.taken? a).toList ++ itemsOf p ((q.act a).taken acts)) := by
          rw [← List.append_assoc, lane_act, List.append_assoc]
      _ = q.lane p ++ itemsOf p ((q.taken? a).toList ++ (q.act a).taken acts) := by
          rw [itemsOf_append]

theorem closed_after : (q.after acts).closed ↔ q.closed ∨ .close ∈ acts := by
  induction acts generalizing q with
  | nil => simp [after]
  | cons a acts ih =>
    show ((q.act a).after acts).closed ↔ _
    rw [ih, closed_act, List.mem_cons, or_assoc, eq_comm (a := a)]

/-- What a closed queue does in a run. -/
theorem toList_after_of_closed {q : TaskQueue α} (h : q.closed) :
    q.taken acts = [] ∧ (q.given acts).map (·.2) ++ (q.after acts).toList = q.toList := by
  induction acts generalizing q with
  | nil => exact ⟨rfl, rfl⟩
  | cons a acts ih =>
    obtain ⟨htook, hgave⟩ := toList_act_of_closed h a
    obtain ⟨htaken, hgiven⟩ := ih ((q.closed_act a).2 (.inl h))
    refine ⟨?_, ?_⟩
    · rw [taken, htook, htaken]
      rfl
    · show ((q.given? a).toList ++ (q.act a).given acts).map (·.2)
        ++ ((q.act a).after acts).toList = _
      rw [List.map_append, List.append_assoc, hgiven, hgave]

theorem size_eq : q.size = q.toList.length := List.length_append.symm

/-- To drain a queue is to pop it as often as it has items. -/
theorem drain_eq : q.drain = ((q.given (.replicate q.size .tryPop)).map (·.2),
    q.after (.replicate q.size .tryPop)) := by
  -- By the number of items: a queue that has one gives it out and has one less.
  induction hsize : q.size generalizing q with
  | zero =>
    rw [size_eq, List.length_eq_zero_iff] at hsize
    obtain ⟨high, normal, closed⟩ := q
    obtain ⟨hhigh, hnormal⟩ := List.append_eq_nil_iff.1 hsize
    obtain rfl : high = [] := hhigh
    obtain rfl : normal = [] := hnormal
    rfl
  | succ n ih =>
    rcases q.tryPop_cases with ⟨hempty, -⟩ | ⟨a, ha, htoList, -, -, -, hclosed⟩
    · rw [size_eq, hempty] at hsize
      cases hsize
    · have hrest : q.tryPop.2.size = n := by
        rw [size_eq, htoList] at hsize
        rw [size_eq]
        exact Nat.succ.inj hsize
      obtain ⟨hgiven, hafter⟩ := Prod.mk.inj (ih q.tryPop.2 hrest)
      refine Prod.ext ?_ ?_
      · show q.toList = ((q.given? .tryPop).toList ++ q.tryPop.2.given _).map (·.2)
        rw [given?, ha, htoList, hgiven]
        rfl
      · show ({ closed := q.closed } : TaskQueue α) = q.tryPop.2.after _
        rw [← hafter, ← hclosed]

/-- Under either priority, what a new queue gave out and what it has are what it took. -/
theorem lane_run (p : Priority) :
    itemsOf p (given {} acts) ++ (after {} acts).lane p
      = itemsOf p (taken ({} : TaskQueue α) acts) := by
  rw [lane_after]
  cases p <;> rfl

/-- What a new queue gave out and what it has are what it took, in some order. -/
theorem perm_run :
    ((given {} acts).map (·.2) ++ (after {} acts).toList).Perm
      ((taken ({} : TaskQueue α) acts).map (·.2)) :=
  calc (given {} acts).map (·.2) ++ (after {} acts).toList
    _ ~ (itemsOf .high (given {} acts) ++ itemsOf .normal (given {} acts))
        ++ ((after {} acts).lane .high ++ (after {} acts).lane .normal) :=
      (perm_itemsOf _).append_right _
    _ ~ (itemsOf .high (given {} acts) ++ (after {} acts).lane .high)
        ++ (itemsOf .normal (given {} acts) ++ (after {} acts).lane .normal) := by
      rw [List.append_assoc, List.append_assoc]
      exact List.Perm.append_left _ (List.perm_append_comm_assoc ..)
    _ = itemsOf .high (taken {} acts) ++ itemsOf .normal (taken {} acts) := by
      rw [lane_run, lane_run]
    _ ~ (taken {} acts).map (·.2) := (perm_itemsOf _).symm

/-- **Whatever is done with a new queue, it is orderly**: what it gave out and what it has are what
it took, oldest first within a priority and urgent items before all others; it refuses pushes just
when it is closed, gives out what is left then, and reports its end when nothing is. -/
theorem run_orderly :
    Orderly (after {} acts) acts (taken {} acts) (given ({} : TaskQueue α) acts) := by
  have hlanes := lane_run (α := α) acts
  have hitems := perm_run (α := α) acts
  have hclosed : (after ({} : TaskQueue α) acts).closed ↔ .close ∈ acts := by
    rw [closed_after]
    exact or_iff_right Bool.false_ne_true
  have hsize : (given ({} : TaskQueue α) acts).length + (after ({} : TaskQueue α) acts).size
      = (taken ({} : TaskQueue α) acts).length := by
    have hlength := hitems.length_eq
    rwa [List.length_append, List.length_map, List.length_map, ← size_eq] at hlength
  have hempty : (after ({} : TaskQueue α) acts).toList = []
      ↔ (given ({} : TaskQueue α) acts).length = (taken ({} : TaskQueue α) acts).length := by
    rw [← List.length_eq_zero_iff, ← size_eq]
    omega
  generalize after ({} : TaskQueue α) acts = q at *
  refine ⟨hlanes, hitems, by omega, fun act p a hgave => ?_, q.tryPop_eq_none_iff.trans hempty,
    fun a p => (q.push_eq_false_iff a p).trans hclosed, fun a p hrefused => ?_, ?_, ?_,
    fun hclose later => ?_, q.drain_eq⟩
  · obtain ⟨hlane, hhigh⟩ := q.lane_of_given? hgave
    refine ⟨hlane, fun hnormal => ⟨hhigh hnormal, ?_⟩⟩
    have hgone := hlanes .high
    rwa [show q.lane .high = [] from hhigh hnormal, List.append_nil] at hgone
  · rw [push_of_closed ((q.push_eq_false_iff a p).1 hrefused)]
  · rw [pop_eq_finished_iff, hclosed, hempty]
  · rw [pop_eq_waiting_iff, hclosed, hempty]
  · have hq := hclosed.2 hclose
    obtain ⟨htaken, hgiven⟩ := toList_after_of_closed later hq
    refine ⟨htaken, hgiven, ?_⟩
    rw [pop_eq_finished_iff, closed_after, ← hgiven]
    simp [hq]

/-- Urgent items leave first, and those of one priority in the order of their pushes. -/
example : (given ({} : TaskQueue Nat) [.push 1 .normal, .push 2 .high, .push 3 .normal,
    .push 4 .high, .close, .push 5 .high, .pop, .tryPop, .pop, .pop, .pop]).map (·.2)
    = [2, 4, 1, 3] := by decide

end TaskQueue

end DataGrid
