import DataGrid.Proofs.Reply.Run

/-!
# Resolution — every recipient stands in one place

Whatever is said to a processor, its recipients are those it was registered for, and each of them
stands in exactly one collection: it is awaited, or it is resolved by an answer, a failure, a
refusal or a departure (`Processor.Sorts`). Who is resolved stays where it is, with what was
recorded of it (`Processor.Keeps`).
-/

namespace DataGrid

open ProcessorEvent

namespace Processor

/-- The collections that a recipient can stand in, by their members. -/
def stations (p : Processor) : List (List Member) :=
  [p.pending.toList, p.replies.keys, p.exceptions.keys, p.ignored.keys, p.departed.toList]

/-- Every recipient stands in exactly one collection, nobody else in any, and only who replied is
closed. -/
structure Sorts (p : Processor) (recipients : List Member) : Prop where
  disjoint : p.stations.Pairwise fun s t => ∀ m ∈ s, m ∉ t
  covers : ∀ m, (∃ s ∈ p.stations, m ∈ s) ↔ m ∈ recipients
  closed : ∀ m, p.closed.contains m →
    p.replies.contains m ∨ p.exceptions.contains m ∨ p.ignored.contains m

/-- What a processor has recorded, a later one has recorded too, and it awaits nobody else. -/
structure Keeps (p later : Processor) : Prop where
  pending : ∀ m, later.pending.contains m → p.pending.contains m
  replies : ∀ m r, p.replies.get? m = some r → later.replies.get? m = some r
  exceptions : ∀ m e, p.exceptions.get? m = some e → later.exceptions.get? m = some e
  ignored : ∀ m c, p.ignored.get? m = some c → later.ignored.get? m = some c
  closed : ∀ m, p.closed.contains m → later.closed.contains m
  departed : ∀ m, p.departed.contains m → later.departed.contains m

/-! ## Fates and stations -/

variable {p q : Processor} {recipients : List Member}
variable {fates others : Member → Option ProcessorEvent}

/-- Lists without a common member, when each value is in one of them at most. -/
theorem disjoint_of_count_le_one {ls : List (List Member)}
    (h : ∀ m, (ls.map fun s => decide (m ∈ s)).count true ≤ 1) :
    ls.Pairwise fun s t => ∀ m ∈ s, m ∉ t := by
  induction ls with
  | nil => exact .nil
  | cons s ls ih =>
    refine List.pairwise_cons.2 ⟨fun t ht m hs hmt => ?_, ih fun m => ?_⟩
    · have hm := h m
      have hpos : 0 < (ls.map fun s => decide (m ∈ s)).count true :=
        List.count_pos_iff.2 (List.mem_map.2 ⟨t, ht, decide_eq_true hmt⟩)
      simp only [List.map_cons, decide_eq_true hs, List.count_cons_self] at hm
      omega
    · exact (List.count_le_count_cons).trans (h m)

/-- An event about somebody is filed in exactly one way. -/
theorem filed_once (e : ProcessorEvent) (he : e.isCancellation = false) :
    [(answered e).isSome, (failed e).isSome, (declined e).isSome, e.isDeparture].count true
      = 1 := by
  cases e with
  | reply m r =>
    cases hi : r.ignored <;> cases hx : r.exception? <;>
      simp [answered, failed, declined, isDeparture, Reply.isException, hi, hx]
  | departure m => rfl
  | cancellation sender cause => cases he

/-- Only a reply says that it is the last, and a reply is filed as one. -/
theorem filed_of_isLast {e : ProcessorEvent} (he : e.isLast) :
    (answered e).isSome ∨ (failed e).isSome ∨ (declined e).isSome := by
  cases e with
  | reply m r =>
    cases hi : r.ignored <;> cases hx : r.exception? <;>
      simp [answered, failed, declined, Reply.isException, hi, hx]
  | departure m => cases he
  | cancellation sender cause => cases he

/-- Whether a member stands in each of the collections, by its fate. -/
theorem Records.stations_eq (h : p.Records recipients fates) (m : Member) :
    p.stations.map (fun s => decide (m ∈ s))
      = [decide (m ∈ recipients) && (fates m).isNone, ((fates m).bind answered).isSome,
          ((fates m).bind failed).isSome, ((fates m).bind declined).isSome,
          (fates m).any isDeparture] := by
  simp only [stations, List.map_cons, List.map_nil, OrdSet.mem_toList, OrdMap.mem_keys,
    OrdMap.contains_eq, h.pending, h.replies, h.exceptions, h.ignored, h.departed,
    Bool.decide_eq_true]

/-- A recipient stands in one collection, anybody else in none. -/
theorem Records.count_stations (h : p.Records recipients fates)
    (hf : ∀ m e, fates m = some e → m ∈ recipients ∧ e.isCancellation = false) (m : Member) :
    (p.stations.map fun s => decide (m ∈ s)).count true = if m ∈ recipients then 1 else 0 := by
  rw [h.stations_eq]
  cases hm : fates m with
  | none => by_cases hr : m ∈ recipients <;> simp [hr]
  | some e =>
    obtain ⟨hr, he⟩ := hf m e hm
    have honce := filed_once e he
    rw [if_pos hr]
    simpa using honce

/-- Fates that are decided for good sort the recipients. -/
theorem Records.sorts (h : p.Records recipients fates)
    (hf : ∀ m e, fates m = some e → m ∈ recipients ∧ e.isCancellation = false) :
    p.Sorts recipients := by
  refine ⟨disjoint_of_count_le_one fun m => ?_, fun m => ?_, fun m hm => ?_⟩
  · rw [h.count_stations hf]
    split <;> omega
  · have hcount := h.count_stations hf m
    have hpos : 0 < (p.stations.map fun s => decide (m ∈ s)).count true
        ↔ ∃ s ∈ p.stations, m ∈ s := by
      simp [List.count_pos_iff]
    rw [← hpos, hcount]
    split <;> simp_all
  · rw [h.closed, Option.any_eq_true] at hm
    obtain ⟨e, he, hlast⟩ := hm
    simpa [OrdMap.contains_eq, h.replies, h.exceptions, h.ignored, he] using filed_of_isLast hlast

/-- A processor keeps what another recorded whose fates it knows too. -/
theorem Records.keeps (h : p.Records recipients fates) (hq : q.Records recipients others)
    (hext : ∀ m, (fates m).isSome → others m = fates m) : p.Keeps q := by
  have hfate : ∀ m e, fates m = some e → others m = some e := fun m e he => by
    rw [hext m (by rw [he]; rfl), he]
  refine ⟨fun m hm => ?_, fun m r hm => ?_, fun m e hm => ?_, fun m c hm => ?_, fun m hm => ?_,
    fun m hm => ?_⟩
  · rw [hq.pending, Bool.and_eq_true] at hm
    rw [h.pending, Bool.and_eq_true, Option.isNone_iff_eq_none]
    refine ⟨hm.1, Option.eq_none_iff_forall_ne_some.2 fun e he => ?_⟩
    rw [hfate m e he] at hm
    cases hm.2
  · rw [h.replies, Option.bind_eq_some_iff] at hm
    obtain ⟨e, he, hr⟩ := hm
    rw [hq.replies, hfate m e he, Option.bind_some, hr]
  · rw [h.exceptions, Option.bind_eq_some_iff] at hm
    obtain ⟨e, he, hx⟩ := hm
    rw [hq.exceptions, hfate m e he, Option.bind_some, hx]
  · rw [h.ignored, Option.bind_eq_some_iff] at hm
    obtain ⟨e, he, hc⟩ := hm
    rw [hq.ignored, hfate m e he, Option.bind_some, hc]
  · rw [h.closed, Option.any_eq_true] at hm
    obtain ⟨e, he, hl⟩ := hm
    rw [hq.closed, hfate m e he, Option.any_some, hl]
  · rw [h.departed, Option.any_eq_true] at hm
    obtain ⟨e, he, hd⟩ := hm
    rw [hq.departed, hfate m e he, Option.any_some, hd]

end Processor

/-! ## Every run -/

/-- **A registered processor sorts its recipients, and goes on to.** Whatever replies, departures
and cancellations come, whoever they are from, each recipient stands in exactly one collection, and
what is recorded after some of them is recorded after all that follow. -/
theorem Keeper.observe_sorts (k : Keeper) (recipients : List Member) (isMember : Member → Bool)
    (events later : List ProcessorEvent) :
    ∃ r r', k.observe recipients isMember events = some r
      ∧ k.observe recipients isMember (events ++ later) = some r'
      ∧ r.processor.Sorts recipients ∧ r'.processor.Sorts recipients
      ∧ r.processor.Keeps r'.processor := by
  have hrec : ∀ events, ((Processor.await recipients isMember).run events).Records recipients
      (fate recipients isMember (early events)) := fun events =>
    (Processor.follows_run_await recipients isMember events).records
  have hfate : ∀ events m e, fate recipients isMember (early events) m = some e →
      m ∈ recipients ∧ e.isCancellation = false := fun _ _ _ he =>
    ⟨mem_of_fate_eq_some he, isCancellation_of_fate he⟩
  obtain ⟨rest, hrest⟩ := early_append events later
  refine ⟨_, _, k.observe_eq _ _ _, k.observe_eq _ _ _, (hrec events).sorts (hfate events),
    (hrec _).sorts (hfate _), (hrec events).keeps (hrec (events ++ later)) fun m hm => ?_⟩
  rw [hrest]
  exact fate_append_of_isSome hm rest

end DataGrid
