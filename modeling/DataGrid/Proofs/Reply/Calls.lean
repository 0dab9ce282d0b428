import DataGrid.Proofs.Reply.Roll

/-!
# Calls — a keeper follows its roll

Whatever is asked of a keeper, it follows the roll to which the same was done
(`Keeper.Lists.call`). Most calls change one processor and take its entry away if it stopped
waiting (`Keeper.Lists.modify`). A departure changes everybody who waits, one behind the other, and
a registration adds a processor to the roll.
-/

namespace DataGrid

namespace Keeper

variable {k k' : Keeper} {l : Roll} {t ticket : Nat} {id : Int32} {x y : Enrolment}

/-! ## What a keeper that follows a roll finds -/

theorem Lists.get?_of_isKept (h : k.Lists l) (hx : l[t]? = some x) (hkept : x.isKept) :
    k.get? t = some x.registration := by
  rw [h.live, hx, Option.filter_some, if_pos hkept]
  rfl

theorem Lists.get?_of_not_isKept (h : k.Lists l) (hx : l[t]? = some x) (hgone : x.isKept = false) :
    k.get? t = none := by
  rw [h.live, hx, Option.filter_some, hgone]
  rfl

theorem Lists.get?_of_none (h : k.Lists l) (ht : l[t]? = none) : k.get? t = none := by
  rw [h.live, ht]
  rfl

/-- A processor has an entry when it waits. -/
theorem Lists.table_iff (h : k.Lists l) (hx : l[t]? = some x) :
    k.table.get? x.id = some t ↔ x.waits := by
  rw [h.table]
  constructor
  · rintro ⟨z, hz, -, hwaits⟩
    obtain rfl := Option.some.inj (hx.symm.trans hz)
    exact hwaits
  · intro hwaits
    exact ⟨x, hx, rfl, hwaits⟩

/-- A number is free when nobody waits under it. -/
theorem Lists.isFree_iff (h : k.Lists l) :
    k.isFree id ↔ ∀ x ∈ l, x.waits → x.id ≠ id := by
  constructor
  · intro hfree x hx hwaits hid
    obtain ⟨t, ht⟩ := List.getElem?_of_mem hx
    have hentry := (h.table_iff ht).2 hwaits
    have hlive : k.live.contains t = true := by
      rw [OrdMap.contains_eq]
      exact congrArg Option.isSome (h.get?_of_isKept ht (Enrolment.isKept_of_waits hwaits))
    rw [isFree, ← hid, hentry] at hfree
    simp [hlive] at hfree
  · intro hnobody
    have hnone : k.table.get? id = none := by
      refine Option.eq_none_iff_forall_ne_some.2 fun t ht => ?_
      obtain ⟨x, hx, hid, hwaits⟩ := (h.table id t).1 ht
      exact hnobody x (List.mem_of_getElem? hx) hwaits hid
    rw [isFree, hnone]

/-- **A number finds the last processor that was registered under it, if that one waits.** -/
theorem Lists.find?_eq (h : k.Lists l) (id : Int32) : k.find? id = l.reached? id := by
  refine Option.ext fun t => ?_
  rw [find?, Option.filter_eq_some_iff, Roll.reached?_eq_some_iff, h.table]
  constructor
  · rintro ⟨⟨x, hx, hid, hwaits⟩, -⟩
    refine ⟨⟨x, hx, hid, hwaits⟩, fun t' x' hlt hx' hid' => ?_⟩
    have hold := h.older t t' x x' hx hx' (hid.trans hid'.symm) hlt
    rw [hwaits] at hold
    cases hold
  · rintro ⟨⟨x, hx, hid, hwaits⟩, -⟩
    refine ⟨⟨x, hx, hid, hwaits⟩, ?_⟩
    rw [OrdMap.contains_eq]
    exact congrArg Option.isSome (h.get?_of_isKept hx (Enrolment.isKept_of_waits hwaits))

/-! ## One processor changes -/

theorem Roll.getElem?_modify (hx : l[t]? = some x) (f : Enrolment → Enrolment) (j : Nat) :
    (l.modify t f)[j]? = if j = t then some (f x) else l[j]? := by
  rw [List.getElem?_modify]
  by_cases hj : t = j
  · subst hj
    simp [hx]
  · simp [hj, Ne.symm hj]

/-- A keeper follows a roll in which one processor became another of the same number, if the table
lost the entry of that processor exactly when it stopped waiting. -/
theorem Lists.modify (h : k.Lists l) (hx : l[t]? = some x) {f : Enrolment → Enrolment}
    (hf : f x = y) (hid : y.id = x.id) (hwaits : y.waits → x.waits)
    (htickets : k'.tickets = k.tickets) (hnext : k'.next = k.next)
    (hlive : ∀ j, k'.get? j = if j = t then (if y.isKept then some y.registration else none)
      else k.get? j)
    (htable : k'.table = if x.waits && !y.waits then k.table.erase x.id else k.table) :
    k'.Lists (l.modify t f) := by
  have hget : ∀ j, (l.modify t f)[j]? = if j = t then some y else l[j]? := fun j =>
    hf ▸ Roll.getElem?_modify hx f j
  have hold : ∀ (j : Nat) (z : Enrolment), (l.modify t f)[j]? = some z →
      ∃ z' : Enrolment, l[j]? = some z' ∧ z'.id = z.id ∧ (z.waits → z'.waits) := by
    intro j z hz
    rw [hget] at hz
    split at hz
    · next hj =>
      obtain rfl := Option.some.inj hz
      exact ⟨x, hj ▸ hx, hid.symm, hwaits⟩
    · exact ⟨z, hz, rfl, fun hw => hw⟩
  refine ⟨?_, fun j => ?_, fun id j => ?_, fun a b u v hu hv huv hab => ?_, fun z hz => ?_, ?_⟩
  · rw [htickets, h.tickets, List.length_modify]
  · rw [hlive, hget]
    split
    · rw [Option.filter_some]
      split <;> rfl
    · exact h.live j
  · rw [htable, hget]
    by_cases hstops : x.waits ∧ y.waits = false
    · -- The processor stopped waiting, and its entry went.
      have hentry := (h.table_iff hx).2 hstops.1
      rw [hstops.1, hstops.2, Bool.not_false, Bool.and_self, if_pos rfl, OrdMap.get?_erase]
      by_cases hj : j = t
      · rw [if_pos hj]
        constructor
        · intro hnone
          split at hnone
          · cases hnone
          · next hne =>
            obtain ⟨z, hz, hzid, -⟩ := (h.table id j).1 hnone
            obtain rfl := Option.some.inj (hx.symm.trans (hj ▸ hz))
            exact absurd hzid.symm hne
        · rintro ⟨z, hz, -, hzwaits⟩
          obtain rfl := Option.some.inj hz
          rw [hstops.2] at hzwaits
          cases hzwaits
      · rw [if_neg hj]
        split
        · next heq =>
          constructor
          · intro hnone
            cases hnone
          · intro hz
            have hother := (h.table id j).2 hz
            rw [heq, hentry] at hother
            exact absurd (Option.some.inj hother).symm hj
        · exact h.table id j
    · -- The processor waits as it did before.
      have hsame : y.waits = x.waits := by
        cases hxw : x.waits with
        | true =>
          by_contra hyw
          exact hstops ⟨hxw, Bool.eq_false_iff.2 hyw⟩
        | false => exact Bool.eq_false_iff.2 fun hyw => Bool.eq_false_iff.1 hxw (hwaits hyw)
      have hkeep : (x.waits && !y.waits) = false := by rw [hsame, Bool.and_not_self]
      rw [hkeep, if_neg Bool.false_ne_true, h.table]
      by_cases hj : j = t
      · subst hj
        rw [if_pos rfl, hx]
        simp only [Option.some.injEq, exists_eq_left', hid, hsame]
      · rw [if_neg hj]
  · obtain ⟨u', hu', hid', hw'⟩ := hold a u hu
    obtain ⟨v', hv', hid'', -⟩ := hold b v hv
    have hnot := h.older a b u' v' hu' hv' (by rw [hid', hid'', huv]) hab
    exact Bool.eq_false_iff.2 fun hw => Bool.eq_false_iff.1 hnot (hw' hw)
  · obtain ⟨j, hj⟩ := List.getElem?_of_mem hz
    obtain ⟨z', hz', hid', -⟩ := hold j z hj
    rw [← hid']
    exact h.positive z' (List.mem_of_getElem? hz')
  · rw [hnext]
    exact h.next

/-- A change of a processor that is not there, or that stays as it is. -/
theorem Lists.modify_same (h : k.Lists l) {f : Enrolment → Enrolment}
    (hf : ∀ x, l[t]? = some x → f x = x) : k.Lists (l.modify t f) := by
  have hsame : l.modify t f = l := by
    refine List.ext_getElem? fun j => ?_
    rw [List.getElem?_modify]
    by_cases hj : t = j
    · subst hj
      cases hx : l[t]? with
      | none => rfl
      | some x => simp [hf x hx]
    · simp [hj]
  rw [hsame]
  exact h

/-- The entry of a processor goes when it is unregistered, if it has one. -/
theorem Lists.table_unregister (h : k.Lists l) (hx : l[t]? = some x) {r : Registration}
    (hget : k'.get? t = some r) (hid : r.id = x.id) (htable : k'.table = k.table) :
    (k'.unregister t).table = if x.waits then k.table.erase x.id else k.table := by
  rw [unregister, hget]
  dsimp only
  rw [hid, htable]
  by_cases hwaits : x.waits
  · rw [if_pos ((h.table_iff hx).2 hwaits), if_pos hwaits]
  · rw [if_neg fun hentry => hwaits ((h.table_iff hx).1 hentry), if_neg hwaits, htable]

theorem tickets_unregister (k : Keeper) (t : Nat) : (k.unregister t).tickets = k.tickets := by
  unfold unregister
  split
  · split <;> rfl
  · rfl

/-- **An event happens to the processor of its ticket.** -/
theorem Lists.on (h : k.Lists l) (t : Nat) (e : ProcessorEvent) :
    (k.on t e).Lists (l.modify t (·.note e)) := by
  have hon : k.on t e = k.update t (·.on e) := by cases e <;> rfl
  rw [hon]
  -- Nothing happens to a processor without an owner.
  have hgone : k.get? t = none → (k.update t (·.on e)).Lists (l.modify t (·.note e)) := by
    intro hnone
    have hsame : k.update t (·.on e) = k := by rw [update, hnone]
    rw [hsame]
    refine h.modify_same fun x hx => if_neg fun hkept => ?_
    rw [h.get?_of_isKept hx hkept] at hnone
    cases hnone
  cases hx : l[t]? with
  | none => exact hgone (h.get?_of_none hx)
  | some x =>
    cases hkept : x.isKept with
    | false => exact hgone (h.get?_of_not_isKept hx hkept)
    | true =>
      have hget := h.get?_of_isKept hx hkept
      have hproc : (x.note e).processor = x.processor.on e := Enrolment.processor_note hkept e
      have hreg : (x.note e).registration
          = { x.registration with processor := x.processor.on e } := by
        rw [Enrolment.registration, hproc, Enrolment.note_of_isKept hkept]
        rfl
      have howned : (x.note e).owned = x.owned := by rw [Enrolment.note_of_isKept hkept]
      have hkept' : (x.note e).isKept = true := by
        rw [Enrolment.note_of_isKept hkept]
        exact hkept
      obtain ⟨k₁, hk₁⟩ : ∃ k₁, k₁ = { k with live := k.live.insert t (x.note e).registration } :=
        ⟨_, rfl⟩
      have hupdate : k.update t (·.on e)
          = if (x.processor.on e).isDone && !x.processor.isDone then k₁.unregister t else k₁ := by
        rw [update, hget, hk₁, hreg]
        rfl
      have hlive : ∀ j, k₁.get? j
          = if j = t then some (x.note e).registration else k.get? j := fun j => by
        rw [hk₁]
        exact OrdMap.get?_insert _ _ _ _
      have hentry : k₁.get? t = some (x.note e).registration := by rw [hlive, if_pos rfl]
      have htable := h.table_unregister hx hentry (Enrolment.id_note x e) (by rw [hk₁])
      rw [hupdate]
      refine h.modify hx rfl (Enrolment.id_note x e) (fun hw => ?_) ?_ ?_ (fun j => ?_) ?_
      · by_contra hnot
        rw [Enrolment.waits_note_of_not (Bool.eq_false_iff.2 hnot) e] at hw
        cases hw
      · split
        · rw [tickets_unregister, hk₁]
        · rw [hk₁]
      · split
        · rw [next_unregister, hk₁]
        · rw [hk₁]
      · rw [if_pos hkept']
        split
        · rw [get?_unregister, hlive]
        · exact hlive j
      · -- The entry goes when the event ends a processor that waited.
        rw [Enrolment.waits, Enrolment.waits, hproc, howned]
        rw [Enrolment.waits] at htable
        cases hdone : x.processor.isDone with
        | true =>
          rw [Bool.not_true, Bool.and_false, if_neg Bool.false_ne_true, hk₁]
          simp
        | false =>
          rw [hdone] at htable
          cases hend : (x.processor.on e).isDone with
          | true =>
            rw [Bool.not_false, Bool.and_true, if_pos rfl, htable]
            simp
          | false =>
            rw [Bool.false_and, if_neg Bool.false_ne_true, hk₁]
            simp

/-- **An answer reaches the last processor of its number, if that one waits.** -/
theorem Lists.processReply (h : k.Lists l) (sender : Member) (r : Reply) :
    (k.processReply sender r).2.Lists (l.call id (.processReply sender r)) := by
  rw [Keeper.processReply, Roll.call, h.find?_eq]
  cases l.reached? r.processor with
  | none => exact h
  | some t => exact h.on t (.reply sender r)

/-! ## Owners change -/

/-- The owners of a processor change, behind an entry that went if the processor stopped waiting.
One that has no owner stays as it is. -/
theorem Lists.reown (h : k.Lists l) {f : Registration → Registration} {g : Enrolment → Enrolment}
    (hreg : ∀ x : Enrolment, x.isKept → f x.registration = (g x).registration)
    (hid : ∀ x : Enrolment, (g x).id = x.id) (hwaits : ∀ x : Enrolment, (g x).waits → x.waits)
    (hgone : ∀ x : Enrolment, x.isKept = false → g x = x)
    (htickets : k'.tickets = k.tickets) (hnext : k'.next = k.next)
    (hlive : ∀ j, k'.get? j = k.get? j)
    (htable : ∀ x, l[t]? = some x → k'.table
      = if x.waits && !(g x).waits then k.table.erase x.id else k.table)
    (hsame : k.get? t = none → k' = k) :
    (k'.reown t f).Lists (l.modify t g) := by
  have habsent : k.get? t = none → (k'.reown t f).Lists (l.modify t g) := by
    intro hnone
    have hkeep : k'.reown t f = k := by
      rw [Keeper.reown, hlive, hnone]
      exact hsame hnone
    rw [hkeep]
    refine h.modify_same fun x hx => hgone x ?_
    by_contra hkept
    rw [h.get?_of_isKept hx (by simpa using hkept)] at hnone
    cases hnone
  cases hx : l[t]? with
  | none => exact habsent (h.get?_of_none hx)
  | some x =>
    cases hkept : x.isKept with
    | false => exact habsent (h.get?_of_not_isKept hx hkept)
    | true =>
      have hstep : k'.reown t f
          = if (g x).isKept then { k' with live := k'.live.insert t (g x).registration }
            else { k' with live := k'.live.erase t } := by
        rw [Keeper.reown, hlive, h.get?_of_isKept hx hkept]
        dsimp only
        rw [hreg x hkept]
        rfl
      rw [hstep]
      refine h.modify hx rfl (hid x) (hwaits x) ?_ ?_ (fun j => ?_) ?_
      · split <;> exact htickets
      · split <;> exact hnext
      · rw [← hlive j]
        split
        · exact OrdMap.get?_insert _ _ _ _
        · exact OrdMap.get?_erase _ _ _
      · split <;> exact htable x hx

/-- **A maker lets go of its processor.** -/
theorem Lists.drop (h : k.Lists l) (t : Nat) :
    (k.drop t).Lists (l.call id (.drop t)) := by
  refine h.reown (fun _ _ => rfl) (fun _ => rfl) (fun x hw => ?_) (fun x hgone => ?_)
    (tickets_unregister k t) (next_unregister k t) (get?_unregister k t) (fun x hx => ?_)
    fun hnone => by rw [unregister, hnone]
  · rw [Enrolment.waits, Bool.false_and] at hw
    cases hw
  · rw [Enrolment.isKept, Bool.or_eq_false_iff] at hgone
    obtain ⟨id, recipients, isMember, events, owned, holders⟩ := x
    rw [show owned = false from hgone.1]
  · have hdropped : Enrolment.waits { x with owned := false } = false := rfl
    rw [hdropped, Bool.not_false, Bool.and_true]
    cases hkept : x.isKept with
    | true => exact h.table_unregister hx (h.get?_of_isKept hx hkept) rfl rfl
    | false =>
      have hidle : x.waits = false := by
        by_contra hw
        rw [Enrolment.isKept_of_waits (by simpa using hw)] at hkept
        cases hkept
      rw [hidle, unregister, h.get?_of_not_isKept hx hkept]
      rfl

/-- Others come to hold on to a processor, or fewer of them do. -/
theorem Lists.rehold (h : k.Lists l) {f : Registration → Registration} {g : Enrolment → Enrolment}
    (hreg : ∀ x : Enrolment, x.isKept → f x.registration = (g x).registration)
    (hid : ∀ x : Enrolment, (g x).id = x.id) (hwaits : ∀ x : Enrolment, (g x).waits = x.waits)
    (hgone : ∀ x : Enrolment, x.isKept = false → g x = x) :
    (k.reown t f).Lists (l.modify t g) := by
  refine h.reown hreg hid (fun x hw => hwaits x ▸ hw) hgone rfl rfl (fun _ => rfl) (fun x _ => ?_)
    fun _ => rfl
  rw [hwaits, Bool.and_not_self, if_neg Bool.false_ne_true]

theorem Lists.hold (h : k.Lists l) (t : Nat) : (k.hold t).Lists (l.call id (.hold t)) := by
  refine h.rehold (fun x hkept => ?_) (fun x => ?_) (fun x => ?_) fun x hgone => ?_
  · rw [if_pos hkept]
    rfl
  · split <;> rfl
  · split <;> rfl
  · rw [hgone]
    rfl

theorem Lists.release (h : k.Lists l) (t : Nat) : (k.release t).Lists (l.call id (.release t)) := by
  refine h.rehold (fun _ _ => rfl) (fun _ => rfl) (fun _ => rfl) fun x hgone => ?_
  have hnobody : x.holders = 0 := by
    rw [Enrolment.isKept, Bool.or_eq_false_iff] at hgone
    simpa using hgone.2
  obtain ⟨id, recipients, isMember, events, owned, holders⟩ := x
  obtain rfl : holders = 0 := hnobody
  rfl

/-! ## A member leaves -/

theorem Roll.getElem?_foldl_modify {ts : List Nat} (hts : ts.Nodup) (f : Enrolment → Enrolment)
    (l : Roll) (j : Nat) :
    (ts.foldl (fun l t => l.modify t f) l)[j]? = if j ∈ ts then l[j]?.map f else l[j]? := by
  induction ts generalizing l with
  | nil => simp
  | cons t ts ih =>
    obtain ⟨ht, hts⟩ := List.nodup_cons.1 hts
    rw [List.foldl_cons, ih hts, List.getElem?_modify]
    by_cases hj : t = j
    · subst hj
      simp [ht]
    · by_cases hmem : j ∈ ts <;> simp [hmem, hj, Ne.symm hj]

/-- The processors of the table are those that wait, each once. -/
theorem Lists.mem_tickets (h : k.Lists l) :
    t ∈ k.table.entries.map (·.2) ↔ ∃ x : Enrolment, l[t]? = some x ∧ x.waits := by
  rw [List.mem_map]
  constructor
  · rintro ⟨⟨id, t⟩, he, rfl⟩
    obtain ⟨x, hx, -, hwaits⟩ := (h.table id t).1 (OrdMap.get?_eq_some_iff.2 he)
    exact ⟨x, hx, hwaits⟩
  · rintro ⟨x, hx, hwaits⟩
    exact ⟨(x.id, t), OrdMap.get?_eq_some_iff.1 ((h.table_iff hx).2 hwaits), rfl⟩

theorem Lists.nodup_tickets (h : k.Lists l) : (k.table.entries.map (·.2)).Nodup := by
  have hentries : k.table.entries.Nodup := k.table.ascending.imp fun {a b} hlt hab => by
    rw [hab, Std.ReflOrd.compare_self] at hlt
    cases hlt
  refine List.Nodup.map_on (fun a ha b hb hab => ?_) hentries
  obtain ⟨x, hx, hxid, -⟩ := (h.table a.1 a.2).1 (OrdMap.get?_eq_some_iff.2 ha)
  obtain ⟨y, hy, hyid, -⟩ := (h.table b.1 b.2).1 (OrdMap.get?_eq_some_iff.2 hb)
  have hxy : x = y := Option.some.inj (hx.symm.trans (hab ▸ hy))
  exact Prod.ext (by rw [← hxid, ← hyid, hxy]) hab

/-- **Everybody who waits hears that a member left.** -/
theorem Lists.memberDeparted (h : k.Lists l) (m : Member) :
    (k.memberDeparted m).Lists (l.call id (.memberDeparted m)) := by
  have hfold : ∀ (ts : List Nat) {k : Keeper} {l : Roll}, k.Lists l →
      (ts.foldl (fun k t => k.depart t m) k).Lists
        (ts.foldl (fun l t => l.modify t (·.note (.departure m))) l) := by
    intro ts
    induction ts with
    | nil => exact fun h => h
    | cons t ts ih => exact fun h => ih (h.on t (.departure m))
  have hroll : l.call id (.memberDeparted m)
      = (k.table.entries.map (·.2)).foldl (fun l t => l.modify t (·.note (.departure m))) l := by
    refine List.ext_getElem? fun j => ?_
    rw [Roll.getElem?_foldl_modify h.nodup_tickets, Roll.call, List.getElem?_map]
    cases hx : l[j]? with
    | none => split <;> rfl
    | some x =>
      have hmem : j ∈ k.table.entries.map (·.2) ↔ x.waits := by
        rw [h.mem_tickets, hx]
        simp
      simp only [hmem, Option.map_some]
      split <;> rfl
  rw [hroll]
  exact hfold _ h

/-! ## A processor is registered -/

/-- A number that is found names nobody who waits, and has no entry. -/
theorem Lists.freshId (h : k.Lists l) (hfound : k.hasNumber) :
    k.freshId.2 = { k with next := following k.freshId.1 } ∧ 0 < k.freshId.1.toInt
      ∧ ∀ x ∈ l, x.waits → x.id ≠ k.freshId.1 := by
  obtain ⟨⟨id, k'⟩, hsearch⟩ := Option.isSome_iff_exists.1 hfound
  obtain ⟨hfree, hpos, hk'⟩ := searchId_eq_some hsearch h.next
  have hfresh : k.freshId = (id, k') := by rw [Keeper.freshId, hsearch, Option.getD_some]
  rw [hfresh]
  exact ⟨hk', hpos, h.isFree_iff.1 hfree⟩

/-- A keeper follows a roll with one more processor, under a number that names nobody who waits. -/
theorem Lists.enrol (h : k.Lists l) (hpos : 0 < x.id.toInt)
    (hfree : ∀ z ∈ l, z.waits → z.id ≠ x.id) (hkept : x.isKept) (hnext : 0 < k'.next.toInt)
    (htickets : k'.tickets = k.tickets + 1)
    (hlive : ∀ j, k'.get? j = if j = k.tickets then some x.registration else k.get? j)
    (htable : k'.table = if x.waits then k.table.insert x.id k.tickets else k.table) :
    k'.Lists (l ++ [x]) := by
  have hget : ∀ j, (l ++ [x])[j]? = if j = l.length then some x else l[j]? := by
    intro j
    rcases Nat.lt_trichotomy j l.length with hj | hj | hj
    · rw [List.getElem?_append_left hj, if_neg (Nat.ne_of_lt hj)]
    · rw [hj, List.getElem?_concat_length, if_pos rfl]
    · rw [if_neg (Nat.ne_of_gt hj), List.getElem?_eq_none (by simp; omega),
        List.getElem?_eq_none (Nat.le_of_lt hj)]
  have hwaiting : ∀ id t, k.table.get? id = some t → id ≠ x.id ∧ t ≠ l.length := by
    intro id t hentry
    obtain ⟨z, hz, hzid, hwaits⟩ := (h.table id t).1 hentry
    exact ⟨hzid ▸ hfree z (List.mem_of_getElem? hz) hwaits, Nat.ne_of_lt (Roll.lt_length hz)⟩
  rw [h.tickets] at htickets hlive htable
  refine ⟨?_, fun j => ?_, fun id j => ?_, fun a b u v hu hv huv hab => ?_, fun z hz => ?_, hnext⟩
  · rw [htickets, List.length_append, List.length_singleton]
  · rw [hlive, hget]
    split
    · rw [Option.filter_some, if_pos hkept]
      rfl
    · exact h.live j
  · rw [hget]
    by_cases hj : j = l.length
    · -- The new processor has an entry, if it waits.
      rw [if_pos hj, htable, hj]
      have hold : k.table.get? id ≠ some l.length := fun hentry => (hwaiting id _ hentry).2 rfl
      simp only [Option.some.injEq, exists_eq_left']
      split
      · next hw =>
        rw [OrdMap.get?_insert]
        split
        · next hid => exact ⟨fun _ => ⟨hid.symm, hw⟩, fun _ => rfl⟩
        · next hid => exact ⟨fun hentry => absurd hentry hold, fun hx => absurd hx.1.symm hid⟩
      · next hw => exact ⟨fun hentry => absurd hentry hold, fun hx => absurd hx.2 hw⟩
    · rw [if_neg hj, ← h.table, htable]
      split
      · rw [OrdMap.get?_insert]
        split
        · next hid =>
          constructor
          · intro heq
            exact absurd (Option.some.inj heq).symm hj
          · intro hentry
            exact absurd hid (hwaiting id j hentry).1
        · rfl
      · rfl
  · -- A processor that waits has another number than the new one.
    rw [hget] at hu hv
    have ha : a ≠ l.length := by
      rintro rfl
      split at hv
      · omega
      · have := Roll.lt_length hv
        omega
    rw [if_neg ha] at hu
    split at hv
    · obtain rfl := Option.some.inj hv
      exact Bool.eq_false_iff.2 fun hw => hfree u (List.mem_of_getElem? hu) hw huv
    · exact h.older a b u v hu hv huv hab
  · rcases List.mem_append.1 hz with hz | hz
    · exact h.positive z hz
    · rw [List.mem_singleton.1 hz]
      exact hpos

/-- **A processor is registered**, under a number that names nobody who waits. -/
theorem Lists.register (h : k.Lists l) (hfound : k.hasNumber) (recipients : List Member)
    (isMember : Member → Bool) :
    (k.register (.await recipients isMember)).2.Lists
      (l.call k.freshId.1 (.register recipients isMember)) := by
  obtain ⟨hk', hpos, hfree⟩ := h.freshId hfound
  obtain ⟨x, hx⟩ : ∃ x : Enrolment, x = { id := k.freshId.1, recipients, isMember } := ⟨_, rfl⟩
  have hwaits : x.waits = !(Processor.await recipients isMember).isDone := by
    rw [hx]
    rfl
  obtain ⟨k₁, hk₁⟩ : ∃ k₁ : Keeper, k₁ = {
      next := following k.freshId.1, table := k.table.insert k.freshId.1 k.tickets
      live := k.live.insert k.tickets x.registration, tickets := k.tickets + 1 } := ⟨_, rfl⟩
  have hregister : (k.register (.await recipients isMember)).2
      = if (Processor.await recipients isMember).isDone then k₁.unregister k.tickets else k₁ := by
    have hfresh : k.freshId = (k.freshId.1, { k with next := following k.freshId.1 }) :=
      Prod.ext rfl hk'
    rw [Keeper.register, hfresh, hk₁, hx]
    rfl
  have hlive : ∀ j, k₁.get? j = if j = k.tickets then some x.registration else k.get? j := by
    intro j
    rw [hk₁]
    exact OrdMap.get?_insert _ _ _ _
  have hnext : 0 < k₁.next.toInt := by
    rw [hk₁]
    exact next_pos (k := { k with next := k.freshId.1 }) hpos
  have hroll : l.call k.freshId.1 (.register recipients isMember) = l ++ [x] := by
    rw [hx]
    rfl
  have hid : x.id = k.freshId.1 := by rw [hx]
  rw [hregister, hroll]
  refine h.enrol (hid ▸ hpos) (hid ▸ hfree) (by rw [hx]; rfl) ?_ ?_ (fun j => ?_) ?_
  · split
    · rw [next_unregister]
      exact hnext
    · exact hnext
  · split
    · rw [tickets_unregister, hk₁]
    · rw [hk₁]
  · split
    · rw [get?_unregister, hlive]
    · exact hlive j
  · rw [hwaits]
    split
    · next hdone =>
      -- The entry of a processor that has ended goes at once, and there was none before.
      have hnone : k.table.get? x.id = none := by
        refine Option.eq_none_iff_forall_ne_some.2 fun t hentry => ?_
        obtain ⟨z, hz, hzid, hw⟩ := (h.table x.id t).1 hentry
        exact (hid ▸ hfree) z (List.mem_of_getElem? hz) hw hzid
      have hentry : k₁.table.get? x.registration.id = some k.tickets := by
        rw [hk₁, ← hid]
        exact OrdMap.get?_insert_self _ _ _
      rw [unregister, hlive, if_pos rfl]
      dsimp only
      rw [if_pos hentry, hk₁, ← hid, hdone]
      exact OrdMap.erase_insert_of_get?_eq_none _ hnone
    · next hdone =>
      rw [Bool.eq_false_iff.2 hdone, hk₁, hid]
      rfl

/-! ## Every call -/

theorem lists_nil {start : Int32} (h : 0 < start.toInt) : Lists { next := start } [] :=
  ⟨rfl, fun _ => rfl, fun _ _ => ⟨nofun, fun ⟨_, hx, _⟩ => nomatch hx⟩, nofun, nofun, h⟩

/-- **A keeper follows its roll through a call.** -/
theorem Lists.call (h : k.Lists l) {c : KeeperCall} (hc : k.call? c = some k') :
    k'.Lists (l.call k.freshId.1 c) := by
  cases c with
  | register recipients isMember =>
    rw [call?] at hc
    split at hc
    · next hfound => exact Option.some.inj hc ▸ h.register hfound recipients isMember
    · cases hc
  | processReply sender r => exact Option.some.inj hc ▸ h.processReply sender r
  | memberDeparted m => exact Option.some.inj hc ▸ h.memberDeparted m
  | event t e => exact Option.some.inj hc ▸ h.on t e
  | drop t => exact Option.some.inj hc ▸ h.drop t
  | hold t => exact Option.some.inj hc ▸ h.hold t
  | release t => exact Option.some.inj hc ▸ h.release t

end Keeper

end DataGrid
