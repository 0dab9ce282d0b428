import DataGrid.Proofs.Region.Answers
import DataGrid.Proofs.Reply.Verdict
import Mathlib.Data.List.Basic

/-!
# Reports — what a round tells its writer

When every recipient of an update that was reached has answered and the others are taken to have
left, the wait is over, and its verdict says of each awaited recipient what its copy made of the
update. If a copy failed, the verdict is those failures (`remote_of_failure`); otherwise it is an
outcome that sorts the recipients by their answers (`reports_of_no_failure`).
-/

namespace DataGrid

open ProcessorEvent

/-- What happens to the processor of an update when each recipient whose copy is reached answers
and the others are taken to have left. -/
def hearing (recipients : List Member) (copy : Member → Option RegionState) (u : Update) :
    List ProcessorEvent :=
  (recipients.filterMap fun m => if (copy m).isNone then some (.departure m) else none)
    ++ recipients.filterMap fun m => (copy m).map fun s => .reply m (s.answer m u)

/-- The copy of a recipient that is awaited: of a member that is reached. -/
def awaitedCopy (recipients : List Member) (isMember : Member → Bool)
    (copy : Member → Option RegionState) (m : Member) : Option RegionState :=
  if m ∈ recipients ∧ isMember m then copy m else none

/-- **What an outcome says of a round**, by the copies of the recipients that are awaited. -/
structure Outcome.Reports (o : Outcome) (recipients : List Member)
    (awaited : Member → Option RegionState) (u : Update) : Prop where
  /-- Whoever took the update or had seen it before has replied. -/
  replies : ∀ m, m ∈ o.replies.keys ↔ ∃ s, awaited m = some s
    ∧ ((s.applyUpdate u).1 = .ok .applied ∨ (s.applyUpdate u).1 = .ok .duplicate)
  plain : ∀ m r, o.replies.get? m = some r → r = { processor := u.processor }
  /-- Whoever wants the whole value has declined. -/
  ignored : ∀ m, m ∈ o.ignored.keys ↔ ∃ s, awaited m = some s
    ∧ ∃ why, (s.applyUpdate u).1 = .ok (.needsFull why)
  needsFullValue : o.needsFullValue = o.ignored.keys
  ascending : o.needsFullValue.Pairwise fun a b => compare a b = .lt
  /-- Whoever is not awaited is taken to have left. -/
  departed : ∀ m, m ∈ o.departed.toList ↔ m ∈ recipients ∧ awaited m = none
  closed : o.closed = .empty

/-- If everybody who declined asks for the whole value, everybody who declined gets it. -/
theorem Outcome.needsFullValue_eq {ignored : OrdMap Member (Option ReplyException)}
    (h : ∀ m cause, ignored.get? m = some cause → cause.any ReplyException.wantsFullValue)
    (replies : OrdMap Member Reply) (closed departed : OrdSet Member) :
    Outcome.needsFullValue { replies, ignored, closed, departed } = ignored.keys := by
  refine congrArg OrdMap.keys (OrdMap.ext_get? fun m => ?_)
  rw [OrdMap.get?_filter]
  cases hm : ignored.get? m with
  | none => rfl
  | some cause => simp [h m cause hm]

/-- The failures of a round: what went wrong at each copy that failed, in the name of its
member. -/
def Fails (failures : OrdMap Member ReplyException) (awaited : Member → Option RegionState)
    (u : Update) : Prop :=
  ∀ m e, failures.get? m = some e ↔ ∃ s, awaited m = some s
    ∧ ∃ why, (s.applyUpdate u).1 = .error why
      ∧ e = { kind := .internal, message := "Handler failed: " ++ why.message, sender := some m }

variable {recipients : List Member} {isMember : Member → Bool}
variable {copy awaited : Member → Option RegionState} {u : Update} {m : Member}

/-- What is heard depends on the copies of the recipients alone. -/
theorem hearing_congr {copy' : Member → Option RegionState}
    (h : ∀ m ∈ recipients, copy' m = copy m) :
    hearing recipients copy' u = hearing recipients copy u := by
  rw [hearing, hearing]
  refine congrArg₂ _ (List.filterMap_congr fun m hm => ?_) (List.filterMap_congr fun m hm => ?_)
  · rw [h m hm]
  · rw [h m hm]

/-! ## Fates -/

/-- What is heard of a recipient. -/
def heard (copy : Member → Option RegionState) (u : Update) (m : Member) : ProcessorEvent :=
  match copy m with
  | some s => .reply m (s.answer m u)
  | none => .departure m

/-- The first event about a member, where every member has one at most. -/
theorem find?_filterMap {f : Member → Option ProcessorEvent}
    (hf : ∀ m e, f m = some e → e.about? = some m) (l : List Member) (m : Member) :
    (l.filterMap f).find? (·.about? = some m) = if m ∈ l then f m else none := by
  induction l with
  | nil => rfl
  | cons k l ih =>
    rw [List.filterMap_cons]
    cases hk : f k with
    | none =>
      by_cases hm : m = k
      · subst hm
        simp [ih, hk]
      · simp [ih, hm]
    | some e =>
      have habout := hf k e hk
      by_cases hm : m = k
      · subst hm
        simp [habout, hk]
      · have hne : k ≠ m := Ne.symm hm
        simp [ih, habout, hm, hne]

theorem find?_hearing (hm : m ∈ recipients) :
    (hearing recipients copy u).find? (·.about? = some m) = some (heard copy u m) := by
  have hleft : ∀ m e, (if (copy m).isNone then some (ProcessorEvent.departure m) else none) = some e
      → e.about? = some m := by
    intro m e he
    split at he
    · obtain rfl := Option.some.inj he
      rfl
    · cases he
  have hreplied : ∀ m e, ((copy m).map fun s => ProcessorEvent.reply m (s.answer m u)) = some e
      → e.about? = some m := by
    intro m e he
    obtain ⟨s, -, rfl⟩ := Option.map_eq_some_iff.1 he
    rfl
  rw [hearing, List.find?_append, find?_filterMap hleft, find?_filterMap hreplied, if_pos hm,
    if_pos hm, heard]
  cases copy m <;> rfl

/-- The fate of a recipient is what is heard of it, if it is a member. -/
theorem fate_hearing : fate recipients isMember (hearing recipients copy u) m
    = if m ∈ recipients then some (heard (awaitedCopy recipients isMember copy) u m) else none := by
  unfold fate
  by_cases hm : m ∈ recipients
  · rw [if_pos hm, if_pos hm]
    cases hi : isMember m with
    | true =>
      have hcopy : awaitedCopy recipients isMember copy m = copy m := if_pos ⟨hm, hi⟩
      rw [if_pos rfl, find?_hearing hm, heard, heard, hcopy]
    | false =>
      have hcopy : awaitedCopy recipients isMember copy m = none :=
        if_neg fun h => by rw [hi] at h; cases h.2
      rw [if_neg Bool.false_ne_true, heard, hcopy]
  · rw [if_neg hm, if_neg hm]

theorem mem_of_awaitedCopy {s : RegionState}
    (h : awaitedCopy recipients isMember copy m = some s) : m ∈ recipients := by
  by_contra hm
  rw [awaitedCopy, if_neg fun h => hm h.1] at h
  cases h

/-- Everybody's fate is decided, so the verdict is the tally. -/
theorem verdict_hearing (id : Int32) :
    verdict id recipients isMember (hearing recipients copy u)
      = tally recipients (fate recipients isMember (hearing recipients copy u)) := by
  have hfree : ∀ e ∈ hearing recipients copy u, e.isCancellation = false := by
    intro e he
    rcases List.mem_append.1 he with he | he
    · obtain ⟨j, -, hj⟩ := List.mem_filterMap.1 he
      split at hj
      · obtain rfl := Option.some.inj hj
        rfl
      · cases hj
    · obtain ⟨j, -, hj⟩ := List.mem_filterMap.1 he
      obtain ⟨s, -, rfl⟩ := Option.map_eq_some_iff.1 hj
      rfl
  rw [verdict, early_eq_self hfree, if_pos]
  rw [allResolved_iff]
  intro m hm
  rw [fate_hearing, if_pos hm]
  rfl

/-! ## Collections -/

section Collections

variable {ν : Type} {f : ProcessorEvent → Option ν}

/-- A collection of what is heard holds nothing of who has left. -/
theorem get?_collect_heard (hleft : ∀ m, f (.departure m) = none) :
    (OrdMap.collect recipients fun m =>
        (fate recipients isMember (hearing recipients copy u) m).bind f).get? m
      = (awaitedCopy recipients isMember copy m).bind fun s => f (.reply m (s.answer m u)) := by
  rw [OrdMap.get?_collect, fate_hearing]
  by_cases hm : m ∈ recipients
  · rw [if_pos hm, if_pos hm, Option.bind_some, heard]
    cases awaitedCopy recipients isMember copy m with
    | none => exact hleft m
    | some s => rfl
  · have hcopy : awaitedCopy recipients isMember copy m = none := if_neg fun h => hm h.1
    rw [if_neg hm, hcopy]
    rfl

end Collections

/-! ## The verdict -/

theorem any_heard {f : ProcessorEvent → Bool} :
    (fate recipients isMember (hearing recipients copy u) m).any f
      = (decide (m ∈ recipients) && f (heard (awaitedCopy recipients isMember copy) u m)) := by
  rw [fate_hearing]
  by_cases hm : m ∈ recipients <;> simp [hm]

/-- The failures of the tally. -/
theorem fails_collect (recipients : List Member) (isMember : Member → Bool)
    (copy : Member → Option RegionState) (u : Update) : Fails
    (OrdMap.collect recipients fun m =>
      (fate recipients isMember (hearing recipients copy u) m).bind failed)
    (awaitedCopy recipients isMember copy) u := by
  intro m e
  rw [get?_collect_heard fun _ => rfl, Option.bind_eq_some_iff]
  refine exists_congr fun s => and_congr_right fun _ => ?_
  rw [RegionState.failed_answer, Option.map_eq_some_iff]
  exact exists_congr fun why => and_congr RegionState.failure?_eq_some eq_comm

/-- **A round fails with what went wrong at the awaited copies that failed**, if one did. -/
theorem remote_of_failure (id : Int32) {s : RegionState} {why : DeltaError}
    (hcopy : awaitedCopy recipients isMember copy m = some s)
    (hfailure : (s.applyUpdate u).1 = .error why) :
    ∃ failures, verdict id recipients isMember (hearing recipients copy u)
        = .error (.remote failures)
      ∧ Fails failures (awaitedCopy recipients isMember copy) u := by
  have hfails := fails_collect recipients isMember copy u
  refine ⟨_, ?_, hfails⟩
  rw [verdict_hearing, tally]
  refine if_neg fun hempty => ?_
  have hsome := (hfails m _).2 ⟨s, hcopy, why, hfailure, rfl⟩
  rw [OrdMap.isEmpty_iff.1 hempty m] at hsome
  cases hsome

/-- **A round succeeds if no awaited copy failed**, and says who made what of the update. -/
theorem reports_of_no_failure (id : Int32)
    (hfree : ∀ m s, awaitedCopy recipients isMember copy m = some s →
      ∀ why, (s.applyUpdate u).1 ≠ .error why) :
    ∃ o, verdict id recipients isMember (hearing recipients copy u) = .ok o
      ∧ o.Reports recipients (awaitedCopy recipients isMember copy) u := by
  have hfails := fails_collect recipients isMember copy u
  have hempty : (OrdMap.collect recipients fun m =>
      (fate recipients isMember (hearing recipients copy u) m).bind failed).isEmpty := by
    refine OrdMap.isEmpty_iff.2 fun m => Option.eq_none_iff_forall_ne_some.2 fun e he => ?_
    obtain ⟨s, hs, why, hwhy, -⟩ := (hfails m e).1 he
    exact hfree m s hs why hwhy
  have hreplies : ∀ m, (OrdMap.collect recipients fun m =>
      (fate recipients isMember (hearing recipients copy u) m).bind answered).get? m
      = (awaitedCopy recipients isMember copy m).bind fun s =>
        if s.takes u then some { processor := u.processor } else none := fun m => by
    rw [get?_collect_heard fun _ => rfl]
    simp only [RegionState.answered_answer]
  have hignored : ∀ m, (OrdMap.collect recipients fun m =>
      (fate recipients isMember (hearing recipients copy u) m).bind declined).get? m
      = (awaitedCopy recipients isMember copy m).bind fun s => (s.lacks? u).map fun why =>
        some { kind := .invalidDelta, message := why, sender := some m } := fun m => by
    rw [get?_collect_heard fun _ => rfl]
    simp only [RegionState.declined_answer]
  refine ⟨_, (verdict_hearing id).trans (if_pos hempty), ?_⟩
  have hcauses : ∀ m cause, (OrdMap.collect recipients fun m =>
      (fate recipients isMember (hearing recipients copy u) m).bind declined).get? m = some cause →
      cause.any ReplyException.wantsFullValue := by
    intro m cause hcause
    rw [hignored, Option.bind_eq_some_iff] at hcause
    obtain ⟨s, -, hs⟩ := hcause
    obtain ⟨why, -, rfl⟩ := Option.map_eq_some_iff.1 hs
    rfl
  have hwants := Outcome.needsFullValue_eq hcauses
  refine {
    replies := fun m => ?_
    plain := fun m r hr => ?_
    ignored := fun m => ?_
    needsFullValue := hwants _ _ _
    ascending := hwants _ _ _ ▸ OrdMap.keys_ascending _
    departed := fun m => ?_
    closed := OrdSet.ext_contains fun m => ?_ }
  · rw [OrdMap.mem_keys, OrdMap.contains_eq, hreplies, Option.isSome_bind]
    simp only [Option.any_eq_true, ← RegionState.takes_iff]
    refine exists_congr fun s => and_congr_right fun _ => ?_
    cases s.takes u <;> simp
  · rw [hreplies, Option.bind_eq_some_iff] at hr
    obtain ⟨s, -, hs⟩ := hr
    split at hs
    · exact (Option.some.inj hs).symm
    · cases hs
  · rw [OrdMap.mem_keys, OrdMap.contains_eq, hignored, Option.isSome_bind]
    simp only [Option.any_eq_true, ← RegionState.lacks?_eq_some]
    refine exists_congr fun s => and_congr_right fun _ => ?_
    cases s.lacks? u <;> simp
  · rw [OrdSet.mem_toList, OrdSet.contains_filter, OrdSet.contains_ofList, any_heard, heard]
    cases awaitedCopy recipients isMember copy m <;> simp [isDeparture]
  · rw [OrdSet.contains_filter, any_heard, heard]
    cases awaitedCopy recipients isMember copy m with
    | none => simp [isLast]
    | some s => simp only [RegionState.isLast_answer, Bool.and_false, OrdSet.contains_empty]

end DataGrid
