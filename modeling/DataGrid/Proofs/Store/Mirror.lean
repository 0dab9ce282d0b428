import DataGrid.Proofs.Region.Replicas
import DataGrid.Proofs.Store.Replay

/-!
# Mirror — a store that is told of changes only mirrors the primaries

A primary stays with its owner, who works on it and commits what each operation reports: its delta,
or the whole value if that was replaced. The store makes its copy from the commits alone. A report
says all that the operation did (`Operation.perform_describes`), so a copy that was alike to the
primary before the operation is alike to it after the commit (`MemoryStore.commit_mirrors`), and
one that was not told of an operation without a report is alike to it anyway. Over a run, every
commit succeeds and mirrors its primary (`Mirror.run_mirrors`).
-/

namespace DataGrid

/-! ## Definitions -/

/-- An operation on a value or its expiration. -/
inductive Operation where
  | sadd (members : List Bytes)
  | srem (members : List Bytes)
  /-- Removes `count` members of a set. The chosen ones are the ones to go if some stay. -/
  | spop (count : Nat) (chosen : List Bytes)
  | zadd (pairs : List (Bytes × Binary64))
  | zrem (members : List Bytes)
  | append (octets : Bytes)
  | set (octets : Bytes)
  /-- Sets the expiration, whether or not the time has passed. -/
  | expireAt (time : Int64)
  | persist

/-- The change that an operation reports by a delta, or by none. -/
def Change.ofDelta (delta : Option Delta) : Change := (delta.map .delta).getD .none

namespace Operation

/-- What an operation makes of a content, and what it reports. An operation for values of another
kind makes nothing of it. -/
def onContent : Operation → Content → Option (Content × Change)
  | .sadd members, .set s =>
    let (s, delta) := SetValue.add s members
    some (.set s, .ofDelta delta)
  | .srem members, .set s =>
    let (s, delta) := SetValue.remove s members
    some (.set s, .ofDelta delta)
  | .spop count chosen, .set s =>
    let (s, _, delta) := SetValue.pop s count chosen
    some (.set s, .ofDelta delta)
  | .zadd pairs, .sortedSet z =>
    let (z, delta) := ScoreTable.add z pairs
    some (.sortedSet z, .ofDelta delta)
  | .zrem members, .sortedSet z =>
    let (z, delta) := ScoreTable.remove z members
    some (.sortedSet z, .ofDelta delta)
  | .append octets, .string s =>
    let (s, _, delta) := s.append octets
    some (.string s, .delta delta)
  | .set octets, .string s => some (.string (s.replace octets), .full)
  | _, _ => none

/-- What an operation makes of an entity, and what it reports. -/
def perform : Operation → Entity → Option (Entity × Change)
  | .expireAt time, e =>
    let (e, delta) := e.expireAt time
    some (e, .delta delta)
  | .persist, e =>
    let (e, delta) := e.persist
    some (e, .ofDelta delta)
  | op, e => (op.onContent e.content).map fun (content, change) => ({ e with content }, change)

end Operation

/-- Commits what an operation reports of the entity under a key: a delta as such, a replaced value
as a whole, and nothing if nothing is reported. -/
def MemoryStore.commit (s : MemoryStore) (key : Bytes) (e : Entity) :
    Change → Except DeltaError Unit × Entity × MemoryStore
  | .none => (.ok (), e, s)
  | .delta d => ops.commitDelta s key e d
  | .full => ops.commitFull s key e

/-- Primaries under their keys, and the store that they are committed to. -/
structure Mirror where
  primaries : OrdMap Bytes Entity
  store : MemoryStore

namespace Mirror

/-- Does an operation on the primary under a key and commits it. Answers how the commit ended. An
operation that the primary does not have does nothing. -/
def step (m : Mirror) (key : Bytes) (op : Operation) : Except DeltaError Unit × Mirror :=
  match (m.primaries.get? key).bind op.perform with
  | none => (.ok (), m)
  | some (e, change) =>
    let (result, e, store) := m.store.commit key e change
    (result, { primaries := m.primaries.insert key e, store })

/-- What operations leave, one after another. -/
def run (m : Mirror) (steps : List (Bytes × Operation)) : Mirror :=
  steps.foldl (fun m p => (m.step p.1 p.2).2) m

/-- Whether the lengths in every primary can be written. -/
def Fits (m : Mirror) : Prop := ∀ p ∈ m.primaries.entries, p.2.content.Fits

instance (m : Mirror) : Decidable m.Fits := inferInstanceAs (Decidable (∀ p ∈ _, _))

/-- Whether no primary was stored yet, and nothing is staged on any. -/
def Fresh (m : Mirror) : Prop :=
  ∀ p ∈ m.primaries.entries, p.2.staged = none ∧ m.store.get? p.1 = none

instance (m : Mirror) : Decidable m.Fresh := inferInstanceAs (Decidable (∀ p ∈ _, _))

end Mirror

/-- Whether the copy of a primary is alike to it, if there is one, and nothing is staged on either
of them. -/
structure Entity.Leads (e : Entity) (slot : Option Entity) : Prop where
  staged : e.staged = none
  alike : ∀ copy, slot = some copy → e.Alike copy ∧ copy.staged = none

/-- **Whether a slot mirrors a primary**: it holds an entity alike to it, or nothing exactly if the
primary is empty. -/
structure Entity.MirroredBy (e : Entity) (slot : Option Entity) : Prop extends e.Leads slot where
  absent : slot = none ↔ e.isEmpty

/-! ## What operations report -/

namespace Operation

variable {op : Operation} {e e' : Entity} {content : Content} {change : Change}

theorem onContent_describes (h : op.onContent e.content = some (content, change)) :
    change.Describes e { e with content } := by
  cases hcontent : e.content with
  | set s =>
    rw [hcontent] at h
    cases op with
    | sadd members =>
      cases h
      exact Command.describes_of_told hcontent (s.add_told members)
    | srem members =>
      cases h
      exact Command.describes_of_told hcontent (s.remove_told members)
    | spop count chosen =>
      cases h
      exact Command.describes_of_told hcontent (s.pop_told count chosen)
    | zadd | zrem | append | set | expireAt | persist => cases h
  | string s =>
    rw [hcontent] at h
    cases op with
    | append octets =>
      cases h
      exact Command.describes_of_told hcontent (s.append_told octets)
    | set octets =>
      cases h
      trivial
    | sadd | srem | spop | zadd | zrem | expireAt | persist => cases h
  | sortedSet z =>
    rw [hcontent] at h
    cases op with
    | zadd pairs =>
      cases h
      exact Command.describes_of_told hcontent (ScoreTable.add_told z pairs)
    | zrem members =>
      cases h
      exact Command.describes_of_told hcontent (ScoreTable.remove_told z members)
    | sadd | srem | spop | append | set | expireAt | persist => cases h

/-- **A report says all that the operation did.** Nothing is staged by it. -/
theorem perform_describes (h : op.perform e = some (e', change)) :
    change.Describes e e' ∧ e'.staged = e.staged := by
  cases op with
  | expireAt time =>
    cases h
    exact ⟨⟨_, rfl, .refl _⟩, rfl⟩
  | persist =>
    simp only [perform, Entity.persist] at h
    split at h
    · cases h
      exact ⟨.refl _, rfl⟩
    · cases h
      exact ⟨⟨_, rfl, .refl _⟩, rfl⟩
  | sadd | srem | spop | zadd | zrem | append | set =>
    obtain ⟨⟨content, change'⟩, hcontent, heq⟩ := Option.map_eq_some_iff.1 h
    cases heq
    exact ⟨onContent_describes hcontent, rfl⟩

end Operation

/-! ## What a commit does -/

theorem Entity.unstage_of_none {e : Entity} (h : e.staged = none) : e.unstage = e := by
  obtain ⟨content, expiration, staged⟩ := e
  cases h
  rfl

namespace Entity.MirroredBy

variable {e copy : Entity}

theorem of_isEmpty (hstaged : e.staged = none) (h : e.isEmpty) : e.MirroredBy none where
  staged := hstaged
  alike := nofun
  absent := ⟨fun _ => h, fun _ => rfl⟩

theorem of_alike (hstaged : e.staged = none) (h : ¬e.isEmpty) (halike : e.Alike copy)
    (hcopy : copy.staged = none) : e.MirroredBy (some copy) where
  staged := hstaged
  alike := by
    rintro _ ⟨⟩
    exact ⟨halike, hcopy⟩
  absent := ⟨nofun, fun hempty => absurd hempty h⟩

end Entity.MirroredBy

namespace MemoryStore

variable {s : MemoryStore} {key : Bytes} {before e : Entity} {change : Change}

theorem get?_write (s : MemoryStore) (key : Bytes) (copy : Entity) (record : WriteRecord)
    (k : Bytes) : (s.write key copy record).get? k = if k = key then some copy else s.get? k :=
  OrdMap.get?_insert s.copies key k copy

theorem get?_remove (s : MemoryStore) (key k : Bytes) :
    (s.remove key).2.get? k = if k = key then none else s.get? k :=
  OrdMap.get?_erase s.copies key k

theorem applied?_of_unstaged (s : MemoryStore) (key : Bytes) (h : e.staged = none) :
    s.applied? key e = none := by
  rw [applied?, h]
  split <;> rfl

/-- A put takes the stage or leaves it, and nothing else of the entity. -/
theorem put_entity (s : MemoryStore) (key : Bytes) (e : Entity) :
    (s.put key e).2.1.unstage = e.unstage := by
  rw [put_eq]
  cases s.applied? key e with
  | some => rfl
  | none =>
    dsimp only [left]
    split <;> rfl

/-- A put of an entity with nothing staged takes the whole value. -/
theorem put_of_unstaged (s : MemoryStore) (key : Bytes) (h : e.staged = none) :
    s.put key e = ((s.putFull key e).1, e, (s.putFull key e).2) := by
  rw [put_eq, applied?_of_unstaged s key h]
  dsimp only [left]
  rw [Entity.unstage_of_none h, ite_self]

/-- A commit leaves the primary as it was. -/
theorem commit_entity (s : MemoryStore) (key : Bytes) (h : e.staged = none) (change : Change) :
    (s.commit key e change).2.1 = e := by
  cases change with
  | none => rfl
  | delta d =>
    simp only [commit, Store.commitDelta, ops]
    split
    · rfl
    · exact (put_entity s key (e.stage d)).trans (Entity.unstage_of_none h)
  | full =>
    simp only [commit, Store.commitFull, ops]
    split
    · rfl
    · rw [put_of_unstaged s key h]

theorem putFull_eq (s : MemoryStore) (key : Bytes) (h : e.content.Fits) :
    s.putFull key e = (.ok (), s.write key e.unstage (.full key e.snapshot)) :=
  putFull_of_ok (Entity.ofSnapshot_snapshot h)

/-- **A put of a delta, or of a whole value, makes a copy that is alike to the primary**, if the
copy that was there was alike to it before. -/
theorem put_mirrors (s : MemoryStore) (key : Bytes) {d : Delta} (hfits : e.content.Fits)
    (hd : (Change.delta d).Describes before e) (hcopy : before.Leads (s.get? key)) :
    ∃ copy record, (s.put key (e.stage d)).1 = .ok ()
      ∧ (s.put key (e.stage d)).2.2 = s.write key copy record
      ∧ e.Alike copy ∧ copy.staged = none := by
  rw [put_eq]
  cases happlied : s.applied? key (e.stage d) with
  | some made =>
    obtain ⟨hstaged, copy, hget, happly⟩ := applied?_eq_some happlied
    obtain rfl : d = made.1 := Option.some.inj hstaged
    -- The delta suits the primary before the operation, and so it suits the copy.
    obtain ⟨repeated, hrepeated, halike⟩ := hd
    obtain ⟨hbefore, hnone⟩ := hcopy.alike copy hget
    obtain ⟨copy', happly', halike', hstaged'⟩ := hbefore.apply hrepeated
    obtain rfl : made.2 = copy' := congrArg Prod.snd (happly.symm.trans happly')
    exact ⟨made.2, _, rfl, rfl, halike.trans halike', hstaged'.trans hnone⟩
  | none =>
    -- Whatever kept the store from the delta, the whole value is as good.
    have hfull := putFull_eq (e := e.stage d) s key hfits
    exact ⟨e.unstage, _, congrArg Prod.fst hfull, congrArg Prod.snd hfull, ⟨.refl _, rfl⟩, rfl⟩

/-- A commit of an empty primary removes its copy. -/
theorem commit_of_isEmpty (s : MemoryStore) (key : Bytes) (hchange : change ≠ .none)
    (h : e.isEmpty) : s.commit key e change = (.ok (), e, (s.remove key).2) := by
  cases change with
  | none => exact absurd rfl hchange
  | delta d => exact if_pos h
  | full => exact if_pos h

/-- A commit of any other primary writes a copy that is alike to it. -/
theorem commit_writes (s : MemoryStore) (key : Bytes) (hchange : change ≠ .none)
    (hempty : ¬e.isEmpty) (hstaged : e.staged = none) (hfits : e.content.Fits)
    (hd : change.Describes before e) (hcopy : before.Leads (s.get? key)) :
    ∃ copy record, (s.commit key e change).1 = .ok ()
      ∧ (s.commit key e change).2.2 = s.write key copy record
      ∧ e.Alike copy ∧ copy.staged = none := by
  cases change with
  | none => exact absurd rfl hchange
  | delta d =>
    rw [commit, Store.commitDelta, if_neg hempty]
    exact put_mirrors s key hfits hd hcopy
  | full =>
    have hput : s.commit key e .full = s.put key e := if_neg hempty
    rw [hput, put_of_unstaged s key hstaged, putFull_eq s key hfits]
    exact ⟨e.unstage, _, rfl, rfl, ⟨.refl _, rfl⟩, rfl⟩

/-- **A commit mirrors its primary**, and no other key is touched. Without a report the copy stays,
and is alike to the primary still. -/
theorem commit_mirrors (s : MemoryStore) (key : Bytes) (hstaged : e.staged = none)
    (hfits : e.content.Fits) (hd : change.Describes before e) (hcopy : before.Leads (s.get? key)) :
    ∃ slot, (s.commit key e change).1 = .ok () ∧ e.Leads slot
      ∧ (change ≠ .none → e.MirroredBy slot)
      ∧ ∀ k, (s.commit key e change).2.2.get? k = if k = key then slot else s.get? k := by
  by_cases hchange : change = .none
  · -- Nothing is written, and the copy is alike to the primary as it was and so as it is.
    subst hchange
    refine ⟨s.get? key, rfl, ⟨hstaged, fun copy hget => ?_⟩, fun h => absurd rfl h, fun k => ?_⟩
    · obtain ⟨halike, hnone⟩ := hcopy.alike copy hget
      exact ⟨(Entity.Alike.symm hd).trans halike, hnone⟩
    · split
      · next hk => rw [hk]; rfl
      · rfl
  by_cases hempty : e.isEmpty
  · have hgone := Entity.MirroredBy.of_isEmpty hstaged hempty
    rw [commit_of_isEmpty s key hchange hempty]
    exact ⟨none, rfl, hgone.toLeads, fun _ => hgone, get?_remove s key⟩
  · obtain ⟨copy, record, hok, hwrite, halike, hnone⟩ :=
      commit_writes s key hchange hempty hstaged hfits hd hcopy
    have hmade := Entity.MirroredBy.of_alike hstaged hempty halike hnone
    refine ⟨some copy, hok, hmade.toLeads, fun _ => hmade, fun k => ?_⟩
    rw [hwrite, get?_write]

end MemoryStore

/-! ## Runs -/

namespace Mirror

variable {m : Mirror} {key : Bytes} {op : Operation} {e e' : Entity} {change : Change}

/-- Whether every copy that there is of a primary is alike to it, with nothing staged. -/
def Kept (m : Mirror) : Prop :=
  ∀ key e, m.primaries.get? key = some e → e.Leads (m.store.get? key)

theorem Fresh.kept (h : m.Fresh) : m.Kept := by
  intro key e he
  obtain ⟨hstaged, hslot⟩ := h (key, e) (OrdMap.get?_eq_some_iff.1 he)
  exact ⟨hstaged, fun copy hcopy => absurd (hslot.symm.trans hcopy) nofun⟩

/-- What a step is when its primary has the operation. -/
theorem step_of_perform (hkept : m.Kept) (he : m.primaries.get? key = some e)
    (hop : op.perform e = some (e', change)) :
    m.step key op = ((m.store.commit key e' change).1, {
      primaries := m.primaries.insert key e'
      store := (m.store.commit key e' change).2.2 }) := by
  have hstaged : e'.staged = none :=
    (Operation.perform_describes hop).2.trans (hkept key e he).staged
  have hleft := MemoryStore.commit_entity m.store key hstaged change
  rw [step, he, Option.bind_some, hop]
  dsimp only
  rw [hleft]

/-- **A step keeps the copies, and if it commits its primary is mirrored.** -/
theorem Kept.step (hkept : m.Kept) (hfits : (m.step key op).2.Fits) :
    (m.step key op).1 = .ok () ∧ (m.step key op).2.Kept
      ∧ ∀ e e' change, m.primaries.get? key = some e → op.perform e = some (e', change) →
        change ≠ .none → (m.step key op).2.primaries.get? key = some e'
          ∧ e'.MirroredBy ((m.step key op).2.store.get? key) := by
  cases hmade : (m.primaries.get? key).bind op.perform with
  | none =>
    have hstep : m.step key op = (.ok (), m) := by rw [Mirror.step, hmade]
    rw [hstep]
    refine ⟨rfl, hkept, fun e e' change he hop => ?_⟩
    rw [he, Option.bind_some, hop] at hmade
    cases hmade
  | some made =>
    obtain ⟨e', change⟩ := made
    obtain ⟨e, he, hop⟩ := Option.bind_eq_some_iff.1 hmade
    obtain ⟨hd, hstaged⟩ := Operation.perform_describes hop
    have hleads := hkept key e he
    rw [step_of_perform hkept he hop] at hfits ⊢
    have he' : (m.primaries.insert key e').get? key = some e' := OrdMap.get?_insert_self _ key e'
    have hshort : e'.content.Fits := hfits (key, e') (OrdMap.get?_eq_some_iff.1 he')
    obtain ⟨slot, hok, hslot, hmirrored, hget⟩ :=
      m.store.commit_mirrors key (hstaged.trans hleads.staged) hshort hd hleads
    refine ⟨hok, fun k a ha => ?_, fun a a' change' ha haop hchange => ?_⟩
    · dsimp only at ha ⊢
      rw [OrdMap.get?_insert] at ha
      rw [hget]
      split at ha
      · next hk =>
        rw [if_pos hk]
        exact Option.some.inj ha ▸ hslot
      · next hk =>
        rw [if_neg hk]
        exact hkept k a ha
    · obtain rfl : e = a := Option.some.inj (he.symm.trans ha)
      obtain ⟨rfl, rfl⟩ := Prod.mk.inj (Option.some.inj (hop.symm.trans haop))
      refine ⟨he', ?_⟩
      rw [hget, if_pos rfl]
      exact hmirrored hchange

theorem run_concat (m : Mirror) (front : List (Bytes × Operation)) (key : Bytes) (op : Operation) :
    m.run (front ++ [(key, op)]) = ((m.run front).step key op).2 := by
  rw [run, List.foldl_append]
  rfl

/-- Runs keep the copies. -/
theorem Kept.run {steps : List (Bytes × Operation)} (hkept : m.Kept)
    (hfits : ∀ front, front <+: steps → (m.run front).Fits) : (m.run steps).Kept := by
  -- By the last step: the lengths are bounded after every beginning of the run.
  induction steps using List.reverseRecOn with
  | nil => exact hkept
  | append_singleton front p ih =>
    obtain ⟨key, op⟩ := p
    have hbefore := ih fun front' h => hfits front' (h.trans (List.prefix_append front _))
    rw [run_concat]
    refine (hbefore.step ?_).2.1
    rw [← run_concat]
    exact hfits _ List.prefix_rfl

/-- **Every commit of a run mirrors its primary.** Primaries that no store has seen yet are worked
on in any order, with any operations, and the store may know deltas or not, and may have copies of
anything else. Then no commit fails, nothing stays staged, every copy of a primary is alike to it
at any time, and after an operation that reports a change the store holds under its key an entity
alike to the primary, or nothing exactly if the primary is empty. -/
theorem run_mirrors (m : Mirror) (steps : List (Bytes × Operation)) (hfresh : m.Fresh)
    (hfits : ∀ front, front <+: steps → (m.run front).Fits) {front : List (Bytes × Operation)}
    {key : Bytes} {op : Operation} (hnext : front ++ [(key, op)] <+: steps) :
    let before := m.run front
    let after := before.step key op
    after.1 = .ok ()
      ∧ (∀ k e, after.2.primaries.get? k = some e → e.Leads (after.2.store.get? k))
      ∧ ∀ e e' change, before.primaries.get? key = some e → op.perform e = some (e', change) →
        change ≠ .none →
          after.2.primaries.get? key = some e' ∧ e'.MirroredBy (after.2.store.get? key) := by
  have hfront : front <+: steps := (List.prefix_append front _).trans hnext
  have hkept : (m.run front).Kept := hfresh.kept.run fun front' h => hfits front' (h.trans hfront)
  refine hkept.step ?_
  rw [← run_concat]
  exact hfits _ hnext

/-- A set that is emptied, filled and emptied again, a string that is replaced and appended to, and
a sorted set with a zero that changes its sign. No delta tells of the sign, so the copy keeps the
old one. -/
theorem run_mirrors_signs :
    let m : Mirror := {
      primaries := .ofList [([1], { content := .set .empty }),
        ([2], { content := .sortedSet .empty }), ([3], { content := .string {} })]
      store := { deltaAware := true, copies := .ofList [([9], { content := .string {} })] } }
    let front : List (Bytes × Operation) := [
      ([1], .sadd [[97], [98]]), ([1], .sadd [[98], [99]]), ([1], .srem [[97], [98], [99]]),
      ([1], .sadd [[97]]), ([1], .spop 1 []),
      ([3], .set [104]), ([3], .append [105]), ([3], .persist),
      ([2], .zadd [([97], ⟨0⟩), ([98], ⟨0x7ff8000000000001⟩), ([99], ⟨1⟩)]),
      ([2], .zrem [[99]]), ([2], .zadd [([97], ⟨0x8000000000000000⟩)])]
    let op : Operation := .expireAt 5
    let e : Entity := {
      content := .sortedSet (.ofList [([97], ⟨0x8000000000000000⟩), ([98], ⟨0x7ff8000000000001⟩)])
      expiration := 5 }
    m.Fresh ∧ (∀ steps, steps <+: front ++ [([2], op)] → (m.run steps).Fits)
      ∧ ((m.run front).step [2] op).1 = .ok ()
      ∧ ((m.run front).step [2] op).2.store.log.length = 10
      ∧ ((m.run front).step [2] op).2.primaries.get? [2] = some e
      ∧ e.MirroredBy (((m.run front).step [2] op).2.store.get? [2])
      ∧ ((m.run front).step [2] op).2.store.get? [2] ≠ some e := by
  intro m front op e
  have hfresh : m.Fresh := by decide +kernel
  have hshort : ∀ steps ∈ (front ++ [([2], op)]).inits, (m.run steps).Fits := by decide +kernel
  have hfits : ∀ steps, steps <+: front ++ [([2], op)] → (m.run steps).Fits :=
    fun steps h => hshort steps ((List.mem_inits _ _).2 h)
  have hbefore : (m.run front).primaries.get? [2] = some { e with expiration := -1 } := by
    decide +kernel
  have hnext : front ++ [([2], op)] <+: front ++ [([2], op)] := List.prefix_rfl
  obtain ⟨hok, -, hmirrored⟩ := run_mirrors m _ hfresh hfits hnext
  have hop : op.perform { e with expiration := -1 } = some (e, .delta (.timestamp 5)) := rfl
  obtain ⟨he, hslot⟩ := hmirrored _ e _ hbefore hop nofun
  have hlog : ((m.run front).step [2] op).2.store.log.length = 10 := by decide +kernel
  have hdiffers : ((m.run front).step [2] op).2.store.get? [2] ≠ some e := by decide +kernel
  exact ⟨hfresh, hfits, hok, hlog, he, hslot, hdiffers⟩

end Mirror

end DataGrid
