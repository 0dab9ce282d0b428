import DataGrid.Proofs.Entity.Told
import DataGrid.Proofs.Event.Unseen
import DataGrid.Proofs.Region.Wire
import DataGrid.Region.State
import DataGrid.Region.Command

/-!
# Replicas — a payload does to a copy what the command did

A command that runs on one copy makes a payload for the others. On any copy that is alike under
the key, the payload is applied and leaves it alike again, whatever the command and whatever the
copy holds under other keys (`Entries.run_replicates`). No command makes a payload only if nothing
changed for the others. Copies are kept tidy throughout: they hold no empty entity and nothing is
staged.
-/

namespace DataGrid

/-! ## Definitions -/

namespace Entries

/-- Whether two copies hold alike entities under a key, or both none. -/
def AlikeAt (key : Bytes) (a b : Entries) : Prop :=
  Option.Rel Entity.Alike (a.get? key) (b.get? key)

/-- **Whether two copies are alike**: they have the same keys, and alike entities under each. -/
def Alike (a b : Entries) : Prop := ∀ key, a.AlikeAt key b

section

variable {key : Bytes} {a b c : Entries}

theorem AlikeAt.refl (key : Bytes) (a : Entries) : AlikeAt key a a :=
  rel_refl Entity.Alike.refl _

theorem AlikeAt.symm (h : AlikeAt key a b) : AlikeAt key b a :=
  rel_symm (fun _ _ => Entity.Alike.symm) h

theorem AlikeAt.trans (h : AlikeAt key a b) (h' : AlikeAt key b c) : AlikeAt key a c :=
  rel_trans (fun _ _ _ => Entity.Alike.trans) h h'

theorem Alike.refl (a : Entries) : Alike a a := fun key => .refl key a

theorem Alike.symm (h : Alike a b) : Alike b a := fun key => (h key).symm

theorem Alike.trans (h : Alike a b) (h' : Alike b c) : Alike a c :=
  fun key => (h key).trans (h' key)

end

/-- Whether entries hold neither empty entities nor staged deltas. -/
def Tidy (a : Entries) : Prop := ∀ key e, a.get? key = some e → e.isEmpty = false ∧ e.staged = none

theorem tidy_empty : Tidy .empty := fun _ _ he => absurd he.symm (Option.some_ne_none _)

end Entries

/-- What is kept of an entity: nothing if it is empty. -/
def Entity.kept (e : Entity) : Option Entity := if e.isEmpty then none else some e

/-- What a change promises of the entity before and the entity after: without a change they are
alike, and a delta leads from one to the other. -/
def Change.Describes (before after : Entity) : Change → Prop
  | .none => before.Alike after
  | .delta d => ∃ repeated, before.apply d = (.ok (), repeated) ∧ after.Alike repeated
  | .full => True

/-- Whether a command may leave an entity where it found a slot, and report a change: the change
describes what became of the entity that was there, and a new entity goes unreported only if it is
empty. -/
structure Change.Suits (slot : Option Entity) (after : Entity) (change : Change) : Prop where
  staged : after.staged = Option.none
  describes : ∀ before, slot = some before → change.Describes before after
  isEmpty : slot = Option.none → change = .none → after.isEmpty

/-- Whether the lengths in what is told of a changed entity can be written: those of the delta, or
of the whole value if the others have no copy of it. -/
def Change.Fits (existed : Bool) (after : Entity) : Change → Prop
  | .none => True
  | .full => after.content.Fits
  | .delta d => if existed then d.Fits else after.content.Fits

/-- **Whether a payload carries a change under a key**: on every copy that is alike to the slot
before, it is applied, makes the copy alike to the slot after, and touches no other key. -/
def Payload.Carries (p : Payload) (key : Bytes) (before after : Option Entity) : Prop :=
  ∀ copy : Entries, Option.Rel Entity.Alike before (copy.get? key) →
    ∃ copy' : Entries, copy.applyPayload key p = (.ok .applied, copy')
      ∧ Option.Rel Entity.Alike after (copy'.get? key)
      ∧ (∀ k, k ≠ key → copy'.get? k = copy.get? k)
      ∧ (copy.Tidy → copy'.Tidy)

/-- What the payload of a command promises under a key, if the payload can be sent. Without a
payload the slots before and after are alike. -/
def Payload.Tells (key : Bytes) (before after : Option Entity) : Option Payload → Prop
  | none => Option.Rel Entity.Alike before after
  | some p => p.octets.length < 2147483648 → p.Carries key before after

/-! ## Commands -/

namespace Command

variable {slot : Option Entity} {answer : Answer} {change : Change} {left : Option Entity}

/-- A delta that leads from a content to one alike to the content that is left. -/
theorem describes_delta {e : Entity} {d : Delta} {content repeated : Content}
    (h : e.content.apply d = (.ok (), repeated)) (halike : content.Alike repeated) :
    (Change.delta d).Describes e { e with content } := by
  have htime : d.kind ≠ .timestamp := by
    cases d with
    | timestamp time => cases hc : e.content <;> rw [hc] at h <;> cases h
    | adds | rems | append | zadds => exact nofun
  refine ⟨{ e with content := repeated }, ?_, halike, rfl⟩
  rw [Entity.apply_eq e htime, h]

/-- The entity that a command on one kind of content starts from. -/
def startsFrom (slot : Option Entity) (blank : Content) (e : Entity) : Prop :=
  slot = some e ∨ slot = none ∧ e = { content := blank }

theorem onSet_ok {f : SetValue → SetValue × Answer × Change}
    (h : onSet slot f = .ok (answer, change, left)) :
    ∃ e s, startsFrom slot (.set .empty) e ∧ e.content = .set s ∧ change = (f s).2.2
      ∧ left = some { e with content := .set (f s).1 } := by
  cases slot with
  | none =>
    cases h
    exact ⟨_, _, .inr ⟨rfl, rfl⟩, rfl, rfl, rfl⟩
  | some e =>
    obtain ⟨content, expiration, staged⟩ := e
    cases content with
    | set s =>
      cases h
      exact ⟨_, _, .inl rfl, rfl, rfl, rfl⟩
    | string | sortedSet => cases h

theorem onString_ok {f : StringValue → StringValue × Answer × Change}
    (h : onString slot f = .ok (answer, change, left)) :
    ∃ e s, startsFrom slot (.string {}) e ∧ e.content = .string s ∧ change = (f s).2.2
      ∧ left = some { e with content := .string (f s).1 } := by
  cases slot with
  | none =>
    cases h
    exact ⟨_, _, .inr ⟨rfl, rfl⟩, rfl, rfl, rfl⟩
  | some e =>
    obtain ⟨content, expiration, staged⟩ := e
    cases content with
    | string s =>
      cases h
      exact ⟨_, _, .inl rfl, rfl, rfl, rfl⟩
    | set | sortedSet => cases h

theorem onSortedSet_ok {f : ScoreTable → ScoreTable × Answer × Change}
    (h : onSortedSet slot f = .ok (answer, change, left)) :
    ∃ e z, startsFrom slot (.sortedSet .empty) e ∧ e.content = .sortedSet z ∧ change = (f z).2.2
      ∧ left = some { e with content := .sortedSet (f z).1 } := by
  cases slot with
  | none =>
    cases h
    exact ⟨_, _, .inr ⟨rfl, rfl⟩, rfl, rfl, rfl⟩
  | some e =>
    obtain ⟨content, expiration, staged⟩ := e
    cases content with
    | sortedSet z =>
      cases h
      exact ⟨_, _, .inl rfl, rfl, rfl, rfl⟩
    | set | string => cases h

/-- The change of an operation on a value, as commands report it. -/
theorem describes_of_told {e : Entity} {before content : Content} {delta : Option Delta}
    (he : e.content = before) (h : before.Told content delta) :
    ((delta.map Change.delta).getD .none).Describes e { e with content } := by
  subst he
  cases delta with
  | none => exact ⟨h, rfl⟩
  | some d =>
    obtain ⟨repeated, happly, halike⟩ := h
    exact describes_delta happly halike

theorem counted_change (delta : Option Delta) :
    (counted delta).2 = (delta.map Change.delta).getD .none := by
  cases delta <;> rfl

/-- What is left of an entity that was there. -/
theorem suits_of_some {e after : Entity} (hstaged : after.staged = none)
    (hd : change.Describes e after) : change.Suits (some e) after where
  staged := hstaged
  describes := by
    intro before hb
    obtain rfl := Option.some.inj hb
    exact hd
  isEmpty hn := absurd hn (Option.some_ne_none e)

theorem suits_of_startsFrom {blank content : Content} {e : Entity}
    (hslot : ∀ e, slot = some e → e.staged = none) (hs : startsFrom slot blank e)
    (hblank : blank.isEmpty ∨ change ≠ .none) (hd : change.Describes e { e with content }) :
    change.Suits slot { e with content } := by
  rcases hs with rfl | ⟨rfl, rfl⟩
  · exact suits_of_some (hslot e rfl) hd
  · refine ⟨rfl, fun before hb => absurd hb.symm (Option.some_ne_none before), fun _ hc => ?_⟩
    -- Nothing changed, so what is left is as empty as what the command started from.
    subst hc
    rw [← Entity.Alike.isEmpty_eq hd]
    exact hblank.resolve_right fun hne => hne rfl

theorem onSet_suits (hslot : ∀ e, slot = some e → e.staged = none)
    {f : SetValue → SetValue × Answer × Change} {after : Entity}
    (hf : ∀ s, ∃ delta, (f s).2.2 = (Option.map Change.delta delta).getD .none
      ∧ (Content.set s).Told (.set (f s).1) delta)
    (h : onSet slot f = .ok (answer, change, some after)) : change.Suits slot after := by
  obtain ⟨e, s, hs, hcontent, rfl, hleft⟩ := onSet_ok h
  obtain rfl := Option.some.inj hleft
  obtain ⟨delta, hdelta, htold⟩ := hf s
  rw [hdelta]
  exact suits_of_startsFrom hslot hs (.inl rfl) (describes_of_told hcontent htold)

theorem onSortedSet_suits (hslot : ∀ e, slot = some e → e.staged = none)
    {f : ScoreTable → ScoreTable × Answer × Change} {after : Entity}
    (hf : ∀ z, ∃ delta, (f z).2.2 = (Option.map Change.delta delta).getD .none
      ∧ (Content.sortedSet z).Told (.sortedSet (f z).1) delta)
    (h : onSortedSet slot f = .ok (answer, change, some after)) : change.Suits slot after := by
  obtain ⟨e, z, hs, hcontent, rfl, hleft⟩ := onSortedSet_ok h
  obtain rfl := Option.some.inj hleft
  obtain ⟨delta, hdelta, htold⟩ := hf z
  rw [hdelta]
  exact suits_of_startsFrom hslot hs (.inl rfl) (describes_of_told hcontent htold)

/-- **What a command reports suits what it leaves.** -/
theorem mutate_suits {c : Command} {after : Entity} (hslot : ∀ e, slot = some e → e.staged = none)
    (h : c.mutate slot = .ok (answer, change, some after)) : change.Suits slot after := by
  cases c with
  | sadd members =>
    simp only [mutate] at h
    exact onSet_suits hslot (fun s => ⟨_, counted_change _, s.add_told members⟩) h
  | srem members =>
    simp only [mutate] at h
    split at h
    · cases h
    · exact onSet_suits hslot (fun s => ⟨_, counted_change _, s.remove_told members⟩) h
  | spop count chosen =>
    simp only [mutate] at h
    split at h
    · cases h
    · exact onSet_suits hslot (fun s => ⟨_, rfl, s.pop_told count chosen⟩) h
  | set octets =>
    -- The value is replaced, and its form says nothing of the one before.
    simp only [mutate] at h
    split at h
    · have hstaged := hslot _ rfl
      cases h
      exact suits_of_some hstaged trivial
    · cases h
      exact ⟨rfl, fun _ _ => trivial, nofun⟩
  | append octets =>
    simp only [mutate] at h
    obtain ⟨e, s, hs, hcontent, rfl, hleft⟩ := onString_ok h
    obtain rfl := Option.some.inj hleft
    exact suits_of_startsFrom hslot hs (.inr nofun)
      (describes_of_told hcontent (s.append_told octets))
  | zadd pairs =>
    simp only [mutate] at h
    exact onSortedSet_suits hslot (fun z => ⟨_, counted_change _, z.add_told pairs⟩) h
  | zrem members =>
    simp only [mutate] at h
    split at h
    · cases h
    · exact onSortedSet_suits hslot (fun z => ⟨_, counted_change _, z.remove_told members⟩) h
  | expireAt time now =>
    cases slot with
    | none => cases h
    | some e =>
      simp only [mutate, Entity.expireOrRemove, Entity.expireAt] at h
      by_cases hpassed : time ≤ now
      · simp only [if_pos hpassed] at h
        cases h
      · simp only [if_neg hpassed] at h
        cases h
        exact suits_of_some (hslot e rfl) ⟨_, rfl, .refl _⟩
  | persist =>
    cases slot with
    | none => cases h
    | some e =>
      have hstaged := hslot e rfl
      simp only [mutate, Entity.persist, Entity.expireAt] at h
      by_cases hnever : e.expiration = Entity.never
      · simp only [if_pos hnever] at h
        cases h
        exact suits_of_some hstaged (.refl _)
      · simp only [if_neg hnever] at h
        cases h
        exact suits_of_some hstaged ⟨_, rfl, .refl _⟩
  | delete => cases h

end Command

/-! ## Copies -/

namespace Entries

variable {entries copy : Entries} {key : Bytes} {e : Entity}

theorem get?_keep (entries : Entries) (key k : Bytes) (e : Entity) :
    (entries.keep key e).get? k = if k = key then e.kept else entries.get? k := by
  unfold keep Entity.kept
  split
  · rw [OrdMap.get?_erase]
  · rw [OrdMap.get?_insert]

theorem get?_keep_self (entries : Entries) (key : Bytes) (e : Entity) :
    (entries.keep key e).get? key = e.kept := by
  rw [get?_keep, if_pos rfl]

theorem get?_keep_of_ne (entries : Entries) (e : Entity) {key k : Bytes} (h : k ≠ key) :
    (entries.keep key e).get? k = entries.get? k := by
  rw [get?_keep, if_neg h]

theorem Tidy.keep (h : entries.Tidy) (he : e.staged = none) : (entries.keep key e).Tidy := by
  intro k a hk
  rw [get?_keep] at hk
  split at hk
  · unfold Entity.kept at hk
    split at hk
    · cases hk
    · next hempty =>
      cases hk
      exact ⟨Bool.eq_false_iff.2 hempty, he⟩
  · exact h k a hk

theorem Tidy.erase (h : entries.Tidy) : Tidy (entries.erase key) := by
  intro k a hk
  rw [OrdMap.get?_erase] at hk
  split at hk
  · cases hk
  · exact h k a hk

/-- Keeping alike entities leaves alike slots. -/
theorem rel_kept {a b : Entity} (h : a.Alike b) : Option.Rel Entity.Alike a.kept b.kept := by
  unfold Entity.kept
  rw [h.isEmpty_eq]
  split
  · exact .none
  · exact .some h

end Entries

namespace Payload

variable {key : Bytes} {before : Option Entity} {e : Entity}

theorem carries_destroy (key : Bytes) (before : Option Entity) :
    Payload.destroy.Carries key before none := by
  intro copy _
  refine ⟨_, rfl, ?_, fun k hk => ?_, Entries.Tidy.erase⟩
  · rw [OrdMap.get?_erase_self]
    exact .none
  · exact OrdMap.get?_erase_of_ne _ hk

theorem carries_full (key : Bytes) (before : Option Entity) (h : e.content.Fits) :
    (Payload.full e.snapshot).Carries key before e.kept := by
  intro copy _
  refine ⟨copy.keep key e.unstage, ?_, ?_, fun k hk => ?_, fun htidy => htidy.keep rfl⟩
  · rw [Entries.applyPayload, Entity.ofSnapshot_snapshot h]
  · rw [Entries.get?_keep_self]
    exact Entries.rel_kept ⟨.refl _, rfl⟩
  · exact Entries.get?_keep_of_ne copy _ hk

theorem carries_delta {d : Delta} {a : Entity} (hd : (Change.delta d).Describes a e) (h : d.Fits) :
    (Payload.delta d.encode).Carries key (some a) e.kept := by
  intro copy hcopy
  obtain ⟨b, hb, hab⟩ := eq_some_of_rel hcopy
  obtain ⟨repeated, happly, halike⟩ := hd
  obtain ⟨b', hb', halike', hstaged⟩ := hab.apply happly
  refine ⟨copy.keep key b', ?_, ?_, fun k hk => ?_, fun htidy => htidy.keep ?_⟩
  · rw [Entries.applyPayload_delta hb, Entity.applyBytes_eq (Delta.ofBytes_encode h), hb']
    rfl
  · rw [Entries.get?_keep_self]
    exact Entries.rel_kept (halike.trans halike')
  · exact Entries.get?_keep_of_ne copy _ hk
  · rw [hstaged]
    exact (htidy key b hb).2

end Payload

/-! ## Running a command -/

namespace Command

variable {key : Bytes} {e : Entity}

/-- The payload of a whole value, or of its removal. -/
def wholePayload (e : Entity) : Payload := if e.isEmpty then .destroy else .full e.snapshot

theorem commitFull_eq (key : Bytes) (he : e.staged = none) :
    collector.commitFull none key e = (.ok (), e, some (wholePayload e)) := by
  unfold Store.commitFull wholePayload
  split
  · rfl
  · simp only [collector, Entity.capture, he]

theorem commitDelta_eq (key : Bytes) (he : e.staged = none) (d : Delta) :
    collector.commitDelta none key e d
      = (.ok (), e, some (if e.isEmpty then .destroy else .delta d.encode)) := by
  have hunstage : (e.stage d).unstage.unstage = e := by
    obtain ⟨content, expiration, staged⟩ := e
    cases he
    rfl
  unfold Store.commitDelta
  split
  · rfl
  · simp only [collector, Entity.capture, Entity.stage]
    exact congrArg (fun e => (Except.ok (), e, some (Payload.delta d.encode))) hunstage

theorem wholePayload_carries (key : Bytes) (before : Option Entity)
    (h : e.isEmpty = false → e.content.Fits) : (wholePayload e).Carries key before e.kept := by
  unfold wholePayload
  split
  · next hempty =>
    rw [Entity.kept, if_pos hempty]
    exact Payload.carries_destroy key before
  · next hempty => exact Payload.carries_full key before (h (Bool.eq_false_iff.2 hempty))

/-- What a commit ships of an entity. -/
def shipped (existed : Bool) (e : Entity) : Change → Option Payload
  | .none => none
  | .full => some (wholePayload e)
  | .delta d => some (if existed && !e.isEmpty then .delta d.encode else wholePayload e)

/-- What storing ships of what a command left. A new entity that is empty is not told of. -/
def payloadOf (existed : Bool) (change : Change) : Option Entity → Option Payload
  | none => if existed then some .destroy else none
  | some e => if !existed && e.isEmpty then none else shipped existed e change

/-- A commit succeeds and leaves the entity as it is. -/
theorem commit_eq (existed : Bool) (key : Bytes) (he : e.staged = none) (change : Change) :
    commit existed key e change = (.ok (), e, shipped existed e change) := by
  cases change with
  | none => rfl
  | full => exact commitFull_eq key he
  | delta d =>
    cases existed with
    | false => exact commitFull_eq key he
    | true =>
      rw [commit, if_pos rfl, commitDelta_eq key he, shipped]
      cases hempty : e.isEmpty <;> simp [wholePayload, hempty]

variable {slot left : Option Entity} {change : Change} {p : Payload}

/-- A payload that is short has lengths that can be written. -/
theorem fits_of_short {existed : Bool} (hp : payloadOf existed change left = some p)
    (hshort : p.octets.length < 2147483648) :
    ∀ e, left = some e → e.isEmpty = false → change.Fits existed e := by
  intro e hleft hempty
  subst hleft
  have hwhole : wholePayload e = .full e.snapshot := by rw [wholePayload, hempty]; rfl
  simp only [payloadOf, hempty, Bool.and_false, Bool.false_eq_true, if_false] at hp
  cases change with
  | none => trivial
  | full =>
    obtain rfl := Option.some.inj hp
    rw [hwhole] at hshort
    exact Entity.fits_of_short hshort
  | delta d =>
    obtain rfl := Option.some.inj hp
    cases existed with
    | false =>
      rw [hempty, hwhole] at hshort
      exact Entity.fits_of_short hshort
    | true =>
      rw [hempty] at hshort
      exact Delta.fits_of_short hshort

/-- What is shipped of a change carries it. -/
theorem payloadOf_carries (key : Bytes)
    (hsuits : ∀ e, left = some e → change.Suits slot e)
    (hfits : ∀ e, left = some e → e.isEmpty = false → change.Fits slot.isSome e)
    (hp : payloadOf slot.isSome change left = some p) :
    p.Carries key slot (left.bind Entity.kept) := by
  cases left with
  | none =>
    simp only [payloadOf] at hp
    split at hp
    · obtain rfl := Option.some.inj hp
      exact Payload.carries_destroy key slot
    · cases hp
  | some e =>
    have hdescribes := (hsuits e rfl).describes
    have hlengths := hfits e rfl
    simp only [payloadOf] at hp
    split at hp
    · cases hp
    cases change with
    | none => cases hp
    | full =>
      obtain rfl := Option.some.inj hp
      exact wholePayload_carries key slot hlengths
    | delta d =>
      obtain rfl := Option.some.inj hp
      cases slot with
      | none => exact wholePayload_carries key none hlengths
      | some before =>
        cases hempty : e.isEmpty with
        | true => exact wholePayload_carries key _ fun h => absurd (hempty.symm.trans h) nofun
        | false => exact Payload.carries_delta (hdescribes before rfl) (hlengths hempty)

/-- If nothing is shipped, nothing changed. -/
theorem rel_of_payloadOf_eq_none (hslot : ∀ e, slot = some e → e.isEmpty = false)
    (hsuits : ∀ e, left = some e → change.Suits slot e)
    (hp : payloadOf slot.isSome change left = none) :
    Option.Rel Entity.Alike slot (left.bind Entity.kept) := by
  cases left with
  | none =>
    cases slot with
    | none => exact .none
    | some before => cases hp
  | some e =>
    obtain ⟨-, hdescribes, hnew⟩ := hsuits e rfl
    cases change with
    | none =>
      cases slot with
      | none =>
        rw [Option.bind_some, Entity.kept, if_pos (hnew rfl rfl)]
        exact .none
      | some before =>
        have halike : before.Alike e := hdescribes before rfl
        rw [Option.bind_some, Entity.kept, ← halike.isEmpty_eq, hslot before rfl]
        exact .some halike
    | delta | full =>
      simp only [payloadOf] at hp
      split at hp
      · next hempty =>
        rw [Bool.and_eq_true, Bool.not_eq_true', Option.isSome_eq_false_iff,
          Option.isNone_iff_eq_none] at hempty
        rw [hempty.1, Option.bind_some, Entity.kept, if_pos hempty.2]
        exact .none
      · cases hp

end Command

namespace Entries

variable {entries : Entries} {key : Bytes} {c : Command} {answer : Answer} {change : Change}
  {left : Option Entity}

theorem keep_eq_set (entries : Entries) (key : Bytes) (e : Entity) :
    entries.keep key e = entries.set key e.kept := by
  unfold keep Entity.kept
  split <;> rfl

theorem Tidy.set (h : entries.Tidy) (key : Bytes) (hleft : ∀ e, left = some e → e.staged = none) :
    Tidy (entries.set key (left.bind Entity.kept)) := by
  cases left with
  | none => exact h.erase
  | some e =>
    rw [Option.bind_some, ← keep_eq_set]
    exact h.keep (hleft e rfl)

/-- **Storing keeps what a command left, and ships what has to be told of it.** -/
theorem store_eq (entries : Entries) (key : Bytes) (existed : Bool) (change : Change)
    (hleft : ∀ e, left = some e → e.staged = none) :
    entries.store key existed change left
      = (.ok (Command.payloadOf existed change left), entries.set key (left.bind Entity.kept)) := by
  cases left with
  | none => rfl
  | some e =>
    simp only [store, Command.payloadOf, Option.bind_some]
    split
    · next hempty =>
      rw [Bool.and_eq_true] at hempty
      rw [Entity.kept, if_pos hempty.2]
      rfl
    · rw [Command.commit_eq existed key (hleft e rfl), keep_eq_set]
      rfl

/-- **A command is carried out**: what it left is kept, and told of. -/
theorem Tidy.run_ok (htidy : entries.Tidy)
    (hmutate : c.mutate (entries.get? key) = .ok (answer, change, left)) :
    (∀ e, left = some e → change.Suits (entries.get? key) e)
      ∧ entries.run key c
        = (.ok (answer, Command.payloadOf (entries.get? key).isSome change left),
            entries.set key (left.bind Entity.kept)) := by
  have hsuits : ∀ e, left = some e → change.Suits (entries.get? key) e := by
    intro e he
    subst he
    exact Command.mutate_suits (fun e he => (htidy key e he).2) hmutate
  refine ⟨hsuits, ?_⟩
  rw [run]
  simp only [hmutate, store_eq entries key _ change fun e he => (hsuits e he).staged]

/-- **A command that is refused changes nothing.** -/
theorem Tidy.run_refused (htidy : entries.Tidy) {why : WrongKind}
    (hmutate : c.mutate (entries.get? key) = .error why) :
    entries.run key c = (.error (.wrongKind key why), entries) := by
  rw [run]
  simp only [hmutate]
  congr 1
  cases hslot : entries.get? key with
  | none => rfl
  | some e =>
    refine OrdMap.ext_get? fun k => ?_
    rw [Option.map_some, Option.getD_some, get?_keep]
    split
    · next hk => rw [hk, hslot, Entity.kept, (htidy key e hslot).1]; rfl
    · rfl

/-- **A command's payload does to every copy what the command did.** A refused command changes
nothing, a command without a payload changes nothing for the others, and no command touches
another key. -/
theorem run_replicates (htidy : entries.Tidy) (key : Bytes) (c : Command) :
    ∃ entries', (entries.run key c).2 = entries' ∧ entries'.Tidy
      ∧ (∀ k, k ≠ key → entries'.get? k = entries.get? k)
      ∧ match (entries.run key c).1 with
        | .ok (_, payload) => Payload.Tells key (entries.get? key) (entries'.get? key) payload
        | .error _ => entries' = entries := by
  cases hmutate : c.mutate (entries.get? key) with
  | error why =>
    rw [htidy.run_refused hmutate]
    exact ⟨_, rfl, htidy, fun k _ => rfl, rfl⟩
  | ok result =>
    obtain ⟨answer, change, left⟩ := result
    obtain ⟨hsuits, hrun⟩ := htidy.run_ok hmutate
    rw [hrun]
    refine ⟨_, rfl, htidy.set key fun e he => (hsuits e he).staged, fun k hk => ?_, ?_⟩
    · rw [OrdMap.get?_set, if_neg hk]
    · rw [OrdMap.get?_set, if_pos rfl]
      cases hp : Command.payloadOf (entries.get? key).isSome change left with
      | none =>
        exact Command.rel_of_payloadOf_eq_none (fun e he => (htidy key e he).1) hsuits hp
      | some p =>
        intro hshort
        exact Command.payloadOf_carries key hsuits (Command.fits_of_short hp hshort) hp

end Entries

namespace RegionState

variable {s : RegionState} {u : Update}

/-- An update that is new does what its payload does. -/
theorem applyUpdate_of_unseen (h : s.tracker.hasSeen u.event = false) :
    s.applyUpdate u = ((s.entries.applyPayload u.key u.payload).1, {
      entries := (s.entries.applyPayload u.key u.payload).2
      tracker := (s.tracker.record u.event).2 }) := by
  have hnew := Tracker.record_of_unseen h
  rw [applyUpdate]
  rcases hrecord : s.tracker.record u.event with ⟨new, tracker⟩
  rw [hrecord] at hnew
  obtain rfl : new = true := hnew
  rfl

/-- **An update that is unseen and carries a change is applied**: the copy is alike to the slot
after, other keys stay, and the event is recorded. -/
theorem applyUpdate_of_carries {before after : Option Entity}
    (hunseen : s.tracker.hasSeen u.event = false) (hcarries : u.payload.Carries u.key before after)
    (hbefore : Option.Rel Entity.Alike before (s.entries.get? u.key)) :
    ∃ s', s.applyUpdate u = (.ok .applied, s')
      ∧ Option.Rel Entity.Alike after (s'.entries.get? u.key)
      ∧ (∀ k, k ≠ u.key → s'.entries.get? k = s.entries.get? k)
      ∧ (s.entries.Tidy → s'.entries.Tidy) ∧ s'.tracker = (s.tracker.record u.event).2 := by
  obtain ⟨entries, happly, hafter, hothers, htidy⟩ := hcarries s.entries hbefore
  rw [applyUpdate_of_unseen hunseen, happly]
  exact ⟨_, rfl, hafter, hothers, htidy, rfl⟩

end RegionState

end DataGrid
