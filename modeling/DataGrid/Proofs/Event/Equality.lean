import DataGrid.Proofs.Event.Passage
import DataGrid.Proofs.Event.Stripped
import DataGrid.Proofs.Wire.Forms

/-!
# Equality — where equal event ids are an equivalence

Event ids are equal if they are of one thread and number and their membership ids name one member.
Any octets may arrive as a membership id (`EventId.delivered_iff`), and of any octets equality is
reflexive and symmetric. It bridges one block of padding and no more, so it is transitive but for
one case: of an id, the same with one block and the same with two, the first and the last are not
equal (`MembershipId.same_trans_iff`). Ids that arrive can be such a three
(`EventId.same_not_transitive`), and no others are in the way: equality is an equivalence of just
those ids among which no such three is (`EventId.same_equivalence_iff`).
-/

namespace DataGrid

namespace MembershipId

variable {a b c : Bytes}

/-- Two blocks are one too many. -/
theorem not_same_two_blocks (a : Bytes) : ¬same a (a ++ padding ++ padding) := by
  intro h
  have hlength := length_append_padding a
  have hlength' := length_append_padding (a ++ padding)
  rw [blockLength] at hlength hlength'
  rcases same_iff.1 h with heq | heq | heq
  · have hlengths := congrArg List.length heq
    omega
  · have hlengths := congrArg List.length heq
    rw [length_append_padding, blockLength] at hlengths
    omega
  · have hlengths := congrArg List.length heq
    omega

/-- **Naming one member is passed on, but for two blocks of padding.** -/
theorem same_trans_iff (hab : same a b) (hbc : same b c) :
    same a c ↔ ¬(b = a ++ padding ∧ c = b ++ padding) ∧ ¬(b = c ++ padding ∧ a = b ++ padding) := by
  constructor
  · refine fun hac => ⟨?_, ?_⟩
    · rintro ⟨rfl, rfl⟩
      exact not_same_two_blocks a hac
    · rintro ⟨rfl, rfl⟩
      rw [same_comm] at hac
      exact not_same_two_blocks c hac
  · rintro ⟨hup, hdown⟩
    rcases same_iff.1 hab with rfl | rfl | rfl
    · exact hbc
    · rcases same_iff.1 hbc with rfl | rfl | rfl
      · exact hab
      · exact absurd ⟨rfl, rfl⟩ hdown
      · exact same_refl _
    · rcases same_iff.1 hbc with rfl | heq | rfl
      · exact hab
      · rw [List.append_cancel_right heq]
        exact same_refl c
      · exact absurd ⟨rfl, rfl⟩ hup

end MembershipId

namespace EventId

open MembershipId (blocks padding)
open Reader

variable {id a b c : EventId}

/-! ## Which ids arrive -/

/-- Whether an event id is read from some octets. -/
def Delivered (id : EventId) : Prop := ∃ octets rest, EventId.read octets = (.ok id, rest)

/-- **Any octets arrive as a membership id**, if their length can be written. -/
theorem delivered_iff : id.Delivered ↔ id.membership.length < 2147483648 := by
  constructor
  · rintro ⟨octets, rest, h⟩
    obtain ⟨membership, left, hmembership, h⟩ := exists_of_bind h
    obtain ⟨pair, left, -, h⟩ := exists_of_bind h
    obtain ⟨⟨thread, sequence⟩, left, -, h⟩ := exists_of_bind h
    obtain ⟨bucket, left, -, h⟩ := exists_of_bind h
    obtain ⟨breadcrumbs, left, -, h⟩ := exists_of_bind h
    obtain ⟨rfl, -⟩ := eq_of_pure h
    obtain ⟨front, -, length, -, hlength⟩ := accepts_bytes.exists_front hmembership
    exact hlength.lt
  · intro h
    have hcurrent : id.membershipAt .current = .ok id.membership := membershipAt_current (by decide)
    obtain ⟨octets, -, hreads⟩ := reads_encode hcurrent h
    exact ⟨octets, [], by simpa using hreads []⟩

/-! ## Equality -/

theorem same_refl (a : EventId) : a.same a := same_iff.2 ⟨rfl, rfl, MembershipId.same_refl _⟩

theorem same_comm (a b : EventId) : a.same b = b.same a := by
  rw [same, same, MembershipId.same_comm, BEq.comm (a := a.thread), BEq.comm (a := a.sequence)]

/-- Whether an id is another one with a block of padding more. -/
def PadsTo (a b : EventId) : Prop :=
  a.thread = b.thread ∧ a.sequence = b.sequence ∧ b.membership = a.membership ++ padding

theorem PadsTo.same (h : a.PadsTo b) : a.same b :=
  same_iff.2 ⟨h.1, h.2.1, MembershipId.same_iff.2 (.inr (.inr h.2.2))⟩

/-- Padding that was added twice is not seen through. -/
theorem PadsTo.not_same (hab : a.PadsTo b) (hbc : b.PadsTo c) : ¬a.same c := by
  intro h
  obtain ⟨-, -, hmembership⟩ := same_iff.1 h
  rw [hbc.2.2, hab.2.2] at hmembership
  exact MembershipId.not_same_two_blocks _ hmembership

/-- **Equality is passed on, but by an id that is padded once between ids that are not padded and
that are padded twice.** -/
theorem same_trans (hab : a.same b) (hbc : b.same c) (hup : ¬(a.PadsTo b ∧ b.PadsTo c))
    (hdown : ¬(c.PadsTo b ∧ b.PadsTo a)) : a.same c := by
  obtain ⟨hthread, hsequence, hmembership⟩ := same_iff.1 hab
  obtain ⟨hthread', hsequence', hmembership'⟩ := same_iff.1 hbc
  refine same_iff.2 ⟨hthread.trans hthread', hsequence.trans hsequence',
    (MembershipId.same_trans_iff hmembership hmembership').2 ⟨fun h => hup ?_, fun h => hdown ?_⟩⟩
  · exact ⟨⟨hthread, hsequence, h.1⟩, hthread', hsequence', h.2⟩
  · exact ⟨⟨hthread'.symm, hsequence'.symm, h.1⟩, hthread.symm, hsequence.symm, h.2⟩

/-- **Of which ids equality is an equivalence.** It is reflexive and symmetric of all event ids. Of
any set of them it is an equivalence just if there are no three in the set of which the second is
the first with a block of padding more, and the third the second with one more. -/
theorem same_equivalence_iff (S : EventId → Prop) :
    (∀ a : EventId, a.same a) ∧ (∀ a b : EventId, a.same b = b.same a)
    ∧ ((Equivalence fun x y : {id : EventId // S id} => x.1.same y.1)
        ↔ ∀ a b c, S a → S b → S c → ¬(a.PadsTo b ∧ b.PadsTo c)) := by
  refine ⟨same_refl, same_comm, ?_, fun h => ⟨?_, ?_, ?_⟩⟩
  · rintro hequivalence a b c ha hb hc ⟨hab, hbc⟩
    exact hab.not_same hbc
      (hequivalence.trans (x := ⟨a, ha⟩) (y := ⟨b, hb⟩) (z := ⟨c, hc⟩) hab.same hbc.same)
  · exact fun x => same_refl x.1
  · exact fun {x y} hxy => (same_comm x.1 y.1).symm.trans hxy
  · -- Two blocks may be gained on the way or lost, and the set has neither.
    exact fun {x y z} hxy hyz => same_trans hxy hyz (h _ _ _ x.2 y.2 z.2) (h _ _ _ z.2 y.2 x.2)

/-- A member in both forms, under any numbers. -/
theorem same_equivalence_iff_forms :
    let front : Bytes := [0, 1, 104, 0, 0, 0, 7, 0, 0, 0, 0, 0, 0]
    Equivalence fun x y : {id : EventId // id.membership = front ∨ id.membership = front ++ padding} =>
      x.1.same y.1 := by
  intro front
  refine (same_equivalence_iff _).2.2.2 fun a b c ha _ hc h => ?_
  -- The third one would be longer than the longer of the two forms.
  have hlength : c.membership.length = a.membership.length + 34 := by
    rw [h.2.2.2, h.1.2.2, MembershipId.length_append_padding, MembershipId.length_append_padding]
    rfl
  rcases ha with ha | ha <;> rcases hc with hc | hc <;> rw [ha, hc] at hlength <;> cases hlength

/-- **Three ids that arrive, of which the second is equal to the other two, and these are not.** -/
theorem same_not_transitive :
    let id (k : Nat) : EventId := {
      membership := [0, 1, 104, 0, 0, 0, 7, 0, 0, 0, 0, 0, 0] ++ blocks k, thread := 1, sequence := 5 }
    (∀ k < 3, (id k).Delivered) ∧ (id 0).same (id 1) ∧ (id 1).same (id 2) ∧ ¬(id 0).same (id 2)
      ∧ ¬Equivalence fun x y : {id : EventId // id.Delivered} => x.1.same y.1 := by
  intro id
  have hlength : ∀ k < 3, (id k).membership.length < 2147483648 := by decide
  have hdelivered : ∀ k < 3, (id k).Delivered := fun k hk => delivered_iff.2 (hlength k hk)
  have hpads : ∀ k, (id k).PadsTo (id (k + 1)) := fun k =>
    ⟨rfl, rfl, MembershipId.append_blocks_succ _ k⟩
  have hends : ¬(id 0).same (id 2) := (hpads 0).not_same (hpads 1)
  refine ⟨hdelivered, (hpads 0).same, (hpads 1).same, hends, fun hequivalence => hends ?_⟩
  exact hequivalence.trans (x := ⟨id 0, hdelivered 0 (by decide)⟩)
    (y := ⟨id 1, hdelivered 1 (by decide)⟩) (z := ⟨id 2, hdelivered 2 (by decide)⟩)
    (hpads 0).same (hpads 1).same

end EventId

end DataGrid
