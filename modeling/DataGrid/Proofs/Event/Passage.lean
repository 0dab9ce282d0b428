import DataGrid.Proofs.Event.Identity

/-!
# Passage — event ids through older versions

An event id is written behind what an output holds already: the member that produced it, in the
form of the version, then the numbers (`EventId.draft`). An older version must read the member
first, so the writing stops before its first octet where there is none to read; nothing else stops
it. What was written reads back as an id that is equal to the first one and has its hash, since
the older form names the member that was read, and it is written again with the same octets
(`EventId.encode_passes`).
-/

namespace DataGrid

open Reader

namespace Member

/-- An older version writes all that essential data told. -/
theorem toldAt_toldAt (m : Member) (version : Version) :
    (m.toldAt version).toldAt .v0_9 = m.toldAt version := by
  rw [toldAt, if_pos (by decide), toldAt]
  split
  · simp
  · rfl

/-- **What was read of a member can be written for an older version**, names the same member, and
is read as it was. -/
theorem exists_legacy {m : Member} {bytes : Bytes} (h : ofEssentialBytes bytes = .ok m) :
    ∃ older, m.essentialBytes .v0_9 = .ok older ∧ MembershipId.same older bytes
      ∧ ofEssentialBytes older = .ok m := by
  obtain ⟨version, hwritten, htold⟩ := exists_essentialBytes h
  have holder := essentialBytes_ok (writable_of_essentialBytes hwritten) .v0_9
  have hread := ofEssentialBytes_of_essentialBytes holder
  rw [← htold, toldAt_toldAt, htold] at hread
  refine ⟨_, holder, ?_, hread⟩
  rw [MembershipId.same_iff_read ⟨m, _, holder⟩ ⟨m, _, hwritten⟩, hread, h]

end Member

namespace EventId

/-! ## Writing behind an output -/

/-- The writing of the member that produced an event. -/
def membershipDraft (id : EventId) (version : Version) : Draft :=
  match id.membershipAt version with
  | .ok membership => .ofBytes (Encode.bytes membership)
  | .error fault => .failed fault

/-- The writing of an id, as far as it gets. -/
def draft (id : EventId) (version : Version) : Draft :=
  id.membershipDraft version ++ .ofBytes (Encode.bytes id.compact)
    ++ .ofBytes (Encode.i32 id.bucket) ++ .ofBytes (Encode.u8 id.breadcrumbs)

variable {id : EventId} {version : Version} {membership : Bytes} {fault : Fault}

theorem encode_of_membership (h : id.membershipAt version = .ok membership) :
    id.encode version = .ok (Encode.bytes membership ++ Encode.bytes id.compact
      ++ Encode.i32 id.bucket ++ Encode.u8 id.breadcrumbs) := by
  rw [encode, h]
  rfl

theorem encode_of_fault (h : id.membershipAt version = .error fault) :
    id.encode version = .error fault := by
  rw [encode, h]
  rfl

/-- An id that is written is put behind the output. -/
theorem draft_of_encode {octets : Bytes} (h : id.encode version = .ok octets) (out : Bytes) :
    Draft.ofBytes out ++ id.draft version = .ofBytes (out ++ octets) := by
  rcases hm : id.membershipAt version with fault | membership
  · rw [encode_of_fault hm] at h
    cases h
  · rw [encode_of_membership hm] at h
    obtain rfl := Except.ok.inj h
    rw [draft, membershipDraft, hm]
    rfl

/-- An id that is not written leaves the output as it was. -/
theorem draft_of_fault (h : id.encode version = .error fault) (out : Bytes) :
    Draft.ofBytes out ++ id.draft version = ⟨out, some fault⟩ := by
  rcases hm : id.membershipAt version with fault' | membership
  · rw [encode_of_fault hm] at h
    obtain rfl := Except.error.inj h
    have hempty : Draft.ofBytes out ++ id.draft version = ⟨out ++ [], some fault'⟩ := by
      rw [draft, membershipDraft, hm]
      rfl
    rw [hempty, List.append_nil]
  · rw [encode_of_membership hm] at h
    cases h

/-! ## What a version makes of the member -/

theorem membershipAt_current (h : version.isOlderThan .v1_1 = false) :
    id.membershipAt version = .ok id.membership := by
  rw [membershipAt, Version.needsLegacyMember, h]
  rfl

theorem membershipAt_legacy {m : Member} (h : version.isOlderThan .v1_1)
    (hm : id.member = .ok m) : id.membershipAt version = m.essentialBytes .v0_9 := by
  rw [membershipAt, Version.needsLegacyMember, h, hm]
  rfl

theorem membershipAt_unread (h : version.isOlderThan .v1_1) (hm : id.member = .error fault) :
    id.membershipAt version = .error fault := by
  rw [membershipAt, Version.needsLegacyMember, h, hm]
  rfl

/-- **An id cannot be written just if the version is an older one and no member can be read.** -/
theorem exists_fault_iff : (∃ fault, id.encode version = .error fault)
    ↔ version.isOlderThan .v1_1 ∧ ∀ m, id.member ≠ .ok m := by
  constructor
  · rintro ⟨fault, hfault⟩
    cases holder : version.isOlderThan .v1_1 with
    | false =>
      rw [encode_of_membership (membershipAt_current holder)] at hfault
      cases hfault
    | true =>
      refine ⟨rfl, fun m hm => ?_⟩
      obtain ⟨older, hwritten, -⟩ := Member.exists_legacy hm
      rw [encode_of_membership ((membershipAt_legacy holder hm).trans hwritten)] at hfault
      cases hfault
  · rintro ⟨holder, hunread⟩
    cases hm : id.member with
    | error fault => exact ⟨fault, encode_of_fault (membershipAt_unread holder hm)⟩
    | ok m => exact absurd hm (hunread m)

/-- The id as it arrives at a member of a version. -/
structure Passes (id : EventId) (version : Version) (arrived : EventId) : Prop where
  same : arrived.same id
  hash : arrived.hash = id.hash
  thread : arrived.thread = id.thread
  sequence : arrived.sequence = id.sequence
  bucket : arrived.bucket = id.bucket
  breadcrumbs : arrived.breadcrumbs = id.breadcrumbs
  /-- A version from 1.1 on gets the member's octets as they are. -/
  current : version.isOlderThan .v1_1 = false → arrived.membership = id.membership
  /-- An older one gets the member that was read, in the older form. -/
  legacy : version.isOlderThan .v1_1 →
    ∃ m, id.member = .ok m ∧ m.essentialBytes .v0_9 = .ok arrived.membership

/-- What a version makes of the member names the same one, is short enough to be sent, and is left
as it is when it is written once more. -/
theorem passes_membershipAt (hlength : id.membership.length < 2147483648)
    (h : id.membershipAt version = .ok membership) :
    id.Passes version { id with membership } ∧ membership.length < 2147483648
      ∧ membershipAt { id with membership } version = .ok membership := by
  have hpasses : MembershipId.same membership id.membership →
      (version.isOlderThan .v1_1 = false → membership = id.membership) →
      (version.isOlderThan .v1_1 →
        ∃ m, id.member = .ok m ∧ m.essentialBytes .v0_9 = .ok membership) →
      id.Passes version { id with membership } := by
    intro hmembership hcurrent hlegacy
    have hsame : EventId.same { id with membership } id := same_iff.2 ⟨rfl, rfl, hmembership⟩
    exact ⟨hsame, hash_eq_of_same hsame, rfl, rfl, rfl, rfl, hcurrent, hlegacy⟩
  cases holder : version.isOlderThan .v1_1 with
  | false =>
    rw [membershipAt_current holder] at h
    obtain rfl := Except.ok.inj h
    refine ⟨hpasses (MembershipId.same_refl _) (fun _ => rfl) ?_, hlength,
      membershipAt_current holder⟩
    rw [holder]
    nofun
  | true =>
    cases hm : id.member with
    | error fault =>
      rw [membershipAt_unread holder hm] at h
      cases h
    | ok m =>
      obtain ⟨older, hwritten, hsame, hread⟩ := Member.exists_legacy hm
      rw [membershipAt_legacy holder hm, hwritten] at h
      obtain rfl := Except.ok.inj h
      have hagain : member { id with membership := older } = .ok m := hread
      refine ⟨hpasses hsame ?_ fun _ => ⟨m, hm, hwritten⟩, Member.length_essentialBytes_lt hwritten,
        (membershipAt_legacy holder hagain).trans hwritten⟩
      rw [holder]
      nofun

/-- **Event ids pass through every version.** Behind any output, the writing of an id fails just
if the version is an older one and the id's octets name no member, and the output is then as it
was. Otherwise what was put behind it is read, whatever follows, as an id that is equal to the
first one, with its hash and numbers and the member in the form of the version; and that id is
written with the same octets. -/
theorem encode_passes (id : EventId) (version : Version)
    (hlength : id.membership.length < 2147483648) (out rest : Bytes) :
    ((∃ fault, id.encode version = .error fault)
        ↔ version.isOlderThan .v1_1 ∧ ∀ m, id.member ≠ .ok m)
    ∧ (∀ fault, id.encode version = .error fault →
        Draft.ofBytes out ++ id.draft version = ⟨out, some fault⟩)
    ∧ ∀ octets, id.encode version = .ok octets →
        Draft.ofBytes out ++ id.draft version = .ofBytes (out ++ octets)
        ∧ ∃ arrived, EventId.read (octets ++ rest) = (.ok arrived, rest)
          ∧ id.Passes version arrived ∧ arrived.encode version = .ok octets := by
  refine ⟨exists_fault_iff, fun fault h => draft_of_fault h out, fun octets h => ?_⟩
  refine ⟨draft_of_encode h out, ?_⟩
  rcases hm : id.membershipAt version with fault | membership
  · rw [encode_of_fault hm] at h
    cases h
  · obtain ⟨hpasses, hfits, hagain⟩ := passes_membershipAt hlength hm
    obtain ⟨octets', hwritten, hread⟩ := reads_encode hm hfits
    obtain rfl := Except.ok.inj (h.symm.trans hwritten)
    refine ⟨_, hread rest, hpasses, ?_⟩
    rw [encode_of_membership hagain, ← h, encode_of_membership hm]
    rfl

/-- An id whose member carries no uuid, written for a version that pads it, behind one octet and
with one more behind it. -/
theorem encode_passes_padded :
    let id : EventId := {
      membership := [0, 1, 104, 0, 0, 0, 7, 0, 0, 0, 0, 0, 0]
      thread := 3
      sequence := 70000
      bucket := 12
      breadcrumbs := 1 }
    id.membership.length < 2147483648 ∧ ∃ octets, id.encode .v1_0 = .ok octets
      ∧ Draft.ofBytes [1] ++ id.draft .v1_0 = .ofBytes (1 :: octets)
      ∧ ∃ arrived, EventId.read (octets ++ [9]) = (.ok arrived, [9]) ∧ id.Passes .v1_0 arrived
        ∧ arrived.encode .v1_0 = .ok octets := by
  intro id
  have hlength : id.membership.length < 2147483648 := by decide
  obtain ⟨hfault, -, hwritten⟩ := encode_passes id .v1_0 hlength [1] [9]
  have hmember : id.member = .ok (Member.toldAt { host := "h", port := 7 } .v1_14) :=
    Member.ofEssentialBytes_of_essentialBytes (by rfl)
  rcases h : id.encode .v1_0 with fault | octets
  · exact absurd hmember ((hfault.1 ⟨fault, h⟩).2 _)
  · exact ⟨hlength, octets, rfl, hwritten octets h⟩

end EventId

end DataGrid
