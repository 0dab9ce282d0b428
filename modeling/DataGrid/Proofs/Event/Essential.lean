import DataGrid.Proofs.Event.Identity

/-!
# Essential data — exactly which octets are a member's

Reading essential data and writing them are each other's inverse as far as they can be. What is
read as a member is its essential data, in the older form if it ends in the seventeen octets that
older versions add (`MembershipId.Suffixed`) and in the newer one if it does not; and what is
written of a member reads back as the member, without what the version left out
(`Member.ofEssentialBytes_exact`).
-/

namespace DataGrid

namespace MembershipId

/-- Whether octets end in what older versions add: they are what a newer version writes of some
member, and seventeen octets more. -/
def Suffixed (bytes : Bytes) : Prop :=
  ∃ (m : Member) (front suffix : Bytes), m.essentialBytes .current = .ok front
    ∧ suffix.length = Member.legacySuffixLength ∧ bytes = front ++ suffix

end MembershipId

namespace Member

open MembershipId (Essential Suffixed)

variable {m : Member} {version version' : Version} {bytes : Bytes}

/-- Essential data end in a suffix just if an older version wrote them. -/
theorem suffixed_iff (h : m.essentialBytes version = .ok bytes) :
    Suffixed bytes ↔ version.isOlderThan .v1_1 := by
  have hwritable := writable_of_essentialBytes h
  obtain rfl := eq_of_essentialBytes h
  have hcurrent : ∀ a : Member, a.addressBytes ++ a.addedBytes .current = a.addressBytes := fun a =>
    List.append_nil a.addressBytes
  cases holder : version.isOlderThan .v1_1 with
  | false =>
    refine iff_of_false ?_ (by decide)
    rintro ⟨a, front, suffix, hfront, hlength, heq⟩
    -- No address is the beginning of another one, so nothing would be left for the suffix.
    have hother := writable_of_essentialBytes hfront
    obtain rfl := eq_of_essentialBytes hfront
    rw [hcurrent, addedBytes, Version.needsLegacyMember, holder, if_neg (by decide)] at heq
    obtain ⟨-, rfl⟩ := (addressBytes_append_inj hwritable hother).1 heq
    cases hlength
  | true =>
    refine iff_of_true ⟨m, m.addressBytes, m.legacySuffix, ?_, length_legacySuffix m, ?_⟩ rfl
    · rw [essentialBytes_ok hwritable, hcurrent]
    · rw [addedBytes, Version.needsLegacyMember, holder, if_pos rfl]

/-- Only whether a version is an older one makes a difference. -/
theorem essentialBytes_congr (h : version.isOlderThan .v1_1 = version'.isOlderThan .v1_1) :
    m.essentialBytes version = m.essentialBytes version' := by
  rw [essentialBytes, essentialBytes, essentialDraft, essentialDraft, Version.needsLegacyMember,
    Version.needsLegacyMember, h]

/-- **A member that was read is written with the same octets**, at the versions of its form and at
no other. -/
theorem essentialBytes_eq_iff (h : ofEssentialBytes bytes = .ok m) (version : Version) :
    m.essentialBytes version = .ok bytes ↔ (version.isOlderThan .v1_1 ↔ Suffixed bytes) := by
  refine ⟨fun hwritten => (suffixed_iff hwritten).symm, fun hform => ?_⟩
  obtain ⟨version', hwritten, -⟩ := exists_essentialBytes h
  rw [suffixed_iff hwritten, ← Bool.eq_iff_iff] at hform
  rw [essentialBytes_congr hform, hwritten]

/-- Only a host or a name that is too long cannot be written. -/
theorem exists_fault_iff_long (m : Member) (version : Version) :
    (∃ fault, m.essentialBytes version = .error fault)
      ↔ 65535 < (Text.toBytes m.host).length ∨ 65535 < (Text.toBytes m.name).length := by
  rw [← Nat.not_le, ← Nat.not_le, ← Decidable.not_and_iff_not_or_not]
  constructor
  · rintro ⟨fault, hfault⟩ hwritable
    rw [essentialBytes_ok hwritable] at hfault
    cases hfault
  · intro hlong
    cases h : m.essentialBytes version with
    | error fault => exact ⟨fault, rfl⟩
    | ok bytes => exact absurd (writable_of_essentialBytes h) hlong

/-- **Which octets are essential data.** Octets are read as a member just if they are the essential
data of one at some version, and the member that is read is written as these octets at a version
just if that is older than 1.1 and they carry a suffix, or it is not and they do not. A member's
essential data cannot be written just if the host or the name is longer than 65535 octets; and
otherwise they are read as the member, with no uuid for a zero one at an older version, and with
neither uuid nor weight at a newer one. -/
theorem ofEssentialBytes_exact :
    (∀ bytes : Bytes,
      ((∃ m, ofEssentialBytes bytes = .ok m) ↔ Essential bytes)
      ∧ ∀ m, ofEssentialBytes bytes = .ok m → ∀ version : Version,
          m.essentialBytes version = .ok bytes ↔ (version.isOlderThan .v1_1 ↔ Suffixed bytes))
    ∧ ∀ (m : Member) (version : Version),
      ((∃ fault, m.essentialBytes version = .error fault)
          ↔ 65535 < (Text.toBytes m.host).length ∨ 65535 < (Text.toBytes m.name).length)
      ∧ ∀ bytes, m.essentialBytes version = .ok bytes →
          ofEssentialBytes bytes = .ok (if version.isOlderThan .v1_1
            then { m with uuid := if m.uuid = some .zero then none else m.uuid }
            else { m with uuid := none, weight := 0 }) := by
  refine ⟨fun bytes => ⟨⟨?_, ?_⟩, fun m h => essentialBytes_eq_iff h⟩, fun m version =>
    ⟨exists_fault_iff_long m version, fun bytes h => ofEssentialBytes_of_essentialBytes h⟩⟩
  · rintro ⟨m, h⟩
    obtain ⟨version, hwritten, -⟩ := exists_essentialBytes h
    exact ⟨m, version, hwritten⟩
  · rintro ⟨m, version, h⟩
    exact ⟨_, ofEssentialBytes_of_essentialBytes h⟩

/-- With a suffix, octets are what an older version writes and no newer one; with one octet less,
they are nobody's. -/
theorem ofEssentialBytes_exact_suffix :
    let m : Member := { host := "h", port := 7, weight := 3 }
    let front : Bytes := [0, 1, 104, 0, 0, 0, 7, 0, 0, 0, 0, 0, 0] ++ List.replicate 16 0
    ofEssentialBytes (front ++ [3]) = .ok m ∧ m.essentialBytes .v1_14 ≠ .ok (front ++ [3])
      ∧ ¬Essential front := by
  intro m front
  obtain ⟨hread, hwritten⟩ := ofEssentialBytes_exact
  have hwritable : m.Writable := by unfold Writable; decide
  have hbytes : m.essentialBytes .v0_9 = .ok (front ++ [3]) := by
    rw [essentialBytes_ok hwritable]
    exact congrArg Except.ok (by decide +kernel)
  have hm : ofEssentialBytes (front ++ [3]) = .ok m := (hwritten m .v0_9).2 _ hbytes
  have hsuffixed : Suffixed (front ++ [3]) := (((hread _).2 m hm .v0_9).1 hbytes).1 rfl
  refine ⟨hm, fun hnewer => ?_, fun hessential => ?_⟩
  · have holder := (((hread _).2 m hm .v1_14).1 hnewer).2 hsuffixed
    revert holder
    decide
  · obtain ⟨a, ha⟩ := (hread front).1.2 hessential
    have hrefused : (ofEssentialBytes front).toOption = none := by decide +kernel
    rw [ha] at hrefused
    cases hrefused

end Member

end DataGrid
