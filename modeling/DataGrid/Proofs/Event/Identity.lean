import DataGrid.Proofs.Event.Padding
import DataGrid.Proofs.Event.Wire
import DataGrid.Proofs.Wire.Canonical

/-!
# Identity — which members essential data takes for one

A member's essential data begins with its address, which every version writes alike, and an older
version adds the uuid and the weight. No address is the beginning of another one
(`Member.addressBytes_append_inj`), whatever characters its texts have. So two essential data name
one member just if the addresses are the same and what is added is, where a version that adds
nothing counts as zeros (`Member.same_iff_namedAs`). That is the case if both read back as one
member (`MembershipId.same_iff_read`), which makes it an equivalence.

Octets that read as a member at all are its essential data at some version
(`Member.exists_essentialBytes`).
-/

namespace DataGrid

open Reader

/-! ## Uuids -/

namespace Uuid

theorem ofBytes_toBytes (uuid : Uuid) : ofBytes uuid.toBytes = uuid := by
  have hcapacity : BigEndian.capacity 16 = 2 ^ 128 := by decide
  have hlt : uuid.bits.toNat < BigEndian.capacity 16 := hcapacity ▸ uuid.bits.isLt
  rw [ofBytes, toBytes, BigEndian.toNat_ofNat_of_lt hlt, BitVec.ofNat_toNat, BitVec.setWidth_eq]

theorem toBytes_ofBytes {bytes : Bytes} (h : bytes.length = 16) :
    (ofBytes bytes).toBytes = bytes := by
  have hcapacity : BigEndian.capacity 16 = 2 ^ 128 := by decide
  have hlt : BigEndian.toNat bytes < 2 ^ 128 := by
    rw [← hcapacity, ← h]
    exact BigEndian.toNat_lt bytes
  rw [ofBytes, toBytes, BitVec.toNat_ofNat, Nat.mod_eq_of_lt hlt, ← h, BigEndian.ofNat_toNat]

theorem toBytes_inj {a b : Uuid} : a.toBytes = b.toBytes ↔ a = b :=
  ⟨fun h => by rw [← ofBytes_toBytes a, h, ofBytes_toBytes], congrArg toBytes⟩

end Uuid

namespace Member

variable {a b m : Member} {bytes rest rest' : Bytes} {version : Version}

/-! ## What is written -/

/-- The part of a member's essential data that every version writes. -/
def addressBytes (m : Member) : Bytes :=
  (Encode.text m.host).bytes ++ (BigEndian.ofNat 4 m.port.toNat ++ Encode.i32 m.view)
    ++ (Encode.text m.name).bytes

/-- What a version adds to the address. -/
def addedBytes (m : Member) (version : Version) : Bytes :=
  if version.needsLegacyMember then m.legacySuffix else []

/-- Whether two members have one address: they differ in uuid and weight at most. -/
def SameAddress (a b : Member) : Prop :=
  a.host = b.host ∧ a.port = b.port ∧ a.view = b.view ∧ a.name = b.name

/-- Whether two members have one uuid and weight. No uuid counts as the zero one. -/
def SameAddition (a b : Member) : Prop :=
  a.uuid.getD .zero = b.uuid.getD .zero ∧ a.weight = b.weight

/-- Whether a member's uuid and weight say nothing. -/
def NoAddition (m : Member) : Prop :=
  m.uuid.getD .zero = .zero ∧ m.weight = 0

/-- **Whether two members are named as one** by their essential data at two versions. -/
def NamedAs (a : Member) (va : Version) (b : Member) (vb : Version) : Prop :=
  a.SameAddress b ∧
    match va.isOlderThan .v1_1, vb.isOlderThan .v1_1 with
    | false, false => True
    | true, true => a.SameAddition b
    | true, false => a.NoAddition
    | false, true => b.NoAddition

/-- Whether two members are written with the same octets at two versions. -/
def WrittenAs (a : Member) (va : Version) (b : Member) (vb : Version) : Prop :=
  a.SameAddress b ∧
    match va.isOlderThan .v1_1, vb.isOlderThan .v1_1 with
    | false, false => True
    | true, true => a.SameAddition b
    | _, _ => False

/-- What a member's essential data at a version tell of it. -/
def toldAt (m : Member) (version : Version) : Member :=
  if version.needsLegacyMember then
    { m with uuid := if m.uuid = some .zero then none else m.uuid }
  else { m with uuid := none, weight := 0 }

theorem essentialBytes_ok (h : m.Writable) (version : Version) :
    m.essentialBytes version = .ok (m.addressBytes ++ m.addedBytes version) :=
  essentialBytes_eq h version

theorem eq_of_essentialBytes (h : m.essentialBytes version = .ok bytes) :
    bytes = m.addressBytes ++ m.addedBytes version := by
  rw [essentialBytes_ok (writable_of_essentialBytes h)] at h
  exact (Except.ok.inj h).symm

/-! ## Addresses -/

/-- Reads the part of essential data that every version writes. -/
def readAddress : Reader Member := do
  let host ← Reader.text
  let port ← readPort
  let view ← Reader.i32
  let name ← Reader.text
  return { host, port, view, name }

theorem reads_address (h : m.Writable) :
    readAddress.Reads m.addressBytes { m with uuid := none, weight := 0 } := by
  have hname : Reads (do return { m with name := (← Reader.text), uuid := none, weight := 0 })
      (Encode.text m.name).bytes { m with uuid := none, weight := 0 } :=
    (reads_text h.2).map fun name => { m with name, uuid := none, weight := 0 }
  rw [addressBytes, List.append_assoc, List.append_assoc]
  exact (reads_text h.1).bind ((reads_port m.port).bind ((reads_i32 m.view).bind hname))

theorem SameAddress.addressBytes_eq (h : a.SameAddress b) : a.addressBytes = b.addressBytes := by
  obtain ⟨hhost, hport, hview, hname⟩ := h
  rw [addressBytes, addressBytes, hhost, hport, hview, hname]

/-- **No address is the beginning of another one.** -/
theorem addressBytes_append_inj (ha : a.Writable) (hb : b.Writable) :
    a.addressBytes ++ rest = b.addressBytes ++ rest' ↔ a.SameAddress b ∧ rest = rest' := by
  constructor
  · intro h
    obtain ⟨hread, hrest⟩ := (reads_address ha).append_inj (reads_address hb) h
    simp only [mk.injEq] at hread
    exact ⟨⟨hread.1, hread.2.1, hread.2.2.1, hread.2.2.2.1⟩, hrest⟩
  · rintro ⟨haddress, rfl⟩
    rw [haddress.addressBytes_eq]

/-! ## What is added -/

theorem length_legacySuffix (m : Member) : m.legacySuffix.length = 17 := by
  simp [legacySuffix, Uuid.toBytes, Encode.u8]

theorem legacySuffix_ne_nil (m : Member) : m.legacySuffix ≠ [] := fun h => by
  have hlength := length_legacySuffix m
  rw [h] at hlength
  cases hlength

theorem legacySuffix_inj : a.legacySuffix = b.legacySuffix ↔ a.SameAddition b := by
  have hlength : (a.uuid.getD .zero).toBytes.length = (b.uuid.getD .zero).toBytes.length := by
    simp [Uuid.toBytes]
  constructor
  · intro h
    obtain ⟨huuid, hweight⟩ := List.append_inj h hlength
    have hoctets : Encode.u8 a.weight ++ [] = Encode.u8 b.weight ++ [] := by rw [hweight]
    exact ⟨Uuid.toBytes_inj.1 huuid, ((reads_u8 a.weight).append_inj (reads_u8 b.weight) hoctets).1⟩
  · rintro ⟨huuid, hweight⟩
    rw [legacySuffix, legacySuffix, huuid, hweight]

/-- Padding is what a member adds that has nothing to add. -/
theorem legacySuffix_eq_padding : m.legacySuffix = MembershipId.padding ↔ m.NoAddition := by
  have hpadding : MembershipId.padding = legacySuffix { host := "", port := 0 } := by decide
  rw [hpadding, legacySuffix_inj]
  rfl

/-- Padded, what a newer version writes of a member with nothing to add is what an older one
writes. -/
theorem essentialBytes_padded (h : m.essentialBytes .current = .ok bytes) (hnone : m.NoAddition) :
    m.essentialBytes .v0_9 = .ok (bytes ++ MembershipId.padding) := by
  obtain rfl := eq_of_essentialBytes h
  rw [essentialBytes_ok (writable_of_essentialBytes h), addedBytes, addedBytes,
    if_pos (by decide), if_neg (by decide), legacySuffix_eq_padding.2 hnone, List.append_nil]

/-! ## Names -/

/-- The addresses are the same, and what is added names one member too. -/
theorem namedAs_iff (va vb : Version) : a.NamedAs va b vb
    ↔ a.SameAddress b ∧ MembershipId.same (a.addedBytes va) (b.addedBytes vb) := by
  rw [NamedAs, addedBytes, addedBytes, Version.needsLegacyMember, Version.needsLegacyMember]
  refine and_congr_right fun _ => ?_
  cases va.isOlderThan .v1_1 <;> cases vb.isOlderThan .v1_1
  case false.false => exact iff_of_true trivial (MembershipId.same_refl [])
  case true.true =>
    rw [if_pos rfl, if_pos rfl, ← legacySuffix_inj]
    refine (MembershipId.same_iff_of_length_eq ?_).symm
    rw [length_legacySuffix, length_legacySuffix]
  case true.false =>
    rw [if_pos rfl, if_neg (by decide), MembershipId.same_nil_iff,
      or_iff_right a.legacySuffix_ne_nil, legacySuffix_eq_padding]
  case false.true =>
    rw [if_pos rfl, if_neg (by decide), MembershipId.same_comm, MembershipId.same_nil_iff,
      or_iff_right b.legacySuffix_ne_nil, legacySuffix_eq_padding]

/-! ## Reading back -/

/-- Essential data are an address and what was added to it. -/
theorem readEssential_eq : readEssential = readAddress >>= fun m => do
    let (uuid, weight) ← readSuffix
    return { m with uuid, weight } := by
  simp only [readAddress, bind_assoc]
  rfl

/-- Reads what an older version adds to the address. -/
def readAddition : Reader (Option Uuid × UInt8) := do
  let uuid := Uuid.ofBytes (← Reader.take 16)
  let weight ← Reader.u8
  return (if uuid = .zero then none else some uuid, weight)

theorem readSuffix_eq (bytes : Bytes) : readSuffix bytes =
    if bytes.length = 0 then (.ok (none, 0), bytes)
    else if bytes.length = 17 then readAddition bytes
    else (.error (.malformed (.memberTrailing bytes.length)), bytes) := by
  rw [show readSuffix bytes = (if bytes.length = 0 then pure (none, 0)
    else if bytes.length = 17 then readAddition
    else Reader.fail (.malformed (.memberTrailing bytes.length)) : Reader _) bytes from rfl]
  split
  · rfl
  · split <;> rfl

theorem reads_addition (m : Member) : readAddition.Reads m.legacySuffix
    (if m.uuid = some .zero then none else m.uuid, m.weight) := by
  have huuid : (if m.uuid.getD .zero = .zero then none else some (m.uuid.getD .zero))
      = if m.uuid = some .zero then none else m.uuid := by
    cases m.uuid <;> simp
  have htake : Reads (take 16) (m.uuid.getD .zero).toBytes (m.uuid.getD .zero).toBytes := by
    simpa [Uuid.toBytes] using reads_take (m.uuid.getD .zero).toBytes
  rw [← huuid]
  refine htake.bind ?_
  rw [Uuid.ofBytes_toBytes]
  exact (reads_u8 m.weight).map fun weight => (_, weight)

theorem readSuffix_added (m : Member) (version : Version) :
    readSuffix (m.addedBytes version)
      = (.ok ((m.toldAt version).uuid, (m.toldAt version).weight), []) := by
  rw [addedBytes, toldAt, readSuffix_eq]
  split
  · have hread := reads_addition m []
    rw [List.append_nil] at hread
    rw [length_legacySuffix, if_neg (by decide), if_pos rfl, hread]
  · rfl

theorem toldAt_address (m : Member) (version : Version) :
    { m with uuid := (m.toldAt version).uuid, weight := (m.toldAt version).weight }
      = m.toldAt version := by
  rw [toldAt]
  split <;> rfl

/-- **Essential data tell of a member what their version writes.** -/
theorem ofEssentialBytes_of_essentialBytes (h : m.essentialBytes version = .ok bytes) :
    ofEssentialBytes bytes = .ok (m.toldAt version) := by
  obtain rfl := eq_of_essentialBytes h
  rw [ofEssentialBytes, Reader.parse, readEssential_eq,
    (reads_address (writable_of_essentialBytes h)).bind_apply]
  change (Reader.bind readSuffix _ _).1 = _
  rw [Reader.bind, readSuffix_added]
  exact congrArg Except.ok (toldAt_address m version)

/-- Members are named as one if the same is told of them. -/
theorem toldAt_eq_iff (va vb : Version) : a.toldAt va = b.toldAt vb ↔ a.NamedAs va b vb := by
  have hnone : ∀ u : Option Uuid,
      (if u = some .zero then none else u) = none ↔ u.getD .zero = .zero := by
    rintro (_ | u) <;> simp
  have huuid : ∀ u u' : Option Uuid, (if u = some .zero then none else u)
      = (if u' = some .zero then none else u') ↔ u.getD .zero = u'.getD .zero := by
    intro u u'
    by_cases hu' : u' = some .zero
    · rw [hu', if_pos rfl, hnone]
      rfl
    · rw [if_neg hu']
      cases u' <;> cases u <;> grind
  rw [toldAt, toldAt, NamedAs, Version.needsLegacyMember, Version.needsLegacyMember]
  cases va.isOlderThan .v1_1 <;> cases vb.isOlderThan .v1_1 <;>
    simp only [if_true, Bool.false_eq_true, if_false, mk.injEq, SameAddress, and_assoc]
  case false.false => simp
  case true.true => rw [huuid, SameAddition]
  case true.false => rw [hnone, NoAddition]
  case false.true => rw [eq_comm (a := none), hnone, eq_comm (a := (0 : UInt8)), NoAddition]

/-! ## What was read -/

theorem canonical_port : Canonical readPort fun port => BigEndian.ofNat 4 port.toNat := by
  intro bytes port rest h
  obtain ⟨v, left, hread, hcheck⟩ := exists_of_bind h
  obtain rfl := canonical_i32 _ _ _ hread
  split at hcheck
  · next hrange =>
    obtain ⟨rfl, rfl⟩ := eq_of_pure hcheck
    have hcond : v.toInt = if 2 * v.toUInt32.toNat < 4294967296 then (v.toUInt32.toNat : Int)
        else (v.toUInt32.toNat : Int) - 4294967296 := BitVec.toInt_eq_toNat_cond v.toBitVec
    have hport : v.toUInt32.toNat = (UInt16.ofNat v.toInt.toNat).toNat := by
      rw [UInt16.toNat_ofNat']
      have hlt := v.toUInt32.toNat_lt
      split at hcond <;> omega
    rw [Encode.i32, hport]
  · cases hcheck

theorem readAddress_eq_ok (h : readAddress bytes = (.ok m, rest)) :
    bytes = m.addressBytes ++ rest ∧ m.Writable := by
  obtain ⟨host, left, hhost, h⟩ := exists_of_bind h
  obtain ⟨port, left, hport, h⟩ := exists_of_bind h
  obtain ⟨view, left, hview, h⟩ := exists_of_bind h
  obtain ⟨name, left, hname, h⟩ := exists_of_bind h
  obtain ⟨rfl, rfl⟩ := eq_of_pure h
  obtain ⟨rfl, hhostLength⟩ := text_eq_ok hhost
  obtain rfl := canonical_port _ _ _ hport
  obtain rfl := canonical_i32 _ _ _ hview
  obtain ⟨rfl, hnameLength⟩ := text_eq_ok hname
  refine ⟨?_, hhostLength, hnameLength⟩
  simp only [addressBytes, List.append_assoc]

theorem readAddition_eq_ok {uuid : Option Uuid} {weight : UInt8}
    (h : readAddition bytes = (.ok (uuid, weight), rest)) :
    bytes = ((uuid.getD .zero).toBytes ++ Encode.u8 weight) ++ rest ∧ uuid ≠ some .zero := by
  obtain ⟨octets, left, htake, h⟩ := exists_of_bind h
  obtain ⟨weight', left, hweight, h⟩ := exists_of_bind h
  obtain ⟨hpair, rfl⟩ := eq_of_pure h
  obtain ⟨rfl, rfl⟩ := Prod.mk.inj hpair
  obtain ⟨rfl, hoctets⟩ := take_eq_ok htake
  obtain rfl := canonical_u8 _ _ _ hweight
  have huuid : ((if Uuid.ofBytes octets = .zero then none else some (Uuid.ofBytes octets)).getD
      Uuid.zero) = Uuid.ofBytes octets := by
    split
    · next hzero => exact hzero.symm
    · rfl
  rw [huuid, Uuid.toBytes_ofBytes hoctets, List.append_assoc]
  refine ⟨rfl, ?_⟩
  split <;> simp [*]

/-- **Octets that read as a member are its essential data**, and tell all of it. -/
theorem exists_essentialBytes (h : ofEssentialBytes bytes = .ok m) :
    ∃ version, m.essentialBytes version = .ok bytes ∧ m.toldAt version = m := by
  obtain ⟨rest, hread⟩ : ∃ rest, readEssential bytes = (.ok m, rest) :=
    ⟨_, Prod.ext h rfl⟩
  rw [readEssential_eq] at hread
  obtain ⟨a, left, haddress, hread⟩ := exists_of_bind hread
  obtain ⟨⟨uuid, weight⟩, left', hsuffix, hread⟩ := exists_of_bind hread
  obtain ⟨rfl, rfl⟩ := eq_of_pure hread
  obtain ⟨rfl, hwritable⟩ := readAddress_eq_ok haddress
  rw [readSuffix_eq] at hsuffix
  split at hsuffix
  · next hempty =>
    obtain rfl := List.eq_nil_of_length_eq_zero hempty
    obtain ⟨⟨rfl, rfl⟩, -⟩ : (none = uuid ∧ 0 = weight) ∧ [] = left' := by simpa using hsuffix
    exact ⟨.current, essentialBytes_ok (m := { a with uuid := none, weight := 0 }) hwritable _, rfl⟩
  · split at hsuffix
    · next hlength =>
      obtain ⟨rfl, hgiven⟩ := readAddition_eq_ok hsuffix
      have hall := length_legacySuffix { a with uuid, weight }
      rw [List.length_append, show (uuid.getD .zero).toBytes ++ Encode.u8 weight
        = legacySuffix { a with uuid, weight } from rfl, hall] at hlength
      obtain rfl := List.eq_nil_of_length_eq_zero (Nat.add_eq_left.1 hlength)
      rw [List.append_nil]
      refine ⟨.v0_9, essentialBytes_ok (m := { a with uuid, weight }) hwritable _, ?_⟩
      rw [toldAt, if_pos (by decide), if_neg hgiven]
    · cases hsuffix

/-! ## One member or two -/

/-- **Essential data name one member as the members' fields say.** -/
theorem same_iff_namedAs {va vb : Version} {x y : Bytes} (hx : a.essentialBytes va = .ok x)
    (hy : b.essentialBytes vb = .ok y) : MembershipId.same x y ↔ a.NamedAs va b vb := by
  have ha := writable_of_essentialBytes hx
  have hb := writable_of_essentialBytes hy
  obtain rfl := eq_of_essentialBytes hx
  obtain rfl := eq_of_essentialBytes hy
  rw [namedAs_iff]
  -- Equal or padded, both begin with both addresses, so the addresses are one.
  have haddress : MembershipId.same (a.addressBytes ++ a.addedBytes va)
      (b.addressBytes ++ b.addedBytes vb) → a.SameAddress b := by
    intro h
    rcases MembershipId.same_iff.1 h with heq | heq | heq
    · exact ((addressBytes_append_inj ha hb).1 heq).1
    · rw [List.append_assoc] at heq
      exact ((addressBytes_append_inj ha hb).1 heq).1
    · rw [List.append_assoc] at heq
      exact ((addressBytes_append_inj ha hb).1 heq.symm).1
  constructor
  · intro h
    refine ⟨haddress h, ?_⟩
    rwa [(haddress h).addressBytes_eq, MembershipId.same_append] at h
  · rintro ⟨hsame, h⟩
    rwa [hsame.addressBytes_eq, MembershipId.same_append]

/-- Essential data are the same octets only if all that is written is the same. -/
theorem eq_iff_writtenAs {va vb : Version} {x y : Bytes} (hx : a.essentialBytes va = .ok x)
    (hy : b.essentialBytes vb = .ok y) : x = y ↔ a.WrittenAs va b vb := by
  have ha := writable_of_essentialBytes hx
  have hb := writable_of_essentialBytes hy
  obtain rfl := eq_of_essentialBytes hx
  obtain rfl := eq_of_essentialBytes hy
  rw [addressBytes_append_inj ha hb, WrittenAs, addedBytes, addedBytes, Version.needsLegacyMember,
    Version.needsLegacyMember]
  refine and_congr_right fun _ => ?_
  cases va.isOlderThan .v1_1 <;> cases vb.isOlderThan .v1_1
  case false.false => exact iff_of_true rfl trivial
  case true.true => exact legacySuffix_inj
  case true.false => exact iff_of_false a.legacySuffix_ne_nil id
  case false.true => exact iff_of_false b.legacySuffix_ne_nil.symm id

end Member

namespace MembershipId

variable {x y : Bytes}

/-- Whether octets are the essential data of a member at some version. -/
def Essential (bytes : Bytes) : Prop :=
  ∃ (m : Member) (version : Version), m.essentialBytes version = .ok bytes

/-- **Essential data name one member if one member is read from both.** -/
theorem same_iff_read (hx : Essential x) (hy : Essential y) :
    same x y ↔ Member.ofEssentialBytes x = Member.ofEssentialBytes y := by
  obtain ⟨a, va, hx⟩ := hx
  obtain ⟨b, vb, hy⟩ := hy
  rw [Member.same_iff_namedAs hx hy, Member.ofEssentialBytes_of_essentialBytes hx,
    Member.ofEssentialBytes_of_essentialBytes hy, Except.ok.injEq, Member.toldAt_eq_iff]

/-- Naming one member is an equivalence of essential data. -/
theorem equivalence_same :
    Equivalence fun x y : {bytes : Bytes // Essential bytes} => same x.1 y.1 := by
  have hread : ∀ x y : {bytes : Bytes // Essential bytes}, same x.1 y.1
      ↔ Member.ofEssentialBytes x.1 = Member.ofEssentialBytes y.1 := fun x y =>
    same_iff_read x.2 y.2
  simp only [hread]
  exact ⟨fun _ => rfl, Eq.symm, Eq.trans⟩

end MembershipId

namespace Member

/-- **Which members essential data take for one.** Of two members with hosts and names that can be
written, the essential data at any two versions name one member just if host, port, view and name
agree and the uuids and weights do as far as they are written, where a version that does not write
them counts as zeros. They are the same octets only if both versions write the same fields with
the same values. And naming one member is an equivalence of essential data. -/
theorem essentialBytes_name {a b : Member} (ha : a.Writable) (hb : b.Writable) (va vb : Version) :
    (∃ x y, a.essentialBytes va = .ok x ∧ b.essentialBytes vb = .ok y
      ∧ (MembershipId.same x y ↔ a.NamedAs va b vb) ∧ (x = y ↔ a.WrittenAs va b vb))
    ∧ Equivalence fun x y : {bytes : Bytes // MembershipId.Essential bytes} =>
        MembershipId.same x.1 y.1 := by
  have hx := essentialBytes_ok ha va
  have hy := essentialBytes_ok hb vb
  exact ⟨⟨_, _, hx, hy, same_iff_namedAs hx hy, eq_iff_writtenAs hx hy⟩,
    MembershipId.equivalence_same⟩

/-- A member at port and view zero, with zeros added, and another one whose name is as many NUL
characters: their essential data are as long, and differ. -/
theorem essentialBytes_name_zeros :
    let a : Member := { host := "h", port := 0 }
    let b : Member := { host := "h", port := 0, name := String.ofList (List.replicate 17 '\x00') }
    a.Writable ∧ b.Writable ∧ ∃ x y, a.essentialBytes .v0_9 = .ok x
      ∧ b.essentialBytes .v1_14 = .ok y ∧ x.length = y.length ∧ ¬MembershipId.same x y := by
  intro a b
  have ha : a.Writable := by unfold Writable; decide
  have hb : b.Writable := by unfold Writable; decide
  obtain ⟨⟨x, y, hx, hy, hsame, -⟩, -⟩ := essentialBytes_name ha hb .v0_9 .v1_14
  refine ⟨ha, hb, x, y, hx, hy, ?_, fun h => ?_⟩
  · have hlength : (a.essentialBytes .v0_9).toOption.map List.length
        = (b.essentialBytes .v1_14).toOption.map List.length := by decide +kernel
    rw [hx, hy] at hlength
    exact Option.some.inj hlength
  · obtain ⟨⟨-, -, -, hname⟩, -⟩ := hsame.1 h
    revert hname
    decide

end Member

end DataGrid
