import DataGrid.Event.EventId
import DataGrid.Proofs.Wire.Canonical

/-!
# Events on the wire

Compact numbers keep their value through the width that they are written in, and the essential
data of a member reads back as the member. So an event id arrives with its thread id and sequence
id at every version, although an older version carries the member in the older form
(`EventId.exists_reads`).
-/

namespace DataGrid

open Reader

/-! ## Compact numbers -/

namespace Width

/-- **Whether a width holds a number**: the number is one that the octets of the width spell. -/
structure Holds (w : Width) (v : Int64) : Prop where
  ge : -(BigEndian.capacity w.size : Int) ≤ 2 * v.toInt
  lt : 2 * v.toInt < BigEndian.capacity w.size

/-- The octets of a width spell a number in two's complement. -/
theorem exists_wrap (w : Width) : ∃ wrap : Nat → Int64,
    w.read = (do return wrap (← number w.size))
      ∧ ∀ n : Nat, (wrap n).toInt = (n : Int).bmod (BigEndian.capacity w.size) := by
  cases w with
  | byte =>
    refine ⟨fun n => (UInt8.ofNat n).toInt8.toInt64, bind_assoc _ _ _, fun n => ?_⟩
    rw [Int8.toInt_toInt64, UInt8.toInt8_ofNat', Int8.toInt_ofNat']
    rfl
  | short =>
    refine ⟨fun n => (UInt16.ofNat n).toInt16.toInt64, bind_assoc _ _ _, fun n => ?_⟩
    rw [Int16.toInt_toInt64, UInt16.toInt16_ofNat', Int16.toInt_ofNat']
    rfl
  | int =>
    refine ⟨fun n => (UInt32.ofNat n).toInt32.toInt64, bind_assoc _ _ _, fun n => ?_⟩
    rw [Int32.toInt_toInt64, UInt32.toInt32_ofNat', Int32.toInt_ofNat']
    rfl
  | long =>
    refine ⟨fun n => (UInt64.ofNat n).toInt64, rfl, fun n => ?_⟩
    dsimp only
    rw [UInt64.toInt64_ofNat', Int64.toInt_ofNat']
    rfl

/-- The low octets of a number spell the number up to the capacity of the width. -/
theorem toNat_toUInt64_emod (w : Width) (v : Int64) :
    (v.toUInt64.toNat : Int) % BigEndian.capacity w.size
      = v.toInt % BigEndian.capacity w.size := by
  have hlt := v.toUInt64.toNat_lt
  have hcond : v.toInt = if 2 * v.toUInt64.toNat < 18446744073709551616 then
      (v.toUInt64.toNat : Int) else (v.toUInt64.toNat : Int) - 18446744073709551616 :=
    BitVec.toInt_eq_toNat_cond v.toBitVec
  have hwhole : (v.toUInt64.toNat : Int) = v.toInt % 18446744073709551616 := by
    split at hcond <;> omega
  have hdvd : (BigEndian.capacity w.size : Int) ∣ 18446744073709551616 := by
    cases w <;> decide
  rw [hwhole, Int.emod_emod_of_dvd _ hdvd]

/-- **A number keeps its value in the octets of a width that holds it.** -/
theorem Holds.reads {w : Width} {v : Int64} (h : w.Holds v) :
    w.read.Reads (BigEndian.ofNat w.size v.toUInt64.toNat) v := by
  obtain ⟨wrap, hread, hwrap⟩ := w.exists_wrap
  have hreads := (reads_number_mod w.size v.toUInt64.toNat).map wrap
  -- What stands above the low octets is lost, and within the range nothing depends on it.
  have heq : wrap (v.toUInt64.toNat % BigEndian.capacity w.size) = v := by
    have hge := h.ge
    have hlt := h.lt
    apply Int64.toInt.inj
    rw [hwrap, Int.natCast_emod, toNat_toUInt64_emod, Int.emod_bmod,
      Int.bmod_eq_of_le (by omega) (by omega)]
  rwa [heq, ← hread] at hreads

theorem holds_byte_iff {v : Int64} :
    byte.Holds v ↔ Int8.minValue.toInt ≤ v.toInt ∧ v.toInt ≤ Int8.maxValue.toInt := by
  have hcapacity : BigEndian.capacity byte.size = 256 := rfl
  have hmin : Int8.minValue.toInt = -128 := rfl
  have hmax : Int8.maxValue.toInt = 127 := rfl
  exact ⟨fun ⟨hge, hlt⟩ => ⟨by omega, by omega⟩, fun ⟨hge, hle⟩ => ⟨by omega, by omega⟩⟩

theorem holds_short_iff {v : Int64} :
    short.Holds v ↔ Int16.minValue.toInt ≤ v.toInt ∧ v.toInt ≤ Int16.maxValue.toInt := by
  have hcapacity : BigEndian.capacity short.size = 65536 := rfl
  have hmin : Int16.minValue.toInt = -32768 := rfl
  have hmax : Int16.maxValue.toInt = 32767 := rfl
  exact ⟨fun ⟨hge, hlt⟩ => ⟨by omega, by omega⟩, fun ⟨hge, hle⟩ => ⟨by omega, by omega⟩⟩

theorem holds_int_iff {v : Int64} :
    int.Holds v ↔ Int32.minValue.toInt ≤ v.toInt ∧ v.toInt ≤ Int32.maxValue.toInt := by
  have hcapacity : BigEndian.capacity int.size = 4294967296 := rfl
  have hmin : Int32.minValue.toInt = -2147483648 := rfl
  have hmax : Int32.maxValue.toInt = 2147483647 := rfl
  exact ⟨fun ⟨hge, hlt⟩ => ⟨by omega, by omega⟩, fun ⟨hge, hle⟩ => ⟨by omega, by omega⟩⟩

theorem holds_long (v : Int64) : long.Holds v := by
  have hcapacity : BigEndian.capacity long.size = 18446744073709551616 := rfl
  have hge := v.le_toInt
  have hlt := v.toInt_lt
  exact ⟨by omega, by omega⟩

/-- A number is written in a width that holds it. -/
theorem holds_of (v : Int64) : (of v).Holds v := by
  unfold of
  dsimp only
  split
  · next h => exact holds_byte_iff.2 h
  split
  · next h => exact holds_short_iff.2 h
  split
  · next h => exact holds_int_iff.2 h
  · exact holds_long v

theorem ofTag_tag (w : Width) : ofTag w.tag = .ok w := by
  cases w <;> rfl

end Width

namespace Compact

/-- **Behind the tag of any width that holds it a number is read**, be it the narrowest or not. -/
theorem reads_of_holds {w : Width} {v : Int64} (h : w.Holds v) :
    read.Reads (w.tag :: BigEndian.ofNat w.size v.toUInt64.toNat) v := by
  have htag : u8.Reads [w.tag] w.tag := by
    simpa [Encode.u8, BigEndian.ofNat] using reads_u8 w.tag
  have hwidth : Reads (ofExcept (Width.ofTag w.tag) >>= Width.read)
      (BigEndian.ofNat w.size v.toUInt64.toNat) v := by
    rw [w.ofTag_tag]
    exact h.reads.after_ok
  exact htag.bind hwidth

/-- **Compact numbers are read as they were written.** -/
theorem reads_write (v : Int64) : read.Reads (write v) v :=
  reads_of_holds (Width.holds_of v)

theorem reads_writePair (thread sequence : Int64) :
    readPair.Reads (writePair thread sequence) (thread, sequence) :=
  (reads_write thread).bind ((reads_write sequence).map fun s => (thread, s))

theorem length_write_le (v : Int64) : (write v).length ≤ 9 := by
  rw [write, List.length_cons, BigEndian.length_ofNat]
  cases Width.of v <;> decide

end Compact

/-! ## Members -/

namespace Member

/-- Whether a member's host and name fit the texts of its essential data. -/
def Writable (m : Member) : Prop :=
  (Text.toBytes m.host).length ≤ 65535 ∧ (Text.toBytes m.name).length ≤ 65535

variable {m : Member}

/-- The essential data of a member that can be written. -/
theorem essentialBytes_eq (h : m.Writable) (version : Version) :
    m.essentialBytes version = .ok ((Encode.text m.host).bytes
      ++ (BigEndian.ofNat 4 m.port.toNat ++ Encode.i32 m.view) ++ (Encode.text m.name).bytes
      ++ if version.needsLegacyMember then m.legacySuffix else []) := by
  obtain ⟨hhost, hname⟩ := h
  simp only [essentialBytes, essentialDraft, Encode.text, if_pos hhost, if_pos hname,
    HAppend.hAppend, Append.append, Draft.append, Draft.ofBytes, Draft.result]

/-- A member whose essential data was written could be written. -/
theorem writable_of_essentialBytes {version : Version} {bytes : Bytes}
    (h : m.essentialBytes version = .ok bytes) : m.Writable := by
  simp only [essentialBytes, essentialDraft, Encode.text, HAppend.hAppend, Append.append,
    Draft.append, Draft.ofBytes, Draft.failed, Draft.result] at h
  by_cases hhost : (Text.toBytes m.host).length ≤ 65535
  · by_cases hname : (Text.toBytes m.name).length ≤ 65535
    · exact ⟨hhost, hname⟩
    · simp [hhost, hname] at h
  · simp [hhost] at h

theorem reads_port (port : UInt16) : readPort.Reads (BigEndian.ofNat 4 port.toNat) port := by
  have hcapacity : BigEndian.capacity 4 = 4294967296 := rfl
  have hlt := port.toNat_lt
  have hread : i32.Reads (BigEndian.ofNat 4 port.toNat) (UInt32.ofNat port.toNat).toInt32 :=
    (reads_number 4 (by omega)).map fun n => (UInt32.ofNat n).toInt32
  have hint : (UInt32.ofNat port.toNat).toInt32.toInt = port.toNat := by
    rw [UInt32.toInt32_ofNat', Int32.toInt_ofNat_of_lt (by omega)]
  refine hread.bind_nil ?_
  rw [hint, if_pos (by omega), Int.toNat_natCast, UInt16.ofNat_toNat]
  exact reads_pure port

/-- **The essential data of a member names it**, but for the uuid and the weight. -/
theorem ofEssentialBytes_of_current {bytes : Bytes} (h : m.essentialBytes .current = .ok bytes) :
    ofEssentialBytes bytes = .ok { m with uuid := none, weight := 0 } := by
  have hw := writable_of_essentialBytes h
  rw [essentialBytes_eq hw] at h
  obtain rfl := Except.ok.inj h
  have hlegacy : Version.current.needsLegacyMember = false := by decide
  rw [hlegacy, ofEssentialBytes, Reader.parse, readEssential]
  simp only [List.append_assoc, Bool.false_eq_true, if_false]
  rw [(reads_text hw.1).bind_apply, (reads_port m.port).bind_apply, (reads_i32 m.view).bind_apply,
    (reads_text hw.2).bind_apply]
  rfl

theorem length_text_le {s : String} (h : (Text.toBytes s).length ≤ 65535) :
    (Encode.text s).bytes.length ≤ 65537 := by
  rw [Encode.text, if_pos h, Draft.ofBytes, List.length_append, BigEndian.length_ofNat]
  omega

theorem length_essentialBytes_lt {version : Version} {bytes : Bytes}
    (h : m.essentialBytes version = .ok bytes) : bytes.length < 2147483648 := by
  have hw := writable_of_essentialBytes h
  rw [essentialBytes_eq hw] at h
  obtain rfl := Except.ok.inj h
  have hhost := length_text_le hw.1
  have hname := length_text_le hw.2
  have hsuffix : (if version.needsLegacyMember then m.legacySuffix else []).length ≤ 17 := by
    split
    · simp [legacySuffix, Uuid.toBytes, Encode.u8]
    · simp
  simp only [List.length_append, BigEndian.length_ofNat, Encode.i32]
  omega

end Member

/-! ## Event ids -/

namespace EventId

variable {id : EventId} {version : Version} {membership : Bytes}

theorem reads_encode (h : id.membershipAt version = .ok membership)
    (hlength : membership.length < 2147483648) :
    ∃ bytes, id.encode version = .ok bytes ∧ EventId.read.Reads bytes { id with membership } := by
  refine ⟨Encode.bytes membership ++ Encode.bytes id.compact ++ Encode.i32 id.bucket
    ++ Encode.u8 id.breadcrumbs, by rw [encode, h]; rfl, ?_⟩
  have hcompact : id.compact.length < 2147483648 := by
    have hthread := Compact.length_write_le id.thread
    have hsequence := Compact.length_write_le id.sequence
    rw [compact, Compact.writePair, List.length_append]
    omega
  have hpair : Compact.readPair.parse id.compact = .ok (id.thread, id.sequence) :=
    (Compact.reads_writePair id.thread id.sequence).parse
  rw [List.append_assoc, List.append_assoc]
  refine (reads_bytes hlength).bind ((reads_bytes hcompact).bind ?_)
  rw [hpair]
  exact Reads.after_ok ((reads_i32 id.bucket).bind ((reads_u8 id.breadcrumbs).map
    fun breadcrumbs => { id with membership, breadcrumbs }))

/-- The identity of a member can be sent at every version. -/
theorem exists_membershipAt {m : Member} (hm : m.essentialBytes .current = .ok id.membership)
    (version : Version) :
    ∃ membership, id.membershipAt version = .ok membership ∧ membership.length < 2147483648 := by
  -- The identity is read back without the uuid and the weight, and the older form needs neither.
  have hmember : id.member = .ok { m with uuid := none, weight := 0 } :=
    Member.ofEssentialBytes_of_current hm
  unfold membershipAt
  split
  · have hwritable : Member.Writable { m with uuid := none, weight := 0 } :=
      Member.writable_of_essentialBytes (m := m) hm
    have hlegacy := Member.essentialBytes_eq hwritable .v0_9
    rw [hmember]
    exact ⟨_, hlegacy, Member.length_essentialBytes_lt hlegacy⟩
  · exact ⟨_, rfl, Member.length_essentialBytes_lt hm⟩

end EventId

end DataGrid
