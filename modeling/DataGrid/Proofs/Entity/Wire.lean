import DataGrid.Entity.Snapshot
import DataGrid.Proofs.Ordered.Lookup
import DataGrid.Proofs.Wire.Reads

/-!
# Entities on the wire

Deltas and snapshots are read as they were written if their lists and octet strings are shorter
than `2 ^ 31`, so that no length overflows (`Delta.Fits`, `Content.Fits`). Every octet string and
every list is shorter than the form that it is in, so it is enough that the form is. A snapshot
drops what is staged and keeps everything else.
-/

namespace DataGrid

open Reader

/-! ## Lengths -/

namespace Encode

variable {α : Type}

/-- Whether a list, of octets or of anything, is short enough for its length to be written. -/
def Fits (l : List α) : Prop := l.length < 2147483648

/-- Whether a list of octet strings is short enough, and each of them is. -/
def FitsAll (l : List Bytes) : Prop := Fits l ∧ ∀ m ∈ l, Fits m

instance (l : List α) : Decidable (Fits l) := inferInstanceAs (Decidable (_ < _))

instance (l : List Bytes) : Decidable (FitsAll l) := inferInstanceAs (Decidable (_ ∧ _))

theorem length_lt_length_bytes (octets : Bytes) : octets.length < (bytes octets).length := by
  have hmark : 0 < (arrayLength (some octets.length)).length := by
    simp only [arrayLength]
    split
    · exact Nat.one_pos
    · split <;> exact Nat.succ_pos _
  rw [bytes, List.length_append]
  omega

theorem length_lt_length_writePair (pair : Bytes × Binary64) :
    pair.1.length < (Delta.writePair pair).length := by
  have hmember := length_lt_length_bytes pair.1
  rw [Delta.writePair, List.length_append]
  omega

theorem length_le_length_flatMap {encode : α → Bytes} (hpos : ∀ a, 0 < (encode a).length)
    (l : List α) : l.length ≤ (l.flatMap encode).length := by
  induction l with
  | nil => exact Nat.le_refl 0
  | cons a l ih =>
    have ha := hpos a
    rw [List.flatMap_cons, List.length_append, List.length_cons]
    omega

theorem length_le_length_flatMap_of_mem (encode : α → Bytes) {l : List α} {a : α} (ha : a ∈ l) :
    (encode a).length ≤ (l.flatMap encode).length := by
  induction l with
  | nil => cases ha
  | cons b l ih =>
    rw [List.flatMap_cons, List.length_append]
    rcases List.mem_cons.1 ha with rfl | ha
    · omega
    · have := ih ha
      omega

/-- If the form of a counted list is short, the octet strings that it is made of fit. -/
theorem fitsAll_of_counted {encode : α → Bytes} {part : α → Bytes}
    (hpart : ∀ a, (part a).length < (encode a).length) {l : List α}
    (h : (count l.length ++ l.flatMap encode).length < 2147483648) : FitsAll (l.map part) := by
  rw [List.length_append] at h
  refine ⟨?_, fun m hm => ?_⟩
  · have hcount := length_le_length_flatMap (fun a => Nat.zero_lt_of_lt (hpart a)) l
    rw [Fits, List.length_map]
    omega
  · obtain ⟨a, ha, rfl⟩ := List.mem_map.1 hm
    have hform := length_le_length_flatMap_of_mem encode ha
    have hshorter := hpart a
    unfold Fits
    omega

end Encode

/-- A counted list, if it fits. -/
theorem Reader.reads_counted {α : Type} {r : Reader α} {encode : α → Bytes} {l : List α}
    (hl : Encode.Fits l) (hr : ∀ a ∈ l, r.Reads (encode a) a) :
    Reads (do
      let count ← count
      repeated r count) (Encode.count l.length ++ l.flatMap encode) l :=
  (reads_count hl).bind (reads_repeated l hr)

/-! ## Deltas -/

namespace Delta

/-- Whether the lengths in a delta can be written. -/
def Fits : Delta → Prop
  | .adds members => Encode.FitsAll members
  | .rems members => Encode.FitsAll members
  | .append _ octets => Encode.Fits octets
  | .timestamp _ => True
  | .zadds pairs => Encode.FitsAll (pairs.map (·.1))

theorem fits_of_short {delta : Delta} (h : delta.encode.length < 2147483648) : delta.Fits := by
  unfold encode at h
  rw [List.length_append] at h
  cases delta with
  | adds members | rems members =>
    have hmembers : Encode.FitsAll (members.map fun m => m) :=
      Encode.fitsAll_of_counted Encode.length_lt_length_bytes (by dsimp only at h; omega)
    rwa [List.map_id'] at hmembers
  | append sequence octets =>
    have hlength := Encode.length_lt_length_bytes octets
    dsimp only at h
    rw [List.length_append] at h
    unfold Fits Encode.Fits
    omega
  | timestamp => trivial
  | zadds =>
    exact Encode.fitsAll_of_counted Encode.length_lt_length_writePair (by dsimp only at h; omega)

theorem reads_members {members : List Bytes} (h : Encode.FitsAll members) :
    readMembers.Reads (Encode.count members.length ++ members.flatMap Encode.bytes) members :=
  reads_counted h.1 fun m hm => reads_bytes (h.2 m hm)

theorem reads_pairs {pairs : List (Bytes × Binary64)} (h : Encode.FitsAll (pairs.map (·.1))) :
    readPairs.Reads (Encode.count pairs.length ++ pairs.flatMap writePair) pairs := by
  obtain ⟨hcount, hmembers⟩ := h
  rw [Encode.Fits, List.length_map] at hcount
  refine reads_counted hcount fun pair hpair => ?_
  exact (reads_bytes (hmembers pair.1 (List.mem_map_of_mem hpair))).bind
    ((reads_u64 pair.2.bits).map fun bits => (pair.1, Binary64.mk bits))

theorem ofTag_tag (kind : DeltaKind) : DeltaKind.ofTag kind.tag = .ok kind := by
  cases kind <;> rfl

/-- **Deltas are read as they were written.** -/
theorem reads_encode {delta : Delta} (h : delta.Fits) : read.Reads delta.encode delta := by
  unfold encode
  refine (reads_u8 delta.kind.tag).bind ?_
  rw [ofTag_tag]
  refine Reads.after_ok ?_
  cases delta with
  | adds members => exact (reads_members h).map adds
  | rems members => exact (reads_members h).map rems
  | append sequence octets =>
    exact (reads_i32 sequence).bind ((reads_bytes h).map (append sequence))
  | timestamp expiration => exact (reads_i64 expiration).map timestamp
  | zadds pairs => exact (reads_pairs h).map zadds

theorem ofBytes_encode {delta : Delta} (h : delta.Fits) : ofBytes delta.encode = .ok delta :=
  (reads_encode h).parse

end Delta

/-! ## Snapshots -/

namespace Content

/-- Whether the lengths in the snapshot of a content can be written. -/
def Fits : Content → Prop
  | .set members => Encode.FitsAll members.toList
  | .string s => Encode.Fits s.octets
  | .sortedSet scores => Encode.FitsAll scores.keys

instance : (content : Content) → Decidable content.Fits
  | .set members => inferInstanceAs (Decidable (Encode.FitsAll members.toList))
  | .string s => inferInstanceAs (Decidable (Encode.Fits s.octets))
  | .sortedSet scores => inferInstanceAs (Decidable (Encode.FitsAll scores.keys))

theorem encode_set (members : SetValue) : (Content.set members).encode
    = Encode.count members.toList.length ++ members.toList.flatMap Encode.bytes := by
  have hsize : members.toList.length = members.size := List.length_map _
  rw [hsize]
  rfl

theorem fits_of_short {content : Content} (h : content.encode.length < 2147483648) :
    content.Fits := by
  cases content with
  | set members =>
    rw [encode_set] at h
    have hmembers := Encode.fitsAll_of_counted Encode.length_lt_length_bytes h
    rwa [List.map_id'] at hmembers
  | string s =>
    have hoctets := Encode.length_lt_length_bytes s.octets
    unfold encode at h
    rw [List.length_append] at h
    unfold Fits Encode.Fits
    omega
  | sortedSet scores => exact Encode.fitsAll_of_counted Encode.length_lt_length_writePair h

theorem reads_encode {content : Content} (h : content.Fits) :
    (Content.read content.kind).Reads content.encode content := by
  cases content with
  | set members =>
    rw [encode_set]
    have hread := (Delta.reads_members h).map fun l => Content.set (OrdSet.ofList l)
    rwa [OrdSet.ofList_toList] at hread
  | string s =>
    exact (reads_i32 s.sequence).bind ((reads_bytes h).map fun octets =>
      Content.string { octets, sequence := s.sequence })
  | sortedSet scores =>
    have hread := (Delta.reads_pairs h).map fun l => Content.sortedSet (OrdMap.ofList l)
    rwa [OrdMap.ofList_entries] at hread

end Content

namespace Entity

theorem fits_of_short {e : Entity} (h : e.snapshot.length < 2147483648) : e.content.Fits := by
  unfold snapshot at h
  rw [List.length_append] at h
  exact Content.fits_of_short (by omega)

theorem ofTag_tag (kind : EntityKind) : EntityKind.ofTag kind.tag = .ok kind := by
  cases kind <;> rfl

/-- **A snapshot holds the entity**, without what is staged. -/
theorem reads_snapshot {e : Entity} (h : e.content.Fits) : read.Reads e.snapshot e.unstage := by
  unfold snapshot
  rw [List.append_assoc]
  refine (reads_i64 e.expiration).bind ((reads_u8 e.kind.tag).bind ?_)
  rw [ofTag_tag]
  exact Reads.after_ok
    ((Content.reads_encode h).map fun content => Entity.mk content e.expiration none)

theorem ofSnapshot_snapshot {e : Entity} (h : e.content.Fits) :
    ofSnapshot e.snapshot = .ok e.unstage :=
  (reads_snapshot h).parse

end Entity

end DataGrid
