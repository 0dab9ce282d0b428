import DataGrid.Number.Binary64
import DataGrid.Proofs.Wire.Incremental

/-!
# Values — any values one after another

The body of a message is a list of values of a dozen types (`WireValue`), written one behind the
other. Nothing marks where one ends, so a reader must know the types (`WireType`), and each value
must take exactly its own octets or all that follow are lost. Whatever the values are, if their
lengths can be written they are read back in order, with what follows left over, and no less than
all of their octets is enough (`WireType.readAll_written`).
-/

namespace DataGrid

open Reader

/-- The types that messages are made of. -/
inductive WireType where
  | u8
  | bool
  | i8
  | u16
  | i16
  | i32
  | i64
  | f64
  /-- Octets without a length of their own. -/
  | raw (length : Nat)
  /-- The length of an array that may be null. -/
  | arrayLength
  | bytes
  | optionalBytes
  | text
  deriving DecidableEq, Repr

/-- A value of one of the types. -/
inductive WireValue where
  | u8 (v : UInt8)
  | bool (v : Bool)
  | i8 (v : Int8)
  | u16 (v : UInt16)
  | i16 (v : Int16)
  | i32 (v : Int32)
  | i64 (v : Int64)
  | f64 (v : Binary64)
  | raw (octets : Bytes)
  | arrayLength (length : Option Nat)
  | bytes (octets : Bytes)
  | optionalBytes (octets : Option Bytes)
  | text (s : String)
  deriving DecidableEq, Repr

namespace WireValue

/-- The type of a value. -/
def type : WireValue → WireType
  | .u8 _ => .u8
  | .bool _ => .bool
  | .i8 _ => .i8
  | .u16 _ => .u16
  | .i16 _ => .i16
  | .i32 _ => .i32
  | .i64 _ => .i64
  | .f64 _ => .f64
  | .raw octets => .raw octets.length
  | .arrayLength _ => .arrayLength
  | .bytes _ => .bytes
  | .optionalBytes _ => .optionalBytes
  | .text _ => .text

/-- The writing of a value. Only a text can fail. -/
def draft : WireValue → Draft
  | .u8 v => .ofBytes (Encode.u8 v)
  | .bool v => .ofBytes (Encode.bool v)
  | .i8 v => .ofBytes (Encode.i8 v)
  | .u16 v => .ofBytes (Encode.u16 v)
  | .i16 v => .ofBytes (Encode.i16 v)
  | .i32 v => .ofBytes (Encode.i32 v)
  | .i64 v => .ofBytes (Encode.i64 v)
  | .f64 v => .ofBytes (Encode.u64 v.bits)
  | .raw octets => .ofBytes octets
  | .arrayLength length => .ofBytes (Encode.arrayLength length)
  | .bytes octets => .ofBytes (Encode.bytes octets)
  | .optionalBytes octets => .ofBytes (Encode.optionalBytes octets)
  | .text s => Encode.text s

/-- Whether the length of a value can be written, if it has one. -/
def Fits : WireValue → Prop
  | .arrayLength length => ∀ n ∈ length, n < 2147483648
  | .bytes octets => octets.length < 2147483648
  | .optionalBytes octets => ∀ o ∈ octets, o.length < 2147483648
  | .text s => (Text.toBytes s).length ≤ 65535
  | _ => True

instance : (v : WireValue) → Decidable v.Fits
  | .arrayLength length => inferInstanceAs (Decidable (∀ n ∈ length, n < 2147483648))
  | .bytes octets => inferInstanceAs (Decidable (octets.length < 2147483648))
  | .optionalBytes octets =>
    inferInstanceAs (Decidable (∀ o ∈ octets, o.length < 2147483648))
  | .text s => inferInstanceAs (Decidable ((Text.toBytes s).length ≤ 65535))
  | .u8 _ | .bool _ | .i8 _ | .u16 _ | .i16 _ | .i32 _ | .i64 _ | .f64 _ | .raw _ =>
    inferInstanceAs (Decidable True)

/-- Values written one after another, behind what was written before. -/
def writeAll (out : Draft) (values : List WireValue) : Draft :=
  values.foldl (fun out v => out ++ v.draft) out

end WireValue

namespace WireType

/-- Reads a value of the type. -/
def read : WireType → Reader WireValue
  | .u8 => do return .u8 (← Reader.u8)
  | .bool => do return .bool (← Reader.bool)
  | .i8 => do return .i8 (← Reader.i8)
  | .u16 => do return .u16 (← Reader.u16)
  | .i16 => do return .i16 (← Reader.i16)
  | .i32 => do return .i32 (← Reader.i32)
  | .i64 => do return .i64 (← Reader.i64)
  | .f64 => do return .f64 ⟨← Reader.u64⟩
  | .raw length => do return .raw (← Reader.take length)
  | .arrayLength => do return .arrayLength (← Reader.arrayLength)
  | .bytes => do return .bytes (← Reader.bytes)
  | .optionalBytes => do return .optionalBytes (← Reader.optionalBytes)
  | .text => do return .text (← Reader.text)

/-- Reads values of the types, in their order. -/
def readAll : List WireType → Reader (List WireValue)
  | [] => pure []
  | type :: types => do
    let v ← type.read
    let values ← readAll types
    return v :: values

end WireType

/-! ## One value -/

namespace Reader

theorem reads_bool (v : Bool) : Reads bool (Encode.bool v) v := by
  have h := (reads_u8 (if v then 1 else 0)).map fun octet => decide (octet ≠ 0)
  have hv : decide ((if v then 1 else 0 : UInt8) ≠ 0) = v := by cases v <;> rfl
  rwa [hv] at h

theorem reads_i8 (v : Int8) : Reads i8 (Encode.i8 v) v := by
  have h := (reads_number 1 v.toUInt8.toNat_lt).map fun n => (UInt8.ofNat n).toInt8
  rwa [UInt8.ofNat_toNat, Int8.toInt8_toUInt8] at h

theorem reads_i16 (v : Int16) : Reads i16 (Encode.i16 v) v := by
  have h := (reads_number 2 v.toUInt16.toNat_lt).map fun n => (UInt16.ofNat n).toInt16
  rwa [UInt16.ofNat_toNat, Int16.toInt16_toUInt16] at h

theorem reads_nullArray : Reads arrayLength (Encode.arrayLength none) none := by
  have hmark : Reads u8 (Encode.arrayLength none) 0xFF := reads_u8 0xFF
  refine hmark.bind_nil ?_
  rw [if_pos rfl]
  exact reads_pure none

end Reader

namespace WireValue

variable {v : WireValue} {values : List WireValue}

/-- The octets of a value. -/
def octets (v : WireValue) : Bytes := v.draft.bytes

/-- A value whose length can be written is written. -/
theorem draft_eq (h : v.Fits) : v.draft = .ofBytes v.octets := by
  cases v with
  | text s =>
    have hs : (Text.toBytes s).length ≤ 65535 := h
    rw [octets, draft, Encode.text, if_pos hs]
    rfl
  | _ => rfl

/-- **A value is read from its octets.** -/
theorem reads (h : v.Fits) : v.type.read.Reads v.octets v := by
  cases v with
  | u8 v => exact (reads_u8 v).map u8
  | bool v => exact (reads_bool v).map bool
  | i8 v => exact (reads_i8 v).map i8
  | u16 v => exact (reads_u16 v).map u16
  | i16 v => exact (reads_i16 v).map i16
  | i32 v => exact (reads_i32 v).map i32
  | i64 v => exact (reads_i64 v).map i64
  | f64 v => exact (reads_u64 v.bits).map fun bits => f64 ⟨bits⟩
  | raw octets => exact (reads_take octets).map raw
  | arrayLength length =>
    cases length with
    | none => exact reads_nullArray.map arrayLength
    | some n => exact (reads_arrayLength (h n rfl)).map arrayLength
  | bytes octets => exact (reads_bytes h).map bytes
  | optionalBytes octets =>
    cases octets with
    | none =>
      have hnone : Reads Reader.optionalBytes (Encode.optionalBytes none) none :=
        reads_nullArray.bind_nil (reads_pure none)
      exact hnone.map optionalBytes
    | some o => exact (reads_someBytes (h o rfl)).map optionalBytes
  | text s => exact (reads_text h).map text

end WireValue

namespace WireType

theorem incremental_read (type : WireType) : type.read.Incremental := by
  cases type with
  | u8 => exact incremental_u8.map _
  | bool => exact incremental_bool.map _
  | i8 => exact incremental_i8.map _
  | u16 => exact incremental_u16.map _
  | i16 => exact incremental_i16.map _
  | i32 => exact incremental_i32.map _
  | i64 => exact incremental_i64.map _
  | f64 => exact incremental_u64.map _
  | raw length => exact (incremental_take length).map _
  | arrayLength => exact incremental_arrayLength.map _
  | bytes => exact incremental_bytes.map _
  | optionalBytes => exact incremental_optionalBytes.map _
  | text => exact incremental_text.map _

/-! ## Many values -/

theorem incremental_readAll (types : List WireType) : (readAll types).Incremental := by
  induction types with
  | nil => exact incremental_pure []
  | cons type types ih =>
    exact type.incremental_read.bind fun v => ih.map fun values => v :: values

end WireType

namespace WireValue

variable {v : WireValue} {values : List WireValue}

theorem writeAll_eq (hfits : ∀ v ∈ values, v.Fits) (out : Bytes) :
    writeAll (.ofBytes out) values = .ofBytes (out ++ values.flatMap octets) := by
  induction values generalizing out with
  | nil => rw [List.flatMap_nil, List.append_nil]; rfl
  | cons v rest ih =>
    obtain ⟨hv, hrest⟩ := List.forall_mem_cons.1 hfits
    have hfirst : Draft.ofBytes out ++ v.draft = .ofBytes (out ++ v.octets) := by
      rw [draft_eq hv]
      rfl
    rw [writeAll, List.foldl_cons, hfirst, ← writeAll, ih hrest, List.flatMap_cons,
      List.append_assoc]

theorem reads_all (hfits : ∀ v ∈ values, v.Fits) :
    (WireType.readAll (values.map type)).Reads (values.flatMap octets) values := by
  induction values with
  | nil => exact reads_pure []
  | cons v rest ih =>
    obtain ⟨hv, hrest⟩ := List.forall_mem_cons.1 hfits
    exact (reads hv).bind ((ih hrest).map fun values => v :: values)

end WireValue

/-! ## Texts -/

/-- **A text is written just if its length fits two octets**, and else nothing of it is. -/
theorem Encode.draft_text (out : Bytes) (s : String) :
    Draft.ofBytes out ++ Encode.text s
      = if (Text.toBytes s).length ≤ 65535 then .ofBytes (out ++ (Encode.text s).bytes)
        else ⟨out, some (.malformed (.textTooLong (Text.toBytes s).length))⟩ := by
  rw [Encode.text]
  split
  · rfl
  · change (⟨out ++ [], _⟩ : Draft) = _
    rw [List.append_nil]
    rfl

namespace WireType

/-- **Values are read back as they were written.** Values whose lengths can be written are written
behind any output, with the same octets. Of these octets with anything behind, reading the types
makes the values and leaves what is behind; of anything less than all of them, reading finds that
they end too early. And a text cannot be written just if it is longer than 65535 octets, in which
case the output stays as it is. -/
theorem readAll_written {values : List WireValue} (hfits : ∀ v ∈ values, v.Fits) :
    (∃ written : Bytes,
      (∀ out, WireValue.writeAll (.ofBytes out) values = .ofBytes (out ++ written))
      ∧ (∀ rest, readAll (values.map WireValue.type) (written ++ rest) = (.ok values, rest))
      ∧ ∀ front, front <+: written → front ≠ written →
          (readAll (values.map WireValue.type)).CutShort front)
    ∧ ∀ (out : Bytes) (s : String),
      ((∃ fault, (Draft.ofBytes out ++ Encode.text s).fault = some fault)
          ↔ 65535 < (Text.toBytes s).length)
      ∧ (65535 < (Text.toBytes s).length → (Draft.ofBytes out ++ Encode.text s).bytes = out) := by
  have hreads := WireValue.reads_all hfits
  refine ⟨⟨_, WireValue.writeAll_eq hfits, hreads, fun front hfront hne =>
    (incremental_readAll _).cutShort hreads hfront hne⟩, fun out s => ?_⟩
  rw [Encode.draft_text]
  split
  · next hle =>
    exact ⟨iff_of_false nofun (Nat.not_lt.2 hle), fun hlong => absurd hle (Nat.not_le.2 hlong)⟩
  · next hlong => exact ⟨iff_of_true ⟨_, rfl⟩ (Nat.not_le.1 hlong), fun _ => rfl⟩

/-- Lengths on both sides of a mark, a null array, a text and octets that look like marks; one octet
less than all of it is too little. -/
theorem readAll_written_marks :
    let values : List WireValue := [.bytes (List.replicate 252 1), .bytes (List.replicate 253 2),
      .optionalBytes none, .arrayLength (some 65535), .arrayLength (some 65536), .i32 (-1),
      .text "grüß", .raw [0xFF, 0xFE, 0xFD], .bool true]
    (∀ v ∈ values, v.Fits) ∧ ∃ written : Bytes,
      readAll (values.map WireValue.type) (written ++ [9]) = (.ok values, [9])
      ∧ written.length = 534 ∧ (readAll (values.map WireValue.type)).CutShort written.dropLast := by
  intro values
  have hfits : ∀ v ∈ values, v.Fits := by decide +kernel
  obtain ⟨⟨written, hwritten, hread, hcut⟩, -⟩ := readAll_written hfits
  have hbytes : written = values.flatMap WireValue.octets := by
    have heq := (hwritten []).symm.trans (WireValue.writeAll_eq hfits [])
    simpa [Draft.ofBytes] using heq
  have hlength : written.length = 534 := by
    rw [hbytes]
    decide +kernel
  refine ⟨hfits, written, hread [9], hlength, hcut _ (List.dropLast_prefix written) fun heq => ?_⟩
  have := congrArg List.length heq
  rw [List.length_dropLast, hlength] at this
  cases this

end WireType

end DataGrid
