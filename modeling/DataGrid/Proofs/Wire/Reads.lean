import DataGrid.Wire.Draft
import DataGrid.Wire.Reader

/-!
# Reads — what was written is what is read

A reader reads octets as a value when it takes exactly these octets for it, whatever follows them
(`Reader.Reads`). The relation is compositional: readers in sequence read octets in sequence. So
each form of the wire is one statement, and a longer form follows from its parts. Lengths and
counts are four signed octets, which is where a bound on sizes comes from.
-/

namespace DataGrid

namespace Reader

variable {α β : Type} {r : Reader α} {bytes : Bytes}

/-- Whether a reader takes octets for a value, whatever follows them. -/
def Reads (r : Reader α) (bytes : Bytes) (a : α) : Prop :=
  ∀ rest, r (bytes ++ rest) = (.ok a, rest)

/-! ## Composition -/

theorem reads_pure (a : α) : Reads (pure a) [] a := fun _ => rfl

/-- Reading on behind octets that were read. -/
theorem Reads.bind_apply {a : α} (h : r.Reads bytes a) (next : α → Reader β) (rest : Bytes) :
    (r >>= next) (bytes ++ rest) = next a rest := by
  change Reader.bind r next _ = _
  rw [Reader.bind, h rest]

theorem Reads.bind {next : α → Reader β} {bytes' : Bytes} {a : α} {b : β} (h : r.Reads bytes a)
    (h' : (next a).Reads bytes' b) : Reads (r >>= next) (bytes ++ bytes') b := by
  intro rest
  rw [List.append_assoc, h.bind_apply]
  exact h' rest

/-- A reader whose value is changed. -/
theorem Reads.map {a : α} (h : r.Reads bytes a) (f : α → β) :
    Reads (do return f (← r)) bytes (f a) := by
  have hf : Reads (r >>= fun a => pure (f a)) (bytes ++ []) (f a) := h.bind (reads_pure (f a))
  rwa [List.append_nil] at hf

/-- A last reader that reads nothing of its own. -/
theorem Reads.bind_nil {next : α → Reader β} {a : α} {b : β} (h : r.Reads bytes a)
    (h' : (next a).Reads [] b) : Reads (r >>= next) bytes b := by
  have hb := h.bind h'
  rwa [List.append_nil] at hb

theorem Reads.after_ok {next : α → Reader β} {a : α} {b : β} (h : (next a).Reads bytes b) :
    Reads (ofExcept (.ok a) >>= next) bytes b := h

/-- What was read in sequence was read part by part. -/
theorem exists_of_bind {next : α → Reader β} {b : β} {rest : Bytes}
    (h : (r >>= next) bytes = (.ok b, rest)) :
    ∃ a left, r bytes = (.ok a, left) ∧ next a left = (.ok b, rest) := by
  change Reader.bind r next bytes = _ at h
  rw [Reader.bind] at h
  rcases hr : r bytes with ⟨fault | a, left⟩
  · rw [hr] at h
    cases h
  · rw [hr] at h
    exact ⟨a, left, rfl, h⟩

theorem exists_of_parse_bind {next : α → Reader β} {b : β}
    (h : (r >>= next).parse bytes = .ok b) :
    ∃ a rest, r bytes = (.ok a, rest) ∧ (next a).parse rest = .ok b := by
  obtain ⟨a, rest, hr, hnext⟩ := exists_of_bind (Prod.ext h rfl)
  exact ⟨a, rest, hr, by rw [parse, hnext]⟩

/-- Octets of their own parse as the value that they are read as. -/
theorem Reads.parse {a : α} (h : r.Reads bytes a) : r.parse bytes = .ok a := by
  have hr := h []
  rw [List.append_nil] at hr
  rw [Reader.parse, hr]

/-! ## Octets and numbers -/

theorem reads_take (bytes : Bytes) : Reads (take bytes.length) bytes bytes := by
  intro rest
  simp [take]

/-- A number that is too large loses its high part. -/
theorem reads_number_mod (width n : Nat) :
    Reads (number width) (BigEndian.ofNat width n) (n % BigEndian.capacity width) := by
  have ht := reads_take (BigEndian.ofNat width n)
  rw [BigEndian.length_ofNat] at ht
  have hn := ht.map BigEndian.toNat
  rwa [BigEndian.toNat_ofNat] at hn

theorem reads_number (width : Nat) {n : Nat} (h : n < BigEndian.capacity width) :
    Reads (number width) (BigEndian.ofNat width n) n := by
  have hn := reads_number_mod width n
  rwa [Nat.mod_eq_of_lt h] at hn

theorem reads_u8 (v : UInt8) : Reads u8 (Encode.u8 v) v := by
  have h := (reads_number 1 v.toNat_lt).map UInt8.ofNat
  rwa [UInt8.ofNat_toNat] at h

theorem reads_u16 (v : UInt16) : Reads u16 (Encode.u16 v) v := by
  have h := (reads_number 2 v.toNat_lt).map UInt16.ofNat
  rwa [UInt16.ofNat_toNat] at h

theorem reads_i32 (v : Int32) : Reads i32 (Encode.i32 v) v := by
  have h := (reads_number 4 v.toUInt32.toNat_lt).map fun n => (UInt32.ofNat n).toInt32
  rwa [UInt32.ofNat_toNat, Int32.toInt32_toUInt32] at h

theorem reads_u64 (v : UInt64) : Reads u64 (Encode.u64 v) v := by
  have h := (reads_number 8 v.toNat_lt).map UInt64.ofNat
  rwa [UInt64.ofNat_toNat] at h

theorem reads_i64 (v : Int64) : Reads i64 (Encode.i64 v) v := by
  have h := (reads_number 8 v.toUInt64.toNat_lt).map fun n => (UInt64.ofNat n).toInt64
  rwa [UInt64.ofNat_toNat, Int64.toInt64_toUInt64] at h

/-! ## Arrays and texts -/

/-- Counts below `2 ^ 31` are read as they were written. -/
theorem reads_count {n : Nat} (h : n < 2147483648) : Reads count (Encode.count n) n := by
  have hcapacity : BigEndian.capacity 4 = 4294967296 := rfl
  have hread : Reads (number 4) (Encode.count n) n := reads_number 4 (by omega)
  have hint : (UInt32.ofNat n).toInt32.toInt = n := by
    rw [UInt32.toInt32_ofNat', Int32.toInt_ofNat_of_lt (by omega)]
  have hi : Reads i32 (Encode.count n) (UInt32.ofNat n).toInt32 :=
    hread.map fun n => (UInt32.ofNat n).toInt32
  have hneg : ¬(UInt32.ofNat n).toInt32 < 0 := by
    rw [Int32.lt_iff_toInt_lt, hint]
    simp
  refine hi.bind_nil ?_
  rw [if_neg hneg, Int32.toNatClampNeg, hint]
  exact reads_pure _

/-- **Which octets spell an array's length**: the length itself up to 252, or a mark and the length
in two or four octets. The shortest of them is written, and all are read. -/
inductive LengthForm : Bytes → Nat → Prop where
  | byte {n : Nat} (h : n ≤ 252) : LengthForm [UInt8.ofNat n] n
  | short {n : Nat} (h : n ≤ 65535) : LengthForm (0xFE :: BigEndian.ofNat 2 n) n
  | int {n : Nat} (h : n < 2147483648) : LengthForm (0xFD :: Encode.count n) n

theorem LengthForm.encode {n : Nat} (h : n < 2147483648) :
    LengthForm (Encode.arrayLength (some n)) n := by
  simp only [Encode.arrayLength]
  split
  · next hbyte => exact .byte hbyte
  split
  · next hshort => exact .short hshort
  · exact .int h

theorem LengthForm.reads {n : Nat} (h : LengthForm bytes n) : Reads arrayLength bytes (some n) := by
  have hmark : ∀ mark : UInt8, Reads u8 [mark] mark := fun mark => by
    have hm := reads_u8 mark
    simpa [Encode.u8, BigEndian.ofNat] using hm
  cases h with
  | byte hbyte =>
    have hnat : (UInt8.ofNat n).toNat = n := by
      rw [UInt8.toNat_ofNat']
      omega
    have hne : ∀ mark : UInt8, 252 < mark.toNat → UInt8.ofNat n ≠ mark := by
      intro mark hm heq
      rw [← heq, hnat] at hm
      omega
    refine (hmark _).bind_nil ?_
    rw [if_neg (hne _ (by decide)), if_neg (hne _ (by decide)), if_neg (hne _ (by decide)), hnat]
    exact reads_pure _
  | short hshort =>
    have hcapacity : BigEndian.capacity 2 = 65536 := rfl
    have hlength : Reads u16 (BigEndian.ofNat 2 n) (UInt16.ofNat n) :=
      (reads_number 2 (by omega)).map UInt16.ofNat
    have hnat : (UInt16.ofNat n).toNat = n := by
      rw [UInt16.toNat_ofNat']
      omega
    have hsome := hlength.map fun length => some length.toNat
    rw [hnat] at hsome
    exact (hmark 0xFE).bind hsome
  | int hint => exact (hmark 0xFD).bind ((reads_count hint).map some)

theorem reads_arrayLength {n : Nat} (h : n < 2147483648) :
    Reads arrayLength (Encode.arrayLength (some n)) (some n) :=
  (LengthForm.encode h).reads

theorem reads_someBytes {octets : Bytes} (h : octets.length < 2147483648) :
    Reads optionalBytes (Encode.bytes octets) (some octets) :=
  (reads_arrayLength h).bind ((reads_take octets).map some)

/-- Arrays of fewer than `2 ^ 31` octets are read as they were written. -/
theorem reads_bytes {octets : Bytes} (h : octets.length < 2147483648) :
    Reads Reader.bytes (Encode.bytes octets) octets :=
  (reads_someBytes h).bind_nil (reads_pure _)

/-- A fault ends a sequence of readers. -/
theorem bind_of_error {fault : Fault} {rest : Bytes} (h : r bytes = (.error fault, rest))
    (next : α → Reader β) : (r >>= next) bytes = (.error fault, rest) := by
  change Reader.bind r next bytes = _
  rw [Reader.bind, h]

/-- What was read first is handed to the next reader. -/
theorem bind_of_ok {a : α} {rest : Bytes} (h : r bytes = (.ok a, rest)) (next : α → Reader β) :
    (r >>= next) bytes = next a rest := by
  change Reader.bind r next bytes = _
  rw [Reader.bind, h]

/-- Values one after another, each in the form that it is read from. -/
theorem reads_repeated {encode : α → Bytes} (l : List α) (h : ∀ a ∈ l, r.Reads (encode a) a) :
    Reads (repeated r l.length) (l.flatMap encode) l := by
  have honto : ∀ done : List α, Reads (repeatedOnto r l.length done) (l.flatMap encode)
      (done.reverse ++ l) := by
    induction l with
    | nil => intro done rest; simp [repeatedOnto]
    | cons a l ih =>
      intro done rest
      have ha := h a List.mem_cons_self (l.flatMap encode ++ rest)
      rw [List.flatMap_cons, List.append_assoc, List.length_cons, repeatedOnto]
      simp only [ha]
      rw [ih (fun b hb => h b (List.mem_cons_of_mem a hb)) (a :: done) rest]
      simp
  exact honto []

/-- Texts that fit their length are read as they were written. -/
theorem reads_text {s : String} (h : (Text.toBytes s).length ≤ 65535) :
    Reads text (Encode.text s).bytes s := by
  have hcapacity : BigEndian.capacity 2 = 65536 := rfl
  have hlength : Reads u16 (BigEndian.ofNat 2 (Text.toBytes s).length)
      (UInt16.ofNat (Text.toBytes s).length) :=
    (reads_number 2 (by omega)).map UInt16.ofNat
  have hnat : (UInt16.ofNat (Text.toBytes s).length).toNat = (Text.toBytes s).length := by
    rw [UInt16.toNat_ofNat']
    omega
  rw [Encode.text, if_pos h]
  refine hlength.bind ?_
  rw [hnat]
  refine (reads_take (Text.toBytes s)).bind_nil ?_
  rw [Text.ofBytes_toBytes]
  exact reads_pure s

end Reader

end DataGrid
