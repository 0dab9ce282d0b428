import DataGrid.Proofs.Event.Wire
import DataGrid.Proofs.Wire.Incremental
import Mathlib.Algebra.Order.Ring.Int
import Mathlib.Order.Bounds.Basic

/-!
# Widths — compact numbers take as little room as they can

A number has one form for each width that holds it, and is read from these forms alone
(`Compact.read_eq_ok_iff`). What is written is the shortest of them: its width is the least one
that holds the number (`Width.isLeast_size_of`). The tag in front says how much follows, so numbers
of mixed widths stand one behind another and each is read up to its end, neither from less nor
with more (`Compact.written_exact`).
-/

namespace DataGrid

open Reader

namespace Width

variable {w : Width} {v : Int64} {size : Nat} {bytes rest : Bytes}

/-- **Whether a signed number fits so many octets**, out of the counts that a number can take. -/
structure Fits (size : Nat) (v : Int64) : Prop where
  mem : size ∈ [1, 2, 4, 8]
  ge : -(2 : Int) ^ (8 * size - 1) ≤ v.toInt
  lt : v.toInt < (2 : Int) ^ (8 * size - 1)

/-! ## The least width -/

theorem exists_size_eq (h : size ∈ [1, 2, 4, 8]) : ∃ w : Width, w.size = size := by
  simp only [List.mem_cons, List.not_mem_nil, or_false] at h
  rcases h with rfl | rfl | rfl | rfl
  exacts [⟨byte, rfl⟩, ⟨short, rfl⟩, ⟨int, rfl⟩, ⟨long, rfl⟩]

theorem fits_size_iff : Fits w.size v ↔ w.Holds v := by
  have hmem : w.size ∈ [1, 2, 4, 8] := by cases w <;> decide
  have hcapacity : (BigEndian.capacity w.size : Int) = 2 * 2 ^ (8 * w.size - 1) := by
    cases w <;> rfl
  constructor
  · rintro ⟨-, hge, hlt⟩
    exact ⟨by omega, by omega⟩
  · rintro ⟨hge, hlt⟩
    exact ⟨hmem, by omega, by omega⟩

/-- No width below the one that a number is written in holds it. -/
theorem Holds.size_of_le (h : w.Holds v) : (of v).size ≤ w.size := by
  cases w with
  | byte => simp only [of, if_pos (holds_byte_iff.1 h), le_refl]
  | short =>
    simp only [of, if_pos (holds_short_iff.1 h)]
    split <;> decide
  | int =>
    simp only [of, if_pos (holds_int_iff.1 h)]
    split
    · decide
    · split <;> decide
  | long => cases of v <;> decide

/-- **A number is written in the least width that holds it.** -/
theorem isLeast_size_of (v : Int64) : IsLeast {size | Fits size v} (of v).size := by
  refine ⟨fits_size_iff.2 (holds_of v), fun size hfits => ?_⟩
  obtain ⟨w, rfl⟩ := exists_size_eq hfits.mem
  exact (fits_size_iff.1 hfits).size_of_le

/-! ## What is read -/

theorem eq_tag_of_ofTag {tag : UInt8} (h : ofTag tag = .ok w) : tag = w.tag := by
  unfold ofTag at h
  split at h
  · next htag => cases h; exact htag
  split at h
  · next htag => cases h; exact htag
  split at h
  · next htag => cases h; exact htag
  split at h
  · next htag => cases h; exact htag
  · cases h

/-- **What is read in a width is held by it**, and read from its own octets. -/
theorem read_eq_ok (h : w.read bytes = (.ok v, rest)) :
    w.Holds v ∧ bytes = BigEndian.ofNat w.size v.toUInt64.toNat ++ rest := by
  obtain ⟨wrap, hread, hwrap⟩ := w.exists_wrap
  rw [hread] at h
  obtain ⟨n, left, hnumber, hpure⟩ := exists_of_bind h
  obtain ⟨rfl, rfl⟩ := eq_of_pure hpure
  obtain ⟨rfl, hn⟩ := number_eq_ok hnumber
  have hpos := BigEndian.capacity_pos w.size
  have hwrapped := hwrap n
  refine ⟨⟨?_, ?_⟩, ?_⟩
  · have hle := Int.le_bmod (x := n) hpos
    omega
  · have hlt := Int.bmod_lt (x := n) hpos
    omega
  · -- The sign fills the octets in front; the low ones still spell what was read.
    have hmod : (wrap n).toUInt64.toNat % BigEndian.capacity w.size = n := by
      have hemod := toNat_toUInt64_emod w (wrap n)
      rw [hwrapped, Int.bmod_emod, ← Int.natCast_emod, ← Int.natCast_emod,
        Nat.mod_eq_of_lt hn] at hemod
      exact Int.ofNat.inj hemod
    rw [← BigEndian.ofNat_mod w.size (wrap n).toUInt64.toNat, hmod]

theorem incremental_read (w : Width) : w.read.Incremental := by
  cases w with
  | byte => exact incremental_i8.map Int8.toInt64
  | short => exact incremental_i16.map Int16.toInt64
  | int => exact incremental_i32.map Int32.toInt64
  | long => exact incremental_i64

end Width

namespace Compact

variable {v : Int64} {bytes rest : Bytes}

/-- **The forms of a number**: the tag of a width that holds it, and its low octets. -/
theorem read_eq_ok_iff : read bytes = (.ok v, rest) ↔ ∃ w : Width, w.Holds v
    ∧ bytes = w.tag :: BigEndian.ofNat w.size v.toUInt64.toNat ++ rest := by
  constructor
  · intro h
    obtain ⟨tag, left, htag, hnext⟩ := exists_of_bind h
    obtain ⟨w, left', hname, hwidth⟩ := exists_of_bind hnext
    obtain ⟨htagged, rfl⟩ := ofExcept_eq_ok hname
    obtain rfl := Width.eq_tag_of_ofTag htagged
    obtain ⟨hholds, rfl⟩ := Width.read_eq_ok hwidth
    obtain rfl := canonical_u8 _ _ _ htag
    exact ⟨w, hholds, by simp [Encode.u8, BigEndian.ofNat]⟩
  · rintro ⟨w, hholds, rfl⟩
    exact reads_of_holds hholds rest

theorem length_write (v : Int64) : (write v).length = 1 + (Width.of v).size := by
  rw [write, List.length_cons, BigEndian.length_ofNat, Nat.add_comm]

/-- **No form of a number is shorter than the one that is written.** -/
theorem length_write_le_of_read (h : read bytes = (.ok v, rest)) :
    (write v).length + rest.length ≤ bytes.length := by
  obtain ⟨w, hholds, rfl⟩ := read_eq_ok_iff.1 h
  have hle := hholds.size_of_le
  rw [length_write, List.length_append, List.length_cons, BigEndian.length_ofNat]
  omega

theorem incremental_read : read.Incremental :=
  incremental_u8.bind fun _ => (incremental_ofExcept _).bind Width.incremental_read

/-- **Compact numbers take as little room as they can and are read to their ends.** -/
theorem written_exact (values : List Int64) (rest : Bytes) :
    repeated read values.length (values.flatMap write ++ rest) = (.ok values, rest)
      ∧ (∀ v : Int64,
          (∃ size, IsLeast {size | Width.Fits size v} size ∧ (write v).length = 1 + size)
          ∧ (∀ bytes, read bytes = (.ok v, []) → (write v).length ≤ bytes.length)
          ∧ ∀ front, front <+: write v → front ≠ write v → read.CutShort front)
      ∧ ∀ thread sequence : Int64,
          readPair.parse (writePair thread sequence) = .ok (thread, sequence) := by
  refine ⟨reads_repeated values (fun v _ => reads_write v) rest, fun v => ⟨?_, ?_, ?_⟩, ?_⟩
  · exact ⟨(Width.of v).size, Width.isLeast_size_of v, length_write v⟩
  · exact fun bytes h => length_write_le_of_read h
  · exact fun front => incremental_read.cutShort (reads_write v)
  · exact fun thread sequence => (reads_writePair thread sequence).parse

/-- The least number of one octet and the first number of four, with an octet behind. -/
theorem written_exact_two_widths :
    repeated read 2 [0, 0x80, 2, 0, 0, 0x80, 0, 7] = (.ok [-128, 32768], [7])
      ∧ (∃ size, IsLeast {size | Width.Fits size 32768} size ∧ 5 = 1 + size)
      ∧ (write (-128)).length ≤ [1, 0xFF, 0x80].length
      ∧ read.CutShort [2, 0, 0, 0x80] := by
  obtain ⟨hrepeated, hnumbers, -⟩ := written_exact [-128, 32768] [7]
  obtain ⟨-, hshortest, -⟩ := hnumbers (-128)
  obtain ⟨hleast, -, hcut⟩ := hnumbers 32768
  exact ⟨hrepeated, hleast, hshortest [1, 0xFF, 0x80] (by decide),
    hcut [2, 0, 0, 0x80] (by decide) (by decide)⟩

end Compact

end DataGrid
