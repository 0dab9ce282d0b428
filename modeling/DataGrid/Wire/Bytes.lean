/-!
# Bytes — strings of octets and big-endian numbers

Everything that crosses the wire is a list of octets. A number is written in a fixed count of
them, most significant first: `BigEndian.ofNat` writes, `BigEndian.toNat` reads, and the number
that comes back is the one written, reduced to the width (`toNat_ofNat`). Reading loses nothing
either: any octets are the writing of the number they spell (`ofNat_toNat`).
-/

namespace DataGrid

/-- A string of octets. -/
abbrev Bytes := List UInt8

namespace BigEndian

/-- How many numbers a count of octets can spell. -/
def capacity (width : Nat) : Nat := Nat.pow 256 width

/-- The low `width` octets of a number, most significant first. -/
def ofNat : (width : Nat) → Nat → Bytes
  | 0, _ => []
  | width + 1, n => UInt8.ofNat (n / capacity width) :: ofNat width n

/-- The number that octets spell, most significant first. -/
def toNat (bytes : Bytes) : Nat :=
  bytes.foldl (fun n byte => n * 256 + byte.toNat) 0

@[simp] theorem capacity_zero : capacity 0 = 1 := rfl

theorem capacity_succ (width : Nat) : capacity (width + 1) = 256 * capacity width :=
  Nat.mul_comm (capacity width) 256

theorem capacity_pos (width : Nat) : 0 < capacity width := by
  induction width with
  | zero => decide
  | succ width ih => rw [capacity_succ]; omega

@[simp] theorem length_ofNat (width n : Nat) : (ofNat width n).length = width := by
  induction width with
  | zero => rfl
  | succ width ih => simp [ofNat, ih]

theorem foldl_eq (bytes : Bytes) (start : Nat) :
    bytes.foldl (fun n byte => n * 256 + byte.toNat) start
      = start * capacity bytes.length + toNat bytes := by
  induction bytes generalizing start with
  | nil => simp [toNat]
  | cons byte rest ih =>
    have h := ih byte.toNat
    simp only [toNat, List.foldl_cons, List.length_cons, Nat.zero_mul, Nat.zero_add] at h ⊢
    rw [ih, h, capacity_succ, Nat.add_mul, Nat.mul_assoc, Nat.add_assoc]
    rfl

theorem toNat_cons (byte : UInt8) (rest : Bytes) :
    toNat (byte :: rest) = byte.toNat * capacity rest.length + toNat rest := by
  have h := foldl_eq rest byte.toNat
  simpa [toNat] using h

/-- **Octets spell a number below the first that does not fit.** -/
theorem toNat_lt (bytes : Bytes) : toNat bytes < capacity bytes.length := by
  induction bytes with
  | nil => simp [toNat]
  | cons byte rest ih =>
    rw [toNat_cons, List.length_cons, capacity_succ]
    have h : byte.toNat ≤ 255 := Nat.le_of_lt_succ byte.toNat_lt
    calc byte.toNat * capacity rest.length + toNat rest
        < 255 * capacity rest.length + capacity rest.length :=
          Nat.add_lt_add_of_le_of_lt (Nat.mul_le_mul_right _ h) ih
      _ = 256 * capacity rest.length := by omega

/-- **What was written reads back**, up to the width it was written in. -/
theorem toNat_ofNat (width n : Nat) : toNat (ofNat width n) = n % capacity width := by
  induction width with
  | zero => simp [ofNat, toNat, Nat.mod_one]
  | succ width ih =>
    rw [ofNat, toNat_cons, ih, length_ofNat, capacity_succ, Nat.mul_comm 256]
    have h : (UInt8.ofNat (n / capacity width)).toNat = n / capacity width % 256 := by simp
    rw [h, Nat.mod_mul, Nat.mul_comm, Nat.add_comm]

/-- A number that fits its width reads back unchanged. -/
theorem toNat_ofNat_of_lt {width n : Nat} (h : n < capacity width) :
    toNat (ofNat width n) = n := by
  rw [toNat_ofNat, Nat.mod_eq_of_lt h]

/-- The octets of a number depend on its low part alone. -/
theorem ofNat_add_mul (width n k : Nat) :
    ofNat width (n + k * capacity width) = ofNat width n := by
  induction width generalizing k with
  | zero => rfl
  | succ width ih =>
    have hk : k * capacity (width + 1) = k * 256 * capacity width := by
      rw [capacity_succ, Nat.mul_assoc]
    rw [hk, ofNat, ofNat, ih]
    congr 1
    rw [Nat.add_mul_div_right _ _ (capacity_pos width)]
    apply UInt8.toNat.inj
    simp [Nat.mul_comm k 256]

theorem ofNat_mod (width n : Nat) : ofNat width (n % capacity width) = ofNat width n := by
  have h := ofNat_add_mul width (n % capacity width) (n / capacity width)
  rw [Nat.mul_comm, Nat.mod_add_div] at h
  exact h.symm

/-- **Every string of octets is the writing of the number it spells.** -/
theorem ofNat_toNat (bytes : Bytes) : ofNat bytes.length (toNat bytes) = bytes := by
  induction bytes with
  | nil => rfl
  | cons byte rest ih =>
    have hlt := toNat_lt rest
    rw [List.length_cons, ofNat, toNat_cons, Nat.add_comm, ofNat_add_mul, ih,
      Nat.add_mul_div_right _ _ (capacity_pos rest.length), Nat.div_eq_of_lt hlt]
    simp

end BigEndian

end DataGrid
