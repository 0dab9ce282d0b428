import DataGrid.Proofs.Wire.Reads

/-!
# Canonical — what is read is what was written

The other direction of `Reader.Reads`: where a reader takes a value from octets only if they begin
with the written form of the value, the reader is canonical (`Reader.Canonical`). Octets of fixed
length and texts are; so what they name can be written again, octet by octet. And since a reader
is a function, forms that are read are told apart by it: no form is the beginning of another one
(`Reader.Reads.append_inj`).
-/

namespace DataGrid

namespace Reader

variable {α β : Type} {r : Reader α} {bytes bytes' rest rest' : Bytes}

/-- Whether a reader takes a value from its written form alone. -/
def Canonical (r : Reader α) (written : α → Bytes) : Prop :=
  ∀ bytes a rest, r bytes = (.ok a, rest) → bytes = written a ++ rest

/-! ## Composition -/

/-- **No form of a value is the beginning of another one.** -/
theorem Reads.append_inj {a b : α} (h : r.Reads bytes a) (h' : r.Reads bytes' b)
    (heq : bytes ++ rest = bytes' ++ rest') : a = b ∧ rest = rest' := by
  have hread := h rest
  rw [heq, h' rest', Prod.mk.injEq, Except.ok.injEq] at hread
  exact ⟨hread.1.symm, hread.2.symm⟩

theorem bind_assoc {γ : Type} (r : Reader α) (next : α → Reader β) (last : β → Reader γ) :
    r >>= next >>= last = r >>= fun a => next a >>= last := by
  funext bytes
  change Reader.bind (Reader.bind r next) last bytes
    = Reader.bind r (fun a => Reader.bind (next a) last) bytes
  rw [Reader.bind, Reader.bind, Reader.bind]
  rcases r bytes with ⟨_ | a, left⟩ <;> rfl

theorem eq_of_pure {a b : α} (h : (pure a : Reader α) bytes = (.ok b, rest)) :
    a = b ∧ bytes = rest := by
  rw [show (pure a : Reader α) bytes = (.ok a, bytes) from rfl, Prod.mk.injEq,
    Except.ok.injEq] at h
  exact h

theorem ofExcept_eq_ok {result : Except Fault α} {a : α}
    (h : ofExcept result bytes = (.ok a, rest)) : result = .ok a ∧ bytes = rest := by
  cases result with
  | error fault => cases h
  | ok b =>
    obtain ⟨rfl, rfl⟩ := eq_of_pure h
    exact ⟨rfl, rfl⟩

/-! ## Octets and numbers -/

theorem take_eq_ok {n : Nat} {front : Bytes} (h : take n bytes = (.ok front, rest)) :
    bytes = front ++ rest ∧ front.length = n := by
  simp only [take] at h
  split at h
  · cases h
  · next hlong =>
    obtain ⟨rfl, rfl⟩ : bytes.take n = front ∧ bytes.drop n = rest := by simpa using h
    refine ⟨(List.take_append_drop n bytes).symm, ?_⟩
    have hle := List.length_take_le n bytes
    omega

/-- The number of octets that were read is written as these octets. -/
theorem number_eq_ok {width n : Nat} (h : number width bytes = (.ok n, rest)) :
    bytes = BigEndian.ofNat width n ++ rest ∧ n < BigEndian.capacity width := by
  obtain ⟨front, left, htake, hpure⟩ := exists_of_bind h
  obtain ⟨rfl, rfl⟩ := eq_of_pure hpure
  obtain ⟨rfl, rfl⟩ := take_eq_ok htake
  exact ⟨by rw [BigEndian.ofNat_toNat], BigEndian.toNat_lt front⟩

/-- A number is read from its written form alone, if it is found again in what it is made to. -/
theorem canonical_of_number (width : Nat) {ofNat : Nat → α} {toNat : α → Nat}
    (h : ∀ n < BigEndian.capacity width, toNat (ofNat n) = n) :
    Canonical (do return ofNat (← number width)) fun a => BigEndian.ofNat width (toNat a) := by
  intro bytes a rest hread
  obtain ⟨n, left, hnumber, hpure⟩ := exists_of_bind hread
  obtain ⟨rfl, rfl⟩ := eq_of_pure hpure
  obtain ⟨rfl, hlt⟩ := number_eq_ok hnumber
  simp only [h n hlt]

theorem canonical_u8 : Canonical u8 Encode.u8 :=
  canonical_of_number 1 fun _ h => UInt8.toNat_ofNat_of_lt' h

theorem canonical_u16 : Canonical u16 Encode.u16 :=
  canonical_of_number 2 fun _ h => UInt16.toNat_ofNat_of_lt' h

theorem canonical_i32 : Canonical i32 Encode.i32 :=
  canonical_of_number 4 fun n h => by
    rw [UInt32.toUInt32_toInt32, UInt32.toNat_ofNat_of_lt' h]

theorem canonical_u64 : Canonical u64 Encode.u64 :=
  canonical_of_number 8 fun _ h => UInt64.toNat_ofNat_of_lt' h

theorem canonical_i64 : Canonical i64 Encode.i64 :=
  canonical_of_number 8 fun n h => by
    rw [UInt64.toUInt64_toInt64, UInt64.toNat_ofNat_of_lt' h]

/-! ## Texts -/

/-- A text that was read fits its length, and is written as it was read. -/
theorem text_eq_ok {s : String} (h : text bytes = (.ok s, rest)) :
    bytes = (Encode.text s).bytes ++ rest ∧ (Text.toBytes s).length ≤ 65535 := by
  obtain ⟨length, left, hlength, hnext⟩ := exists_of_bind h
  obtain ⟨octets, left', htake, hlast⟩ := exists_of_bind hnext
  obtain rfl := canonical_u16 _ _ _ hlength
  obtain ⟨rfl, hoctets⟩ := take_eq_ok htake
  have hle : length.toNat ≤ 65535 := Nat.le_of_lt_succ length.toNat_lt
  rcases hs : Text.ofBytes octets with why | s'
  · rw [hs] at hlast
    cases hlast
  · rw [hs] at hlast
    obtain ⟨rfl, rfl⟩ := eq_of_pure hlast
    obtain rfl := Text.toBytes_of_ofBytes hs
    rw [Encode.text, if_pos (by omega), hoctets, Draft.ofBytes, List.append_assoc]
    exact ⟨rfl, by omega⟩

end Reader

end DataGrid
