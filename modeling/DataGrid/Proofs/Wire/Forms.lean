import DataGrid.Proofs.Wire.Canonical

/-!
# Forms — exactly which octets a reader takes

Where a value may be written in more than one way, what a reader takes is told by a form, a
relation of octets and the values that they spell. A reader accepts a form (`Reader.Accepts`) if
it reads a value just when the octets begin with a spelling of it. Arrays have three spellings of
their length (`Reader.LengthForm`), all of them accepted whatever the length is. Lists are a count
and so many spellings one after another (`Reader.CountedForm`).
-/

namespace DataGrid

namespace Reader

variable {α β : Type} {r : Reader α} {form : Bytes → α → Prop} {bytes body rest : Bytes} {a : α}

/-- **Whether a reader takes exactly the octets of a form**, for the values that they spell. -/
def Accepts (r : Reader α) (form : Bytes → α → Prop) : Prop :=
  ∀ bytes a rest, r bytes = (.ok a, rest) ↔ ∃ front, bytes = front ++ rest ∧ form front a

theorem Accepts.intro (hreads : ∀ front a, form front a → r.Reads front a)
    (hsound : ∀ bytes a rest, r bytes = (.ok a, rest) →
      ∃ front, bytes = front ++ rest ∧ form front a) : r.Accepts form := by
  refine fun bytes a rest => ⟨hsound bytes a rest, ?_⟩
  rintro ⟨front, rfl, hform⟩
  exact hreads front a hform rest

theorem Accepts.reads (h : r.Accepts form) (hform : form bytes a) : r.Reads bytes a :=
  fun rest => (h (bytes ++ rest) a rest).2 ⟨bytes, rfl, hform⟩

theorem Accepts.exists_front (h : r.Accepts form) (hr : r bytes = (.ok a, rest)) :
    ∃ front, bytes = front ++ rest ∧ form front a := (h bytes a rest).1 hr

/-- What is made of a value is spelled as the value is. -/
theorem Accepts.map (h : r.Accepts form) (f : α → β) :
    Accepts (do return f (← r)) fun bytes b => ∃ a, f a = b ∧ form bytes a := by
  refine Accepts.intro ?_ fun bytes b rest hr => ?_
  · rintro front _ ⟨a, rfl, hform⟩
    exact (h.reads hform).map f
  · obtain ⟨a, left, ha, hlast⟩ := exists_of_bind hr
    obtain ⟨rfl, rfl⟩ := eq_of_pure hlast
    obtain ⟨front, rfl, hform⟩ := h.exists_front ha
    exact ⟨front, rfl, a, rfl, hform⟩

/-! ## Lengths and arrays -/

/-- A count that was read is written in the octets it was read from. -/
theorem count_eq_ok {n : Nat} (h : count bytes = (.ok n, rest)) :
    bytes = Encode.count n ++ rest ∧ n < 2147483648 := by
  obtain ⟨v, left, hread, hcheck⟩ := exists_of_bind h
  obtain rfl := canonical_i32 _ _ _ hread
  split at hcheck
  · cases hcheck
  · next hneg =>
    obtain ⟨rfl, rfl⟩ := eq_of_pure hcheck
    have hcond : v.toInt = if 2 * v.toUInt32.toNat < 4294967296 then (v.toUInt32.toNat : Int)
        else (v.toUInt32.toNat : Int) - 4294967296 := BitVec.toInt_eq_toNat_cond v.toBitVec
    have hzero : (0 : Int32).toInt = 0 := rfl
    rw [Int32.lt_iff_toInt_lt, hzero] at hneg
    have hlt := v.toUInt32.toNat_lt
    have hnat : v.toNatClampNeg = v.toUInt32.toNat := by
      rw [Int32.toNatClampNeg]
      split at hcond <;> omega
    rw [hnat, Encode.count, Encode.i32]
    refine ⟨rfl, ?_⟩
    split at hcond <;> omega

/-- **A length is read from its forms alone.** -/
theorem arrayLength_eq_ok {n : Nat} (h : arrayLength bytes = (.ok (some n), rest)) :
    ∃ front, bytes = front ++ rest ∧ LengthForm front n := by
  obtain ⟨mark, left, hmark, hnext⟩ := exists_of_bind h
  obtain rfl := canonical_u8 _ _ _ hmark
  have hoctet : Encode.u8 mark = [mark] := by simp [Encode.u8, BigEndian.ofNat]
  rw [hoctet]
  split at hnext
  · obtain ⟨hnone, -⟩ := eq_of_pure hnext
    cases hnone
  next hnull =>
  split at hnext
  · next hshort =>
    obtain ⟨length, left', hlength, hlast⟩ := exists_of_bind hnext
    obtain ⟨hsome, rfl⟩ := eq_of_pure hlast
    obtain rfl := canonical_u16 _ _ _ hlength
    obtain rfl := Option.some.inj hsome
    subst hshort
    exact ⟨0xFE :: Encode.u16 length, rfl, .short (Nat.le_of_lt_succ length.toNat_lt)⟩
  next hshort =>
  split at hnext
  · next hint =>
    obtain ⟨length, left', hlength, hlast⟩ := exists_of_bind hnext
    obtain ⟨hsome, rfl⟩ := eq_of_pure hlast
    obtain ⟨rfl, hlt⟩ := count_eq_ok hlength
    obtain rfl := Option.some.inj hsome
    subst hint
    exact ⟨0xFD :: Encode.count length, rfl, .int hlt⟩
  · next hint =>
    obtain ⟨hsome, rfl⟩ := eq_of_pure hnext
    obtain rfl := Option.some.inj hsome
    have hne : ∀ other : UInt8, mark ≠ other → mark.toNat ≠ other.toNat :=
      fun _ hother heq => hother (UInt8.toNat.inj heq)
    have hle : mark.toNat ≤ 252 := by
      have hlt := mark.toNat_lt
      have h255 : mark.toNat ≠ 255 := hne 0xFF hnull
      have h254 : mark.toNat ≠ 254 := hne 0xFE hshort
      have h253 : mark.toNat ≠ 253 := hne 0xFD hint
      omega
    have hform := LengthForm.byte hle
    rw [UInt8.ofNat_toNat] at hform
    exact ⟨[mark], rfl, hform⟩

/-- Which octets spell an array that is not null. -/
def ArrayForm (bytes octets : Bytes) : Prop :=
  ∃ length, bytes = length ++ octets ∧ LengthForm length octets.length

/-- **Arrays are accepted in any of the forms of their length**, and not if they are null. -/
theorem accepts_bytes : Reader.bytes.Accepts ArrayForm := by
  refine Accepts.intro ?_ fun bytes octets rest h => ?_
  · rintro front octets ⟨length, rfl, hlength⟩
    exact (hlength.reads.bind ((reads_take octets).map some)).bind_nil (reads_pure _)
  · obtain ⟨optional, left, hoptional, h⟩ := exists_of_bind h
    obtain ⟨length, left', hlength, hoptional⟩ := exists_of_bind hoptional
    cases length with
    | none =>
      obtain ⟨rfl, rfl⟩ := eq_of_pure hoptional
      cases h
    | some n =>
      obtain ⟨taken, left'', htake, hoptional⟩ := exists_of_bind hoptional
      obtain ⟨rfl, rfl⟩ := eq_of_pure hoptional
      obtain ⟨rfl, rfl⟩ := eq_of_pure h
      obtain ⟨front, rfl, hform⟩ := arrayLength_eq_ok hlength
      obtain ⟨rfl, rfl⟩ := take_eq_ok htake
      exact ⟨front ++ taken, (List.append_assoc ..).symm, front, rfl, hform⟩

theorem LengthForm.ne_nil {n : Nat} (h : LengthForm bytes n) : bytes ≠ [] := by
  cases h <;> exact List.cons_ne_nil _ _

theorem LengthForm.lt {n : Nat} (h : LengthForm bytes n) : n < 2147483648 := by
  cases h <;> omega

theorem ArrayForm.ne_nil {octets : Bytes} (h : ArrayForm bytes octets) : bytes ≠ [] := by
  obtain ⟨length, rfl, hlength⟩ := h
  exact List.append_ne_nil_of_left_ne_nil hlength.ne_nil octets

/-- **An array that is read to its end is the one that was written**, and its length was not cut
short. -/
theorem bytes_encode_eq_ok {octets octets' : Bytes}
    (h : Reader.bytes (Encode.bytes octets) = (.ok octets', [])) :
    octets' = octets ∧ octets.length < 2147483648 := by
  obtain ⟨front, heq, length, rfl, hlength⟩ := accepts_bytes.exists_front h
  rw [List.append_nil, Encode.bytes] at heq
  by_cases hfits : octets.length < 2147483648
  · have hread := reads_bytes hfits []
    rw [List.append_nil, h] at hread
    exact ⟨Except.ok.inj (Prod.mk.inj hread).1, hfits⟩
  · -- The length is in the longest form, and loses its high part.
    exfalso
    rw [Encode.arrayLength, if_neg (by omega), if_neg (by omega)] at heq
    cases hlength with
    | byte hbyte =>
      have hmark := congrArg UInt8.toNat (List.cons.inj heq).1
      rw [UInt8.toNat_ofNat'] at hmark
      change 253 = _ at hmark
      omega
    | short hshort => exact absurd (List.cons.inj heq).1 (by decide)
    | int hint =>
      have hcounts : (Encode.count octets.length).length
          = (Encode.count octets'.length).length := by
        rw [Encode.count, Encode.count, BigEndian.length_ofNat, BigEndian.length_ofNat]
      obtain ⟨-, hoctets⟩ := List.append_inj (List.cons.inj heq).2 hcounts
      rw [hoctets] at hfits
      exact hfits hint

/-! ## Lists -/

/-- Which octets spell values one after another. -/
inductive ListForm (form : Bytes → α → Prop) : Bytes → List α → Prop where
  | nil : ListForm form [] []
  | cons {front back : Bytes} {a : α} {l : List α} (ha : form front a)
      (hl : ListForm form back l) : ListForm form (front ++ back) (a :: l)

/-- Where no value is spelled by nothing, no list is longer than its octets. -/
theorem ListForm.length_le {l : List α} (hne : ∀ bytes a, form bytes a → bytes ≠ [])
    (h : ListForm form body l) : l.length ≤ body.length := by
  induction h with
  | nil => exact Nat.le_refl 0
  | cons ha hl ih =>
    have hpos := List.length_pos_iff.2 (hne _ _ ha)
    rw [List.length_cons, List.length_append]
    omega

theorem ListForm.reads {l : List α} (hr : r.Accepts form) (h : ListForm form body l) :
    Reads (repeated r l.length) body l := by
  have honto : ∀ done, Reads (repeatedOnto r l.length done) body (done.reverse ++ l) := by
    induction h with
    | nil => intro done rest; simp [repeatedOnto]
    | @cons front back a l ha hl ih =>
      intro done rest
      rw [List.append_assoc, List.length_cons, repeatedOnto]
      simp only [hr.reads ha (back ++ rest)]
      rw [ih (a :: done) rest]
      simp
  exact honto []

theorem repeatedOnto_eq_ok (hr : r.Accepts form) {n : Nat} {done values : List α}
    (h : repeatedOnto r n done bytes = (.ok values, rest)) :
    ∃ l front, values = done.reverse ++ l ∧ l.length = n ∧ bytes = front ++ rest
      ∧ ListForm form front l := by
  induction n generalizing bytes done with
  | zero =>
    obtain ⟨rfl, rfl⟩ : done.reverse = values ∧ bytes = rest := by simpa [repeatedOnto] using h
    exact ⟨[], [], (List.append_nil _).symm, rfl, rfl, .nil⟩
  | succ n ih =>
    rcases ha : r bytes with ⟨fault | a, left⟩ <;> simp only [repeatedOnto, ha] at h
    · cases h
    · obtain ⟨l, back, rfl, rfl, rfl, hl⟩ := ih h
      obtain ⟨front, rfl, hform⟩ := hr.exists_front ha
      exact ⟨a :: l, front ++ back, by simp, rfl, (List.append_assoc ..).symm, .cons hform hl⟩

/-- Which octets spell a list behind its count. -/
def CountedForm (form : Bytes → α → Prop) (bytes : Bytes) (l : List α) : Prop :=
  ∃ body, bytes = Encode.count l.length ++ body ∧ l.length < 2147483648 ∧ ListForm form body l

/-- Where no value is spelled by nothing, no counted list is longer than its octets. -/
theorem CountedForm.length_le {l : List α} (hne : ∀ bytes a, form bytes a → bytes ≠ [])
    (h : CountedForm form bytes l) : l.length ≤ bytes.length := by
  obtain ⟨body, rfl, -, hl⟩ := h
  have hle := hl.length_le hne
  rw [List.length_append]
  omega

/-- **Counted lists are accepted if what they list is**, with exactly the count's many values. -/
theorem Accepts.counted (hr : r.Accepts form) : Accepts (do
    let count ← count
    repeated r count) (CountedForm form) := by
  refine Accepts.intro ?_ fun bytes l rest h => ?_
  · rintro front l ⟨body, rfl, hlt, hl⟩
    exact (reads_count hlt).bind (hl.reads hr)
  · obtain ⟨n, left, hcount, hrepeated⟩ := exists_of_bind h
    obtain ⟨rfl, hlt⟩ := count_eq_ok hcount
    obtain ⟨_, front, rfl, rfl, rfl, hl⟩ := repeatedOnto_eq_ok hr hrepeated
    exact ⟨Encode.count l.length ++ front, (List.append_assoc ..).symm, front, rfl, hlt, hl⟩

end Reader

end DataGrid
