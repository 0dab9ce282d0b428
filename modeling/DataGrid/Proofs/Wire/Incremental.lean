import DataGrid.Proofs.Wire.Reads

/-!
# Incremental — octets that end too early

A reader takes its octets from the front, so what stands behind them can matter in one way: there
may be too few. An incremental reader (`Reader.Incremental`) either finds that octets end too
early, or makes of them what it makes of them with anything behind. Taking octets is incremental
and so are readers in sequence, which covers every reader that does not ask how much is left. For
such a reader nothing short of a written value passes for a value, and the fault is always that
the octets are cut short (`Reader.Incremental.cutShort`).
-/

namespace DataGrid

namespace Reader

variable {α β : Type} {r : Reader α} {bytes front : Bytes}

/-- Whether a reader finds that octets end too early. -/
def CutShort (r : Reader α) (bytes : Bytes) : Prop :=
  ∃ needed remaining rest, remaining < needed
    ∧ r bytes = (.error (.truncated needed remaining), rest)

/-- **Whether more octets behind change nothing**, unless they were too few. -/
def Incremental (r : Reader α) : Prop :=
  ∀ bytes more, r.CutShort bytes ∨ r (bytes ++ more) = ((r bytes).1, (r bytes).2 ++ more)

/-- Whether a reader takes just these octets, whatever follows them, for a value or up to a
fault. -/
def Consumes (r : Reader α) (bytes : Bytes) (result : Except Fault α) : Prop :=
  ∀ rest, r (bytes ++ rest) = (result, rest)

/-- **Whether a reader needs all of some octets**: whatever is less is cut short. -/
def Needs (r : Reader α) (bytes : Bytes) : Prop :=
  ∀ front, front <+: bytes → front ≠ bytes → r.CutShort front

/-- **What an incremental reader consumes it needs**, though it be up to a fault. -/
theorem Incremental.needs {result : Except Fault α} (h : r.Incremental)
    (hconsumes : r.Consumes bytes result) : r.Needs bytes := by
  rintro front ⟨back, rfl⟩ hne
  -- Otherwise what follows would be left over, and nothing is.
  refine (h front back).resolve_right fun heq => hne ?_
  have hall := hconsumes []
  rw [List.append_nil, heq, Prod.mk.injEq] at hall
  rw [(List.append_eq_nil_iff.1 hall.2).2, List.append_nil]

/-- **Less than what was written is cut short.** -/
theorem Incremental.cutShort {a : α} (h : r.Incremental) (hreads : r.Reads bytes a)
    (hfront : front <+: bytes) (hne : front ≠ bytes) : r.CutShort front :=
  h.needs hreads front hfront hne

/-! ## Composition -/

theorem incremental_pure (a : α) : Incremental (pure a) := fun _ _ => .inr rfl

theorem incremental_fail (fault : Fault) : Incremental (fail fault : Reader α) :=
  fun _ _ => .inr rfl

theorem CutShort.bind (h : r.CutShort bytes) (next : α → Reader β) :
    CutShort (r >>= next) bytes := by
  obtain ⟨needed, remaining, rest, hlt, hr⟩ := h
  exact ⟨needed, remaining, rest, hlt, bind_of_error hr next⟩

theorem Needs.then (h : r.Needs bytes) (next : α → Reader β) : (r >>= next).Needs bytes :=
  fun front hfront hne => (h front hfront hne).bind next

/-- Readers in sequence need what each of them needs. -/
theorem Needs.bind {next : α → Reader β} {bytes' : Bytes} {a : α} (h : r.Needs bytes)
    (hreads : r.Reads bytes a) (hnext : (next a).Needs bytes') :
    (r >>= next).Needs (bytes ++ bytes') := by
  -- What ends just behind the first octets is short of the second ones.
  have hbehind : ∀ front, front <+: bytes' → front ≠ bytes' →
      (r >>= next).CutShort (bytes ++ front) := by
    intro front hfront hne
    obtain ⟨needed, remaining, rest, hlt, hcut⟩ := hnext front hfront hne
    exact ⟨needed, remaining, rest, hlt, (hreads.bind_apply next front).trans hcut⟩
  rintro front ⟨back, heq⟩ hne
  rcases List.append_eq_append_iff.1 heq with ⟨middle, rfl, rfl⟩ | ⟨front, rfl, rfl⟩
  · rcases middle with _ | ⟨octet, middle⟩
    · have hcut := hbehind [] List.nil_prefix fun hnil => hne (by simp [← hnil])
      rwa [List.append_nil, List.append_nil] at hcut
    · exact (h front (List.prefix_append _ _) fun hself => by simp at hself).bind next
  · exact hbehind front (List.prefix_append _ _) fun hself => hne (by rw [← hself])

theorem Incremental.bind {next : α → Reader β} (h : r.Incremental)
    (hnext : ∀ a, (next a).Incremental) : Incremental (r >>= next) := by
  intro bytes more
  rcases h bytes more with hcut | hmore
  · exact .inl (hcut.bind next)
  · rcases hr : r bytes with ⟨fault | a, left⟩
    · rw [hr] at hmore
      right
      rw [bind_of_error hr, bind_of_error hmore]
    · rw [hr] at hmore
      rw [bind_of_ok hmore, bind_of_ok hr]
      rcases hnext a left more with ⟨needed, remaining, rest, hlt, hcut⟩ | heq
      · exact .inl ⟨needed, remaining, rest, hlt, (bind_of_ok hr next).trans hcut⟩
      · exact .inr heq

/-- A reader whose value is changed. -/
theorem Incremental.map (h : r.Incremental) (f : α → β) :
    Incremental (do return f (← r)) :=
  h.bind fun a => incremental_pure (f a)

theorem incremental_ofExcept (result : Except Fault α) : Incremental (ofExcept result) := by
  cases result with
  | ok a => exact incremental_pure a
  | error fault => exact incremental_fail fault

/-! ## Octets and numbers -/

theorem incremental_take (n : Nat) : Incremental (take n) := by
  intro bytes more
  by_cases hshort : bytes.length < n
  · left
    refine ⟨n, bytes.length, bytes, hshort, ?_⟩
    rw [take, if_pos]
    exact Nat.lt_of_le_of_lt (List.length_take_le' n bytes) hshort
  · have hle : n ≤ bytes.length := Nat.not_lt.1 hshort
    right
    simp [take, List.length_take, Nat.min_eq_left hle, List.take_append_of_le_length hle,
      List.drop_append_of_le_length hle]

theorem incremental_number (width : Nat) : Incremental (number width) :=
  (incremental_take width).map BigEndian.toNat

theorem incremental_u8 : Incremental u8 := (incremental_number 1).map UInt8.ofNat

theorem incremental_i8 : Incremental i8 :=
  (incremental_number 1).map fun n => (UInt8.ofNat n).toInt8

theorem incremental_u16 : Incremental u16 := (incremental_number 2).map UInt16.ofNat

theorem incremental_i16 : Incremental i16 :=
  (incremental_number 2).map fun n => (UInt16.ofNat n).toInt16

theorem incremental_i32 : Incremental i32 :=
  (incremental_number 4).map fun n => (UInt32.ofNat n).toInt32

theorem incremental_u64 : Incremental u64 := (incremental_number 8).map UInt64.ofNat

theorem incremental_i64 : Incremental i64 :=
  (incremental_number 8).map fun n => (UInt64.ofNat n).toInt64

theorem incremental_bool : Incremental bool := incremental_u8.map fun octet => decide (octet ≠ 0)

/-! ## Arrays and texts -/

theorem incremental_count : Incremental count := by
  refine incremental_i32.bind fun n => ?_
  split
  · exact incremental_fail _
  · exact incremental_pure _

theorem incremental_arrayLength : Incremental arrayLength := by
  refine incremental_u8.bind fun mark => ?_
  split
  · exact incremental_pure _
  split
  · exact incremental_u16.map fun length => some length.toNat
  split
  · exact incremental_count.map some
  · exact incremental_pure _

theorem incremental_optionalBytes : Incremental optionalBytes := by
  refine incremental_arrayLength.bind fun length => ?_
  cases length with
  | none => exact incremental_pure _
  | some length => exact (incremental_take length).map some

theorem incremental_bytes : Incremental Reader.bytes := by
  refine incremental_optionalBytes.bind fun octets => ?_
  cases octets with
  | none => exact incremental_fail _
  | some octets => exact incremental_pure _

theorem incremental_text : Incremental text := by
  refine incremental_u16.bind fun length => (incremental_take _).bind fun octets => ?_
  split
  · exact incremental_pure _
  · exact incremental_fail _

end Reader

end DataGrid
