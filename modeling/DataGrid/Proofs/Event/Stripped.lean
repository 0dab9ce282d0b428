import DataGrid.Proofs.Event.Padding
import Mathlib.Data.List.DropRight
import Mathlib.Logic.Relation

/-!
# Stripped — ids without their blocks of padding

Any octets are so many blocks of padding behind something that does not end in a block
(`MembershipId.StripsTo`), and that can be done in one way only: stripping finds it
(`MembershipId.stripsTo_iff`). What an id names besides the blocks may end in zeros as well, so
where the blocks begin is found from the end.

Naming one member bridges one block at a time. Ids that are linked by a chain of such bridges are
the ones that are the same when they are stripped (`MembershipId.strip_eq_strip_iff`), which is why
the hash is taken of the stripped id (`MembershipId.strip_exact`).
-/

namespace DataGrid

namespace MembershipId

variable {a b s : Bytes}

/-- Blocks of padding, one behind another. -/
def blocks (k : Nat) : Bytes := (List.replicate k padding).flatten

/-- **Whether an id is so many blocks of padding behind octets that end in none.** -/
structure StripsTo (a s : Bytes) : Prop where
  exists_blocks : ∃ k, a = s ++ blocks k
  bare : ¬padding <:+ s

/-- Whether two ids are linked by ids of which each names one member with the next. -/
def Linked : Bytes → Bytes → Prop := Relation.ReflTransGen fun x y => same x y

/-! ## Blocks -/

@[simp] theorem blocks_zero : blocks 0 = [] := rfl

theorem append_blocks_succ (s : Bytes) (k : Nat) :
    s ++ blocks (k + 1) = s ++ blocks k ++ padding := by
  rw [blocks, blocks, List.replicate_succ', List.flatten_append, List.flatten_singleton,
    List.append_assoc]

theorem strip_append_blocks (s : Bytes) (k : Nat) : strip (s ++ blocks k) = strip s := by
  induction k with
  | zero => rw [blocks_zero, List.append_nil]
  | succ k ih => rw [append_blocks_succ, strip_append_padding, ih]

/-- Octets end in the zeros that were counted. -/
theorem zeros_suffix (a : Bytes) : List.replicate (trailingZeros a) 0 <:+ a := by
  have hzeros : a.rtakeWhile (· == 0) = List.replicate (trailingZeros a) 0 := by
    refine List.eq_replicate_iff.2 ⟨List.length_reverse, fun octet hoctet => ?_⟩
    have hzero := List.mem_rtakeWhile_imp hoctet
    exact beq_iff_eq.1 hzero
  rw [← hzeros]
  exact List.rtakeWhile_suffix _ a

/-- **Octets that end in no block are left as they are.** -/
theorem strip_of_bare (h : ¬padding <:+ s) : strip s = s := by
  have hfew : trailingZeros s < blockLength := by
    -- Zeros enough for a block end in one, wherever what they pad begins.
    by_contra hmany
    refine h (List.IsSuffix.trans ?_ (zeros_suffix s))
    rw [padding, ← Nat.sub_add_cancel (Nat.not_lt.1 hmany), List.replicate_add]
    exact List.suffix_append _ _
  rw [strip, Nat.div_eq_of_lt hfew, Nat.mul_zero, Nat.sub_zero, List.take_length]

/-- Taking the blocks off ends: a block is seventeen octets. -/
theorem exists_stripsTo (a : Bytes) : ∃ s, StripsTo a s := by
  induction h : a.length using Nat.strong_induction_on generalizing a with
  | _ n ih =>
    by_cases hbare : padding <:+ a
    · obtain ⟨front, rfl⟩ := hbare
      have hlt : front.length < n := by
        rw [← h, length_append_padding, blockLength]
        omega
      obtain ⟨s, ⟨k, rfl⟩, hs⟩ := ih _ hlt front rfl
      exact ⟨s, ⟨k + 1, (append_blocks_succ s k).symm⟩, hs⟩
    · exact ⟨a, ⟨0, (List.append_nil a).symm⟩, hbare⟩

theorem StripsTo.eq_strip (h : StripsTo a s) : s = strip a := by
  obtain ⟨⟨k, rfl⟩, hbare⟩ := h
  rw [strip_append_blocks, strip_of_bare hbare]

/-- **Stripping takes off all blocks that an id ends in**, and nothing else. -/
theorem stripsTo_strip (a : Bytes) : StripsTo a (strip a) := by
  obtain ⟨s, hs⟩ := exists_stripsTo a
  rwa [← hs.eq_strip]

theorem stripsTo_iff : StripsTo a s ↔ s = strip a :=
  ⟨StripsTo.eq_strip, fun h => h ▸ stripsTo_strip a⟩

theorem strip_strip (a : Bytes) : strip (strip a) = strip a := strip_of_bare (stripsTo_strip a).bare

/-! ## Links -/

theorem Linked.symm (h : Linked a b) : Linked b a := by
  have hsymm : Std.Symm fun x y : Bytes => (same x y : Prop) :=
    ⟨fun x y hxy => (same_comm x y).symm.trans hxy⟩
  exact Relation.ReflTransGen.stdSymm.symm a b h

theorem linked_append_blocks (s : Bytes) (k : Nat) : Linked s (s ++ blocks k) := by
  induction k with
  | zero =>
    rw [blocks_zero, List.append_nil]
    exact .refl
  | succ k ih =>
    rw [append_blocks_succ]
    exact ih.tail (same_iff.2 (.inr (.inr rfl)))

theorem linked_strip (a : Bytes) : Linked (strip a) a := by
  obtain ⟨k, hk⟩ := (stripsTo_strip a).exists_blocks
  have h := linked_append_blocks (strip a) k
  rwa [← hk] at h

/-- **Ids are the same when they are stripped just if they are linked.** -/
theorem strip_eq_strip_iff : strip a = strip b ↔ Linked a b := by
  constructor
  · intro h
    have hb := linked_strip b
    rw [← h] at hb
    exact (linked_strip a).symm.trans hb
  · intro h
    induction h with
    | refl => rfl
    | tail _ hsame ih => exact ih.trans (strip_eq_of_same hsame)

/-- **What stripping finds, and that hashes agree with it.** Ids that name one member have one hash,
and so do event ids that are equal. What stripping leaves of any octets is the one thing that they
are so many blocks of padding behind, and that ends in no block itself; stripping it once more
changes nothing. And two ids are the same when they are stripped just if they are linked by ids of
which each names one member with the next. -/
theorem strip_exact :
    (∀ a b : Bytes, same a b → hash a = hash b)
    ∧ (∀ x y : EventId, x.same y → x.hash = y.hash)
    ∧ ∀ a : Bytes, (∀ s, StripsTo a s ↔ s = strip a) ∧ strip (strip a) = strip a
      ∧ ∀ b, strip a = strip b ↔ Linked a b :=
  ⟨fun _ _ => hash_eq_of_same, fun _ _ => EventId.hash_eq_of_same,
    fun a => ⟨fun _ => stripsTo_iff, strip_strip a, fun _ => strip_eq_strip_iff⟩⟩

/-- An id that ends in zeros of its own, with one block of padding and with two: each names one
member with the next, and the first does not with the last. -/
theorem strip_exact_two_blocks :
    let id : Bytes := [1, 0, 0, 0, 0, 0]
    let x : EventId := { membership := id, thread := 1, sequence := 5 }
    let y : EventId := { membership := id ++ padding, thread := 1, sequence := 5 }
    same id (id ++ padding) ∧ hash id = hash (id ++ padding) ∧ x.same y ∧ x.hash = y.hash
      ∧ StripsTo (id ++ blocks 2) id ∧ Linked id (id ++ blocks 2) ∧ ¬same id (id ++ blocks 2) := by
  intro id x y
  obtain ⟨hhash, hevent, hstrip⟩ := strip_exact
  have hone : same id (id ++ padding) := by decide
  have htwo : id = strip (id ++ blocks 2) := by decide
  have hself : strip id = strip (id ++ blocks 2) := by decide
  have hevents : x.same y := by decide
  exact ⟨hone, hhash _ _ hone, hevents, hevent _ _ hevents, ((hstrip _).1 _).2 htwo,
    ((hstrip _).2.2 _).1 hself, by decide⟩

end MembershipId

end DataGrid
