import DataGrid.Event.EventId

/-!
# Padding — what a block of zeros behind an id changes

Two membership ids name one member when they are equal, or when one is the other with one block of
padding (`MembershipId.same_iff`). What both begin with plays no part in that
(`MembershipId.same_append`). The hash is taken after the padding is stripped, so it is the same
for ids that name one member (`MembershipId.hash_eq_of_same`), and then for event ids that are
equal (`EventId.hash_eq_of_same`).
-/

namespace DataGrid

namespace MembershipId

/-- One block of padding. -/
def padding : Bytes := List.replicate blockLength 0

variable {a b : Bytes}

/-! ## One block -/

theorem length_append_padding (a : Bytes) : (a ++ padding).length = a.length + blockLength := by
  rw [List.length_append, padding, List.length_replicate]

theorem isPadding_iff {bytes : Bytes} (h : bytes.length = blockLength) :
    isPadding bytes ↔ bytes = padding := by
  rw [padding, List.eq_replicate_iff, isPadding, List.all_eq_true]
  simp [h]

theorem same_comm (a b : Bytes) : same a b = same b a := by
  rcases Nat.lt_trichotomy a.length b.length with hlt | heq | hgt
  · simp [same, Nat.not_le.2 hlt, Nat.le_of_lt hlt, Nat.ne_of_gt hlt]
  · simp only [same, heq, Nat.le_refl, if_true]
    exact BEq.comm
  · simp [same, Nat.not_le.2 hgt, Nat.le_of_lt hgt, Nat.ne_of_gt hgt]

/-- The longer id is the shorter one, or that with a block of padding. -/
theorem same_iff_of_length_le (h : b.length ≤ a.length) :
    same a b ↔ a = b ∨ a = b ++ padding := by
  have hlength : a = b ++ padding → a.length = b.length + blockLength := fun heq =>
    heq ▸ length_append_padding b
  simp only [same, h, if_true]
  split
  · next heq =>
    have hnot : a ≠ b ++ padding := fun hpad => by simp [hlength hpad, blockLength] at heq
    simp [hnot]
  · next hne =>
    have hnot : a ≠ b := fun heq => hne (congrArg List.length heq)
    split
    · next hblock =>
      have hdrop : (a.drop b.length).length = blockLength := by
        rw [List.length_drop]
        omega
      rw [Bool.and_eq_true, beq_iff_eq, isPadding_iff hdrop]
      constructor
      · rintro ⟨hfront, hback⟩
        rw [← List.take_append_drop b.length a, hfront, hback]
        exact .inr rfl
      · rintro (heq | rfl)
        · exact absurd heq hnot
        · simp
    · next hblock =>
      have hnot' : a ≠ b ++ padding := fun hpad => hblock (hlength hpad)
      simp [hnot, hnot']

/-- **Two ids name one member if they are equal, or one is the other with a block of padding.** -/
theorem same_iff : same a b ↔ a = b ∨ a = b ++ padding ∨ b = a ++ padding := by
  have hlonger : ∀ {c d : Bytes}, c.length ≤ d.length → c ≠ d ++ padding := by
    rintro c d hle rfl
    rw [length_append_padding, blockLength] at hle
    omega
  rcases Nat.le_total b.length a.length with h | h
  · rw [same_iff_of_length_le h, or_iff_left (hlonger h)]
  · rw [same_comm, same_iff_of_length_le h, or_iff_right (hlonger h), eq_comm]

theorem same_refl (a : Bytes) : same a a := same_iff.2 (.inl rfl)

theorem same_iff_of_length_eq (h : a.length = b.length) : same a b ↔ a = b := by
  rw [same_iff_of_length_le (Nat.le_of_eq h.symm)]
  refine or_iff_left fun hpad => ?_
  rw [hpad, length_append_padding, blockLength] at h
  omega

theorem same_nil_iff : same a [] ↔ a = [] ∨ a = padding := by
  rw [same_iff_of_length_le (Nat.zero_le _), List.nil_append]

/-- What both ids begin with plays no part. -/
theorem same_append (front a b : Bytes) : same (front ++ a) (front ++ b) = same a b := by
  rw [Bool.eq_iff_iff, same_iff, same_iff]
  simp only [List.append_assoc, List.append_cancel_left_eq]

/-! ## The hash -/

theorem trailingZeros_append_padding (a : Bytes) :
    trailingZeros (a ++ padding) = blockLength + trailingZeros a := by
  rw [trailingZeros, List.reverse_append, padding, List.reverse_replicate,
    List.takeWhile_append_of_pos (by simp), List.length_append, List.length_replicate]
  rfl

theorem strip_append_padding (a : Bytes) : strip (a ++ padding) = strip a := by
  have hkept : (a ++ padding).length - blockLength * (trailingZeros (a ++ padding) / blockLength)
      = a.length - blockLength * (trailingZeros a / blockLength) := by
    rw [length_append_padding, trailingZeros_append_padding, blockLength]
    omega
  rw [strip, hkept, List.take_append_of_le_length (Nat.sub_le _ _)]
  rfl

theorem strip_eq_of_same (h : same a b) : strip a = strip b := by
  rcases same_iff.1 h with rfl | rfl | rfl
  · rfl
  · exact strip_append_padding b
  · exact (strip_append_padding a).symm

/-- **Ids that name one member have one hash.** -/
theorem hash_eq_of_same (h : same a b) : hash a = hash b := by
  rw [hash, strip_eq_of_same h, hash]

end MembershipId

namespace EventId

variable {a b : EventId}

theorem same_iff : a.same b ↔ a.thread = b.thread ∧ a.sequence = b.sequence
    ∧ MembershipId.same a.membership b.membership := by
  rw [same, Bool.and_eq_true, Bool.and_eq_true, beq_iff_eq, beq_iff_eq, and_assoc]

/-- **Equal event ids have one hash.** -/
theorem hash_eq_of_same (h : a.same b) : a.hash = b.hash := by
  obtain ⟨hthread, hsequence, hmembership⟩ := same_iff.1 h
  rw [hash, hash, hthread, hsequence, MembershipId.hash_eq_of_same hmembership]

end EventId

end DataGrid
