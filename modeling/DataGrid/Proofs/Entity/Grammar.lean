import DataGrid.Proofs.Entity.Wire
import DataGrid.Proofs.Wire.Forms

/-!
# Grammar — exactly which octets spell a delta

A delta is a tag and what its kind has: a counted list of members, of members with scores, a number
and octets, or a number (`Delta.Form`). Reading takes exactly these spellings, with the lengths of
octets in any of their forms, and writing produces one of them. So hostile counts and lengths,
null arrays and cut octets are all refused, and no delta has more members than there were octets
to read (`Delta.read_grammar`).
-/

namespace DataGrid

open Reader

namespace DeltaKind

/-- Whether a delta of the kind is a list behind its count. -/
def isList : DeltaKind → Bool
  | .adds | .rems | .zadds => true
  | .append | .timestamp => false

end DeltaKind

namespace Delta

variable {delta : Delta} {bytes front rest : Bytes}

/-- Which octets spell a member with its score. -/
def PairForm (bytes : Bytes) (pair : Bytes × Binary64) : Prop :=
  ∃ member, bytes = member ++ Encode.u64 pair.2.bits ∧ ArrayForm member pair.1

/-- **Which octets spell a delta.** -/
inductive Form : Bytes → Delta → Prop where
  | adds {body : Bytes} {members : List Bytes} (h : CountedForm ArrayForm body members) :
      Form (0 :: body) (.adds members)
  | rems {body : Bytes} {members : List Bytes} (h : CountedForm ArrayForm body members) :
      Form (1 :: body) (.rems members)
  | append (sequence : Int32) {body octets : Bytes} (h : ArrayForm body octets) :
      Form (2 :: (Encode.i32 sequence ++ body)) (.append sequence octets)
  | timestamp (expiration : Int64) : Form (3 :: Encode.i64 expiration) (.timestamp expiration)
  | zadds {body : Bytes} {pairs : List (Bytes × Binary64)} (h : CountedForm PairForm body pairs) :
      Form (4 :: body) (.zadds pairs)

/-! ## What is accepted -/

theorem accepts_pair : readPair.Accepts PairForm := by
  refine Accepts.intro ?_ fun bytes pair rest h => ?_
  · rintro front pair ⟨member, rfl, hmember⟩
    exact (accepts_bytes.reads hmember).bind
      ((reads_u64 pair.2.bits).map fun bits => (pair.1, Binary64.mk bits))
  · obtain ⟨member, left, hmember, hnext⟩ := exists_of_bind h
    obtain ⟨bits, left', hbits, hlast⟩ := exists_of_bind hnext
    obtain ⟨rfl, rfl⟩ := eq_of_pure hlast
    obtain ⟨front, rfl, hform⟩ := accepts_bytes.exists_front hmember
    obtain rfl := canonical_u64 _ _ _ hbits
    exact ⟨front ++ Encode.u64 bits, (List.append_assoc ..).symm, front, rfl, hform⟩

theorem accepts_members : readMembers.Accepts (CountedForm ArrayForm) := accepts_bytes.counted

theorem accepts_pairs : readPairs.Accepts (CountedForm PairForm) := accepts_pair.counted

/-- Reads what a delta of a kind has behind its tag. -/
def readBody : DeltaKind → Reader Delta
  | .adds => do return .adds (← readMembers)
  | .rems => do return .rems (← readMembers)
  | .append => do
    let sequence ← Reader.i32
    let octets ← Reader.bytes
    return .append sequence octets
  | .timestamp => do return .timestamp (← Reader.i64)
  | .zadds => do return .zadds (← readPairs)

theorem eq_tag_of_ofTag {tag : UInt8} {kind : DeltaKind} (h : DeltaKind.ofTag tag = .ok kind) :
    tag = kind.tag := by
  unfold DeltaKind.ofTag at h
  split at h
  · cases h; assumption
  split at h
  · cases h; assumption
  split at h
  · cases h; assumption
  split at h
  · cases h; assumption
  split at h
  · cases h; assumption
  · cases h

/-- A delta is read just if there is the tag of a kind and behind it what the kind has. -/
theorem read_eq_ok_iff : read bytes = (.ok delta, rest)
    ↔ ∃ kind left, bytes = DeltaKind.tag kind :: left ∧ readBody kind left = (.ok delta, rest) := by
  have hread : read = Reader.u8 >>= fun tag =>
      Reader.ofExcept (DeltaKind.ofTag tag) >>= readBody := by
    refine congrArg (Reader.u8 >>= ·) (funext fun tag => congrArg (_ >>= ·) (funext fun kind => ?_))
    cases kind <;> rfl
  have htag : ∀ kind left, Encode.u8 (DeltaKind.tag kind) ++ left = DeltaKind.tag kind :: left :=
    fun kind left => by simp [Encode.u8, BigEndian.ofNat]
  rw [hread]
  constructor
  · intro h
    obtain ⟨tag, left, hu8, hnext⟩ := exists_of_bind h
    obtain ⟨kind, left', hof, hbody⟩ := exists_of_bind hnext
    obtain rfl := canonical_u8 _ _ _ hu8
    obtain ⟨hkind, rfl⟩ := ofExcept_eq_ok hof
    obtain rfl := eq_tag_of_ofTag hkind
    exact ⟨kind, left, htag kind left, hbody⟩
  · rintro ⟨kind, left, rfl, hbody⟩
    rw [← htag, (reads_u8 kind.tag).bind_apply, ofTag_tag]
    exact hbody

theorem Form.reads (h : Form bytes delta) : read.Reads bytes delta := by
  intro rest
  rw [read_eq_ok_iff]
  cases h with
  | @adds body members h =>
    exact ⟨.adds, body ++ rest, rfl, (accepts_members.reads h).map Delta.adds rest⟩
  | @rems body members h =>
    exact ⟨.rems, body ++ rest, rfl, (accepts_members.reads h).map Delta.rems rest⟩
  | @append sequence body octets h =>
    have hbody : (readBody .append).Reads (Encode.i32 sequence ++ body) (.append sequence octets) :=
      (reads_i32 sequence).bind ((accepts_bytes.reads h).map (Delta.append sequence))
    exact ⟨.append, Encode.i32 sequence ++ body ++ rest, rfl, hbody rest⟩
  | timestamp expiration =>
    exact ⟨.timestamp, Encode.i64 expiration ++ rest, rfl,
      (reads_i64 expiration).map Delta.timestamp rest⟩
  | @zadds body pairs h =>
    exact ⟨.zadds, body ++ rest, rfl, (accepts_pairs.reads h).map Delta.zadds rest⟩

/-- **Deltas are accepted in their grammar.** -/
theorem accepts_read : read.Accepts Form := by
  refine Accepts.intro (fun _ _ => Form.reads) fun bytes delta rest h => ?_
  obtain ⟨kind, left, rfl, hbody⟩ := read_eq_ok_iff.1 h
  cases kind with
  | adds =>
    obtain ⟨body, rfl, members, rfl, hform⟩ := (accepts_members.map adds).exists_front hbody
    exact ⟨0 :: body, rfl, .adds hform⟩
  | rems =>
    obtain ⟨body, rfl, members, rfl, hform⟩ := (accepts_members.map rems).exists_front hbody
    exact ⟨1 :: body, rfl, .rems hform⟩
  | append =>
    obtain ⟨sequence, left', hsequence, hnext⟩ := exists_of_bind hbody
    obtain ⟨octets, left'', hoctets, hlast⟩ := exists_of_bind hnext
    obtain ⟨rfl, rfl⟩ := eq_of_pure hlast
    obtain rfl := canonical_i32 _ _ _ hsequence
    obtain ⟨body, rfl, hform⟩ := accepts_bytes.exists_front hoctets
    refine ⟨2 :: (Encode.i32 sequence ++ body), ?_, .append sequence hform⟩
    rw [List.cons_append, List.append_assoc]
    rfl
  | timestamp =>
    obtain ⟨expiration, left', hexpiration, hlast⟩ := exists_of_bind hbody
    obtain ⟨rfl, rfl⟩ := eq_of_pure hlast
    obtain rfl := canonical_i64 _ _ _ hexpiration
    exact ⟨3 :: Encode.i64 expiration, rfl, .timestamp expiration⟩
  | zadds =>
    obtain ⟨body, rfl, pairs, rfl, hform⟩ := (accepts_pairs.map zadds).exists_front hbody
    exact ⟨4 :: body, rfl, .zadds hform⟩

/-! ## How much a delta can hold -/

theorem PairForm.ne_nil {pair : Bytes × Binary64} (h : PairForm bytes pair) : bytes ≠ [] := by
  obtain ⟨member, rfl, hmember⟩ := h
  exact List.append_ne_nil_of_left_ne_nil hmember.ne_nil _

/-- **No delta has more members than there were octets.** -/
theorem Form.count_le (h : Form front delta) : delta.count ≤ front.length := by
  cases h with
  | adds h | rems h =>
    have hle := h.length_le fun _ _ => ArrayForm.ne_nil
    rw [List.length_cons, count]
    omega
  | zadds h =>
    have hle := h.length_le fun _ _ => PairForm.ne_nil
    rw [List.length_cons, count]
    omega
  | append | timestamp => exact Nat.succ_le_of_lt (Nat.zero_lt_succ _)

/-- **A list says behind its tag how many values it has**, and that is how many it has. -/
theorem Form.declares (h : Form front delta) (hlist : delta.kind.isList) :
    ∃ body, front = delta.kind.tag :: (Encode.count delta.count ++ body)
      ∧ delta.count < 2147483648 := by
  cases h with
  | adds h | rems h | zadds h =>
    obtain ⟨body, rfl, hlt, -⟩ := h
    exact ⟨body, rfl, hlt⟩
  | append | timestamp => cases hlist

/-- **Which octets are read as a delta.** A delta whose lengths can be written is read back, scores
bit for bit, and leaves what is behind it. A delta is read from octets just if they begin with a
spelling of it by the grammar, whatever else they are. A list then has exactly the number of values
that it declares, which is not negative, and no delta has more values than octets were read. -/
theorem read_grammar :
    (∀ delta : Delta, delta.Fits → ∀ rest, read (delta.encode ++ rest) = (.ok delta, rest))
    ∧ (∀ (bytes : Bytes) (delta : Delta) (rest : Bytes),
        read bytes = (.ok delta, rest) ↔ ∃ front, bytes = front ++ rest ∧ Form front delta)
    ∧ ∀ (front : Bytes) (delta : Delta), Form front delta →
        delta.count ≤ front.length
        ∧ (delta.kind.isList → ∃ body,
            front = delta.kind.tag :: (Encode.count delta.count ++ body)
            ∧ delta.count < 2147483648) :=
  ⟨fun _ => reads_encode, accepts_read, fun _ _ h => ⟨h.count_le, h.declares⟩⟩

/-- A length that takes four octets without need is read all the same, and so is what was written,
with a score that is not a number. -/
theorem read_grammar_loose :
    let scored : Delta := .zadds [([1, 2], ⟨0x7FF8000000000001⟩)]
    read [0, 0, 0, 0, 1, 0xFD, 0, 0, 0, 1, 97, 9] = (.ok (.adds [[97]]), [9])
      ∧ scored.Fits ∧ read (scored.encode ++ [7]) = (.ok scored, [7]) := by
  intro scored
  obtain ⟨hreads, haccepts, -⟩ := read_grammar
  have hmember : ArrayForm [0xFD, 0, 0, 0, 1, 97] [97] :=
    ⟨[0xFD, 0, 0, 0, 1], rfl, LengthForm.int (show 1 < 2147483648 by decide)⟩
  have hbody : CountedForm ArrayForm [0, 0, 0, 1, 0xFD, 0, 0, 0, 1, 97] [[97]] :=
    ⟨[0xFD, 0, 0, 0, 1, 97], rfl, by decide, .cons hmember .nil⟩
  have hfits : scored.Fits := ⟨by decide, by decide⟩
  exact ⟨(haccepts _ _ _).2 ⟨_, rfl, .adds hbody⟩, hfits, hreads scored hfits [7]⟩

/-- A count that promises more than there is. -/
example : read [1, 0x7F, 0xFF, 0xFF, 0xFF, 1, 97] = (.error (.truncated 1 0), []) := by rfl

end Delta

end DataGrid
