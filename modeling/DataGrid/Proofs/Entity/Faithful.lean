import DataGrid.Proofs.Entity.Effects
import DataGrid.Proofs.Entity.Wire
import Mathlib.Data.List.Pairwise

/-!
# Faithful — what a snapshot tells of an entity

A snapshot is made of what an entity answers (`Entity.Same`): its kind and its expiration, the
members that are there, the score of each, bit for bit, the octets and the number of their last
append. So entities that answer alike have one snapshot, however they came to hold what they hold,
and operations that do the same or are about different members leave the same snapshot in every
order (`Entity.foldl_edit`). The other way round, whoever has the snapshot knows all of it, but not
what is staged (`Entity.snapshot_tells`).
-/

namespace DataGrid

/-! ## Entities that answer alike -/

/-- Whether two contents are of one kind and answer every question alike. -/
def Content.Same : Content → Content → Prop
  | .set s, .set s' => ∀ m, s.contains m = s'.contains m
  | .string s, .string s' => s.octets = s'.octets ∧ s.sequence = s'.sequence
  | .sortedSet z, .sortedSet z' => ∀ m, z.get? m = z'.get? m
  | _, _ => False

/-- **Whether two entities answer every question alike.** What is staged is no answer. -/
structure Entity.Same (e e' : Entity) : Prop where
  content : e.content.Same e'.content
  expiration : e.expiration = e'.expiration

namespace Content

variable {a b : Content}

theorem Same.refl (a : Content) : a.Same a := by
  cases a with
  | set | sortedSet => exact fun _ => rfl
  | string => exact ⟨rfl, rfl⟩

/-- A content is known by its answers. -/
theorem Same.eq (h : a.Same b) : a = b := by
  cases a with
  | set s =>
    cases b with
    | set s' => exact congrArg Content.set (OrdSet.ext_contains h)
    | string | sortedSet => exact h.elim
  | string s =>
    cases b with
    | string s' =>
      obtain ⟨octets, sequence⟩ := s
      obtain ⟨octets', sequence'⟩ := s'
      obtain ⟨rfl, rfl⟩ : octets = octets' ∧ sequence = sequence' := h
      rfl
    | set | sortedSet => exact h.elim
  | sortedSet z =>
    cases b with
    | sortedSet z' => exact congrArg Content.sortedSet (OrdMap.ext_get? h)
    | set | string => exact h.elim

end Content

/-! ## The order of operations -/

namespace ScoreTable

/-- A score that was stored does not depend on what stood there. -/
theorem get?_storeAll (z : ScoreTable) (pairs : List (Bytes × Binary64)) (m : Bytes) :
    (storeAll z pairs).1.get? m
      = if m ∈ pairs.map (·.1) then (storeAll .empty pairs).1.get? m else z.get? m := by
  induction pairs generalizing z with
  | nil => rfl
  | cons pair rest ih =>
    have hz : (storeAll z (pair :: rest)).1 = (storeAll (z.insert pair.1 pair.2) rest).1 := rfl
    have hempty : (storeAll .empty (pair :: rest)).1
        = (storeAll (OrdMap.empty.insert pair.1 pair.2) rest).1 := rfl
    rw [hz, hempty, ih, ih (OrdMap.empty.insert pair.1 pair.2), List.map_cons]
    by_cases hrest : m ∈ rest.map (·.1)
    · simp [hrest]
    · by_cases hm : m = pair.1 <;> simp [hrest, hm, OrdMap.get?_insert]

end ScoreTable

/-- An operation on members of a set or of a sorted set. -/
inductive Edit where
  | add (members : List Bytes)
  | score (pairs : List (Bytes × Binary64))
  | remove (members : List Bytes)
  deriving DecidableEq

namespace Edit

/-- The members that an operation is about. -/
def members : Edit → List Bytes
  | .add members => members
  | .score pairs => pairs.map (·.1)
  | .remove members => members

/-- Whether two operations both add members to a set, or both remove members. -/
def alike : Edit → Edit → Bool
  | .add _, .add _ => true
  | .remove _, .remove _ => true
  | _, _ => false

theorem alike_comm (a b : Edit) : a.alike b = b.alike a := by
  cases a <;> cases b <;> rfl

/-- Whether two operations may change places: they do the same, or are about different members. -/
def Swaps (a b : Edit) : Prop := a.alike b = true ∨ ∀ m ∈ a.members, m ∉ b.members

instance (a b : Edit) : Decidable (a.Swaps b) := inferInstanceAs (Decidable (_ ∨ ∀ m ∈ _, _))

instance : Std.Symm Swaps :=
  ⟨fun a b h => h.imp (alike_comm a b ▸ ·) fun happart m hb ha => happart m ha hb⟩

end Edit

/-- The content after an operation; one for contents of another kind does nothing. -/
def Content.edit : Content → Edit → Content
  | .set s, .add members => .set (s.add members).1
  | .set s, .remove members => .set (s.remove members).1
  | .sortedSet z, .score pairs => .sortedSet (z.add pairs).1
  | .sortedSet z, .remove members => .sortedSet (z.remove members).1
  | content, _ => content

/-- The entity after an operation. -/
def Entity.edit (e : Entity) (edit : Edit) : Entity := { e with content := e.content.edit edit }

namespace Content

/-- **Operations that do the same or are about different members may change places.** -/
theorem edit_comm (content : Content) {a b : Edit} (h : a.Swaps b) :
    (content.edit a).edit b = (content.edit b).edit a := by
  refine Same.eq ?_
  cases content with
  | set s =>
    have hadd : ∀ (s : SetValue) members m,
        (s.add members).1.contains m = (decide (m ∈ members) || s.contains m) :=
      SetValue.contains_addNew
    have hremove : ∀ (s : SetValue) members m,
        (s.remove members).1.contains m = (decide (m ∉ members) && s.contains m) :=
      SetValue.contains_removePresent
    cases a <;> cases b <;> try exact Same.refl _
    all_goals
      intro m
      have hm := h.imp_right (· m)
      simp only [hadd, hremove, Edit.alike, Edit.members] at hm ⊢
      grind
  | string s => exact Same.refl _
  | sortedSet z =>
    have hscore : ∀ (z : ScoreTable) pairs m, (z.add pairs).1.get? m
        = if m ∈ pairs.map (·.1) then (ScoreTable.storeAll .empty pairs).1.get? m else z.get? m :=
      ScoreTable.get?_storeAll
    have hremove : ∀ (z : ScoreTable) members m,
        (z.remove members).1.get? m = if m ∈ members then none else z.get? m :=
      ScoreTable.get?_removePresent
    cases a <;> cases b <;> try exact Same.refl _
    all_goals
      intro m
      have hm := h.imp_right (· m)
      simp only [hscore, hremove, Edit.alike, Edit.members] at hm ⊢
      grind

end Content

namespace Entity

variable {e e' : Entity}

/-- **Operations that may change places leave the same entity in every order.** -/
theorem foldl_edit (e : Entity) {edits edits' : List Edit} (h : edits.Perm edits')
    (hswaps : edits.Pairwise Edit.Swaps) : edits.foldl edit e = edits'.foldl edit e := by
  refine h.foldl_eq' (fun a ha b hb e => ?_) e
  have hcomm : a = b ∨ a.Swaps b := by
    by_cases hab : a = b
    · exact .inl hab
    · exact .inr (hswaps.forall ha hb hab)
  rcases hcomm with rfl | hab
  · rfl
  · exact congrArg (fun content => { e with content }) (e.content.edit_comm hab)

/-! ## What a snapshot tells -/

/-- Entities that answer alike are equal but for what is staged. -/
theorem same_iff : e.Same e' ↔ e.unstage = e'.unstage := by
  constructor
  · intro h
    obtain ⟨content, expiration, staged⟩ := e
    obtain ⟨content', expiration', staged'⟩ := e'
    obtain rfl : content = content' := h.content.eq
    obtain rfl : expiration = expiration' := h.expiration
    rfl
  · intro h
    obtain ⟨hcontent, hexpiration, -⟩ := Entity.mk.inj h
    exact ⟨hcontent ▸ .refl e.content, hexpiration⟩

theorem snapshot_unstage (e : Entity) : e.unstage.snapshot = e.snapshot := rfl

theorem snapshot_eq_of_same (h : e.Same e') : e.snapshot = e'.snapshot := by
  rw [← snapshot_unstage, same_iff.1 h, snapshot_unstage]

/-- **A snapshot tells what an entity holds, and nothing else.** Whatever the entity is, if its
lengths can be written it is read back from its snapshot, scores bit for bit, without what is
staged. Entities that answer every question alike have one snapshot, whatever is staged and however
they were made; so have those that the same operations made in another order, if the operations may
change places. And entities of one snapshot answer every question alike. -/
theorem snapshot_tells (h : e.content.Fits) :
    ofSnapshot e.snapshot = .ok e.unstage
    ∧ (∀ e' : Entity, e.Same e' → e.snapshot = e'.snapshot)
    ∧ (∀ edits edits' : List Edit, edits.Perm edits' → edits.Pairwise Edit.Swaps →
        (edits.foldl edit e).snapshot = (edits'.foldl edit e).snapshot)
    ∧ ∀ e' : Entity, e'.content.Fits → e.snapshot = e'.snapshot → e.Same e' := by
  refine ⟨ofSnapshot_snapshot h, fun e' => snapshot_eq_of_same,
    fun edits edits' hperm hswaps => by rw [foldl_edit e hperm hswaps], fun e' h' heq => ?_⟩
  have hread := ofSnapshot_snapshot h
  rw [heq, ofSnapshot_snapshot h'] at hread
  exact same_iff.2 (Except.ok.inj hread).symm

/-- A zero of negative sign and a score that is no number, with a delta staged; and what comes of
three operations, either way round. -/
theorem snapshot_tells_scores :
    let scores : ScoreTable :=
      .ofList [([1], ⟨0x8000000000000000⟩), ([2], ⟨0x7FF8000000000001⟩)]
    let e : Entity :=
      { content := .sortedSet scores, expiration := 77, staged := some (.rems [[9]]) }
    let edits : List Edit := [.remove [[1]], .remove [[1], [4]], .score [([3], .zero), ([3], ⟨1⟩)]]
    e.content.Fits ∧ ofSnapshot e.snapshot = .ok { content := .sortedSet scores, expiration := 77 }
      ∧ e.unstage.snapshot = e.snapshot
      ∧ (edits.foldl edit e).snapshot = (edits.reverse.foldl edit e).snapshot := by
  intro scores e edits
  have hfits : e.content.Fits := ⟨by decide, by decide⟩
  obtain ⟨hread, halike, horder, -⟩ := snapshot_tells hfits
  have hsame : e.Same e.unstage := ⟨.refl _, rfl⟩
  exact ⟨hfits, hread, (halike _ hsame).symm,
    horder _ _ (List.reverse_perm edits).symm (by decide)⟩

end Entity

end DataGrid
