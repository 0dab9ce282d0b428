import DataGrid.Entity.Basic
import DataGrid.Proofs.Ordered.Lookup

/-!
# Alike — entities that differ in the sign of a zero at most

Setting a score to a zero of the other sign changes what is stored and tells nobody, so copies of
a sorted set agree up to the sign of a zero. That is the only slack: two entities are alike when
they are of one kind, have equal members, octets, append number and expiration, and scores that
are equal bit for bit unless both are zeros. A delta that suits an entity suits every entity alike
to it, and leaves them alike (`Entity.Alike.apply`).
-/

namespace DataGrid

/-! ## Definitions -/

/-- Whether two numbers are the same bits, or two zeros. -/
def Binary64.Alike (x y : Binary64) : Prop := x = y ∨ x.magnitude = 0 ∧ y.magnitude = 0

/-- Whether two sorted sets have the same members with scores alike. -/
def ScoreTable.Alike (z z' : ScoreTable) : Prop :=
  ∀ m, Option.Rel Binary64.Alike (z.get? m) (z'.get? m)

/-- Whether two contents are of one kind and alike. -/
def Content.Alike : Content → Content → Prop
  | .set s, .set s' => s = s'
  | .string s, .string s' => s = s'
  | .sortedSet z, .sortedSet z' => ScoreTable.Alike z z'
  | _, _ => False

/-- **Whether two entities are alike**: equal but for the signs of zero scores. What is staged
does not count. -/
structure Entity.Alike (e e' : Entity) : Prop where
  content : e.content.Alike e'.content
  expiration : e.expiration = e'.expiration

/-! ## Optional values -/

section OptionRel

variable {α : Type} {R : α → α → Prop} {a b c : Option α}

theorem rel_refl (h : ∀ x, R x x) (a : Option α) : Option.Rel R a a := by
  cases a with
  | none => exact .none
  | some x => exact .some (h x)

theorem rel_symm (h : ∀ x y, R x y → R y x) (hab : Option.Rel R a b) :
    Option.Rel R b a := by
  cases hab with
  | none => exact .none
  | some hxy => exact .some (h _ _ hxy)

theorem rel_trans (h : ∀ x y z, R x y → R y z → R x z) (hab : Option.Rel R a b)
    (hbc : Option.Rel R b c) : Option.Rel R a c := by
  cases hab with
  | none => exact hbc
  | some hxy =>
    cases hbc with
    | some hyz => exact .some (h _ _ _ hxy hyz)

theorem isSome_eq_of_rel (hab : Option.Rel R a b) : a.isSome = b.isSome := by
  cases hab <;> rfl

theorem eq_some_of_rel {x : α} (hb : Option.Rel R (some x) b) : ∃ y, b = some y ∧ R x y := by
  cases hb with
  | some hxy => exact ⟨_, rfl, hxy⟩

theorem eq_of_rel (hab : Option.Rel R a b) (h : ∀ x ∈ a, ∀ y ∈ b, R x y → x = y) : a = b := by
  cases hab with
  | none => rfl
  | some hxy => exact congrArg some (h _ rfl _ rfl hxy)

/-- To be related to a value, and to have a property besides. -/
theorem rel_and_iff {p : α → Prop} :
    Option.Rel (fun x y => R x y ∧ p x) a b ↔ Option.Rel R a b ∧ ∀ x ∈ a, p x := by
  constructor
  · intro h
    cases h with
    | none => exact ⟨.none, nofun⟩
    | some hxy =>
      refine ⟨.some hxy.1, ?_⟩
      rintro _ ⟨⟩
      exact hxy.2
  · rintro ⟨h, hp⟩
    cases h with
    | none => exact .none
    | some hxy => exact .some ⟨hxy, hp _ rfl⟩

end OptionRel

/-! ## Scores -/

namespace Binary64.Alike

variable {x y z : Binary64}

theorem refl (x : Binary64) : x.Alike x := .inl rfl

theorem symm (h : x.Alike y) : y.Alike x := h.imp Eq.symm And.symm

theorem trans (h : x.Alike y) (h' : y.Alike z) : x.Alike z := by
  rcases h with rfl | ⟨hx, hy⟩
  · exact h'
  · rcases h' with rfl | ⟨-, hz⟩
    · exact .inr ⟨hx, hy⟩
    · exact .inr ⟨hx, hz⟩

/-- Scores that are one number are alike. -/
theorem of_sameNumber (h : x.sameNumber y) : x.Alike y := by
  simp only [sameNumber, Bool.and_eq_true, Bool.or_eq_true, beq_iff_eq] at h
  rcases h.2 with hbits | hzero
  · left
    cases x
    cases y
    exact congrArg _ hbits
  · exact .inr hzero

end Binary64.Alike

namespace ScoreTable

variable {z z' z'' : ScoreTable}

theorem Alike.refl (z : ScoreTable) : z.Alike z := fun _ => rel_refl Binary64.Alike.refl _

theorem Alike.symm (h : z.Alike z') : z'.Alike z := fun m =>
  rel_symm (fun _ _ => Binary64.Alike.symm) (h m)

theorem Alike.trans (h : z.Alike z') (h' : z'.Alike z'') : z.Alike z'' := fun m =>
  rel_trans (fun _ _ _ => Binary64.Alike.trans) (h m) (h' m)

theorem Alike.isEmpty_eq (h : z.Alike z') : z.isEmpty = z'.isEmpty := by
  have hnone : ∀ m, z.get? m = none ↔ z'.get? m = none := fun m => by
    rw [← Option.not_isSome_iff_eq_none, ← Option.not_isSome_iff_eq_none, isSome_eq_of_rel (h m)]
  rw [Bool.eq_iff_iff, OrdMap.isEmpty_iff, OrdMap.isEmpty_iff]
  exact forall_congr' hnone

theorem Alike.insert (h : z.Alike z') (m : Bytes) {x y : Binary64} (hxy : x.Alike y) :
    ScoreTable.Alike (z.insert m x) (z'.insert m y) := by
  intro j
  rw [OrdMap.get?_insert, OrdMap.get?_insert]
  split
  · exact .some hxy
  · exact h j

theorem Alike.erase (h : z.Alike z') (m : Bytes) : ScoreTable.Alike (z.erase m) (z'.erase m) := by
  intro j
  rw [OrdMap.get?_erase, OrdMap.get?_erase]
  split
  · exact .none
  · exact h j

/-- Setting the same scores. -/
theorem Alike.foldl_insert (h : z.Alike z') (pairs : List (Bytes × Binary64)) :
    ScoreTable.Alike (pairs.foldl (fun z pair => z.insert pair.1 pair.2) z)
      (pairs.foldl (fun z pair => z.insert pair.1 pair.2) z') := by
  induction pairs generalizing z z' with
  | nil => exact h
  | cons pair pairs ih => exact ih (h.insert pair.1 (.refl pair.2))

/-- Removing the same members. -/
theorem Alike.foldl_erase (h : z.Alike z') (members : List Bytes) :
    ScoreTable.Alike (members.foldl OrdMap.erase z) (members.foldl OrdMap.erase z') := by
  induction members generalizing z z' with
  | nil => exact h
  | cons m members ih => exact ih (h.erase m)

end ScoreTable

/-! ## Contents and entities -/

namespace Content.Alike

variable {a b c : Content}

theorem refl (a : Content) : a.Alike a := by
  cases a with
  | set | string => exact rfl
  | sortedSet z => exact ScoreTable.Alike.refl z

theorem symm (h : a.Alike b) : b.Alike a := by
  cases a <;> cases b <;> first | exact Eq.symm h | exact ScoreTable.Alike.symm h | exact h.elim

theorem trans (h : a.Alike b) (h' : b.Alike c) : a.Alike c := by
  cases a <;> cases b <;> first
    | exact h.elim
    | cases c <;> first
      | exact h'.elim
      | exact Eq.trans h h'
      | exact ScoreTable.Alike.trans h h'

theorem isEmpty_eq (h : a.Alike b) : a.isEmpty = b.isEmpty := by
  cases a <;> cases b <;> first
    | exact h.elim
    | exact ScoreTable.Alike.isEmpty_eq h
    | exact congrArg _ (congrArg _ h)

/-- A delta that suits a content suits whatever is alike to it. -/
theorem apply (h : a.Alike b) {delta : Delta} {a' : Content}
    (ha : a.apply delta = (.ok (), a')) : ∃ b', b.apply delta = (.ok (), b') ∧ a'.Alike b' := by
  cases a with
  | set s =>
    cases b with
    | set s' => cases h; exact ⟨a', ha, refl a'⟩
    | string | sortedSet => exact h.elim
  | string s =>
    cases b with
    | string s' => cases h; exact ⟨a', ha, refl a'⟩
    | set | sortedSet => exact h.elim
  | sortedSet z =>
    cases b with
    | sortedSet z' =>
      cases delta with
      | zadds pairs =>
        cases ha
        exact ⟨_, rfl, ScoreTable.Alike.foldl_insert h pairs⟩
      | rems members =>
        cases ha
        exact ⟨_, rfl, ScoreTable.Alike.foldl_erase h members⟩
      | adds | append | timestamp => cases ha
    | set | string => exact h.elim

end Content.Alike

namespace Entity.Alike

variable {a b c : Entity}

theorem refl (a : Entity) : a.Alike a := ⟨.refl _, rfl⟩

theorem symm (h : a.Alike b) : b.Alike a := ⟨h.content.symm, h.expiration.symm⟩

theorem trans (h : a.Alike b) (h' : b.Alike c) : a.Alike c :=
  ⟨h.content.trans h'.content, h.expiration.trans h'.expiration⟩

theorem isEmpty_eq (h : a.Alike b) : a.isEmpty = b.isEmpty := h.content.isEmpty_eq

/-- **A delta that suits an entity suits every entity alike to it**, and leaves them alike. What
is staged stays. -/
theorem apply (h : a.Alike b) {delta : Delta} {a' : Entity} (ha : a.apply delta = (.ok (), a')) :
    ∃ b', b.apply delta = (.ok (), b') ∧ a'.Alike b' ∧ b'.staged = b.staged := by
  by_cases htime : delta.kind = .timestamp
  · cases delta <;> cases htime
    cases ha
    exact ⟨_, rfl, ⟨h.content, rfl⟩, rfl⟩
  · rw [Entity.apply_eq a htime] at ha
    obtain ⟨hresult, rfl⟩ := Prod.mk.inj ha
    obtain ⟨content, hb, halike⟩ := h.content.apply (Prod.ext hresult rfl)
    refine ⟨{ b with content }, ?_, ⟨halike, h.expiration⟩, rfl⟩
    rw [Entity.apply_eq b htime, hb]

end Entity.Alike

end DataGrid
