import DataGrid.Proofs.Entity.Faithful
import DataGrid.Proofs.Ordered.Pairing
import DataGrid.Proofs.Region.Replicas
import DataGrid.Region.Cluster

/-!
# Comparing — what the comparison of two copies tells

Copies are compared as numbers are: a score that is no number is unequal even to itself, and the
two zeros are equal. So copies agree just if they are alike and every score is a number
(`Entries.agrees_iff`), while they are equal just if they are alike and their zeros have the same
signs (`Entries.eq_iff`). Where every score is a number and zeros have the same signs, to agree is
to be equal, and to have the same snapshots.
-/

namespace DataGrid

/-! ## Definitions -/

namespace Entity

/-- The members with their scores, of which only a sorted set has any. -/
def scores (e : Entity) : ScoreTable :=
  match e.content with
  | .sortedSet z => z
  | _ => .empty

/-- Whether every score is a number. -/
def Numeric (e : Entity) : Prop := ∀ p ∈ e.scores.entries, p.2.isNaN = false

/-- Whether zeros that are scored to the same members have the same signs. -/
def SameZeros (e e' : Entity) : Prop :=
  ∀ p ∈ e.scores.entries, ∀ y ∈ e'.scores.get? p.1,
    p.2.magnitude = 0 → y.magnitude = 0 → p.2 = y

instance (e : Entity) : Decidable e.Numeric := inferInstanceAs (Decidable (∀ p ∈ _, _))

instance (e e' : Entity) : Decidable (e.SameZeros e') :=
  inferInstanceAs (Decidable (∀ p ∈ _, ∀ y ∈ _, _))

end Entity

namespace Entries

/-- Whether every score is a number. -/
def Numeric (a : Entries) : Prop := ∀ p ∈ a.entries, p.2.Numeric

/-- Whether zeros that are scored to the same members have the same signs. -/
def SameZeros (a b : Entries) : Prop :=
  ∀ p ∈ a.entries, ∀ e' ∈ b.get? p.1, p.2.SameZeros e'

/-- The snapshots of the entities, by key. -/
def snapshots (a : Entries) : OrdMap Bytes Bytes := a.mapValues Entity.snapshot

/-- Whether the lengths in the entities can be written. -/
def Fits (a : Entries) : Prop := ∀ p ∈ a.entries, p.2.content.Fits

instance (a : Entries) : Decidable a.Numeric := inferInstanceAs (Decidable (∀ p ∈ _, _))

instance (a b : Entries) : Decidable (a.SameZeros b) :=
  inferInstanceAs (Decidable (∀ p ∈ _, ∀ e' ∈ _, _))

instance (a : Entries) : Decidable a.Fits := inferInstanceAs (Decidable (∀ p ∈ _, _))

end Entries

/-! ## Scores -/

namespace Binary64

variable {x y : Binary64}

theorem isNaN_of_magnitude_eq_zero (h : x.magnitude = 0) : x.isNaN = false := by
  unfold isNaN
  rw [h]
  rfl

theorem Alike.isNaN_eq (h : x.Alike y) : x.isNaN = y.isNaN := by
  rcases h with rfl | ⟨hx, hy⟩
  · rfl
  · rw [isNaN_of_magnitude_eq_zero hx, isNaN_of_magnitude_eq_zero hy]

/-- **Two scores are one number just if they are alike and the first is a number.** -/
theorem sameNumber_iff : x.sameNumber y = true ↔ x.Alike y ∧ x.isNaN = false := by
  constructor
  · intro h
    refine ⟨.of_sameNumber h, ?_⟩
    simp only [sameNumber, Bool.and_eq_true, Bool.not_eq_true'] at h
    exact h.1.1
  · rintro ⟨halike, hx⟩
    have hy : y.isNaN = false := halike.isNaN_eq ▸ hx
    rcases halike with rfl | ⟨hzero, hzero'⟩
    · simp [sameNumber, hx]
    · simp [sameNumber, hx, hy, hzero, hzero']

end Binary64

theorem Delta.pairsAgree_iff {l l' : List (Bytes × Binary64)} : pairsAgree l l' = true
    ↔ List.Forall₂ (fun p q => p.1 = q.1 ∧ p.2.sameNumber q.2 = true) l l' := by
  induction l generalizing l' with
  | nil => cases l' <;> simp [pairsAgree]
  | cons p rest ih =>
    cases l' with
    | nil => simp [pairsAgree]
    | cons q rest' => simp [pairsAgree, ih, and_assoc]

theorem ScoreTable.agrees_iff {z z' : ScoreTable} : z.agrees z' = true
    ↔ z.Alike z' ∧ ∀ p ∈ z.entries, p.2.isNaN = false := by
  unfold agrees ScoreTable.Alike
  rw [Delta.pairsAgree_iff,
    OrdMap.forall₂_entries_iff (R := fun x y : Binary64 => x.sameNumber y = true),
    OrdMap.forall_entries_iff (P := fun (_ : Bytes) (x : Binary64) => x.isNaN = false),
    ← forall_and]
  refine forall_congr' fun m => ?_
  simp only [Binary64.sameNumber_iff]
  exact rel_and_iff

/-! ## Entities -/

namespace Entity

variable {e e' : Entity}

theorem content_agrees_iff : e.content.agrees e'.content = true
    ↔ e.content.Alike e'.content ∧ e.Numeric := by
  obtain ⟨content, expiration, staged⟩ := e
  obtain ⟨content', expiration', staged'⟩ := e'
  unfold Numeric scores
  cases content with
  | set s => cases content' <;> simp [Content.agrees, Content.Alike, OrdMap.empty]
  | string s => cases content' <;> simp [Content.agrees, Content.Alike, OrdMap.empty]
  | sortedSet z =>
    cases content' with
    | sortedSet z' => exact ScoreTable.agrees_iff
    | set | string => simp [Content.agrees, Content.Alike]

/-- Entities that are alike score the same members, with scores that are alike. -/
theorem Alike.scores (h : e.Alike e') : e.scores.Alike e'.scores := by
  have hcontent := h.content
  obtain ⟨content, expiration, staged⟩ := e
  obtain ⟨content', expiration', staged'⟩ := e'
  cases content with
  | set | string =>
    cases content' with
    | set | string => exact .refl .empty
    | sortedSet => exact hcontent.elim
  | sortedSet z =>
    cases content' with
    | set | string => exact hcontent.elim
    | sortedSet z' => exact hcontent

theorem numeric_iff : e.Numeric ↔ ∀ m, ∀ x ∈ e.scores.get? m, x.isNaN = false :=
  OrdMap.forall_entries_iff (P := fun (_ : Bytes) (x : Binary64) => x.isNaN = false)

theorem Alike.numeric (h : e.Alike e') (hnumeric : e.Numeric) : e'.Numeric := by
  rw [numeric_iff] at hnumeric ⊢
  intro m y hy
  have hm : Option.Rel Binary64.Alike (e'.scores.get? m) (e.scores.get? m) := h.scores.symm m
  rw [Option.mem_def.1 hy] at hm
  obtain ⟨x, hx, halike⟩ := eq_some_of_rel hm
  rw [halike.isNaN_eq]
  exact hnumeric m x hx

/-- **Entities with nothing staged agree just if they are alike and every score is a number.** -/
theorem agrees_iff (he : e.staged = none) (he' : e'.staged = none) :
    e.agrees e' = true ↔ e.Alike e' ∧ e.Numeric := by
  have hstaged : e.agrees e' = (e.content.agrees e'.content && e.expiration == e'.expiration) := by
    unfold agrees
    rw [he, he', Bool.and_true]
  rw [hstaged, Bool.and_eq_true, content_agrees_iff, beq_iff_eq]
  constructor
  · rintro ⟨⟨hcontent, hnumeric⟩, hexpiration⟩
    exact ⟨⟨hcontent, hexpiration⟩, hnumeric⟩
  · rintro ⟨⟨hcontent, hexpiration⟩, hnumeric⟩
    exact ⟨⟨hcontent, hnumeric⟩, hexpiration⟩

/-- **Entities with nothing staged are equal just if they are alike and their zeros have the same
signs.** -/
theorem eq_iff (he : e.staged = none) (he' : e'.staged = none) :
    e = e' ↔ e.Alike e' ∧ e.SameZeros e' := by
  constructor
  · rintro rfl
    refine ⟨.refl e, fun p hp y hy _ _ => ?_⟩
    exact Option.some.inj ((OrdMap.get?_eq_some_iff.2 hp).symm.trans hy)
  · rintro ⟨⟨hcontent, hexpiration⟩, hzeros⟩
    obtain ⟨content, expiration, staged⟩ := e
    obtain ⟨content', expiration', staged'⟩ := e'
    obtain rfl : staged = none := he
    obtain rfl : staged' = none := he'
    obtain rfl : expiration = expiration' := hexpiration
    have hsame : content.Same content' := by
      cases content with
      | set s =>
        cases content' with
        | set s' =>
          obtain rfl : s = s' := hcontent
          exact .refl _
        | string | sortedSet => exact hcontent.elim
      | string s =>
        cases content' with
        | string s' =>
          obtain rfl : s = s' := hcontent
          exact .refl _
        | set | sortedSet => exact hcontent.elim
      | sortedSet z =>
        cases content' with
        | sortedSet z' =>
          refine fun m => eq_of_rel (hcontent m) fun x hx y hy halike => ?_
          rcases halike with rfl | ⟨hzero, hzero'⟩
          · rfl
          · exact hzeros (m, x) (OrdMap.get?_eq_some_iff.1 hx) y hy hzero hzero'
        | set | string => exact hcontent.elim
    rw [hsame.eq]

/-- Entities with nothing staged whose lengths can be written are known by their snapshots. -/
theorem snapshot_inj (he : e.staged = none) (he' : e'.staged = none) (hfits : e.content.Fits)
    (hfits' : e'.content.Fits) : e.snapshot = e'.snapshot ↔ e = e' := by
  refine ⟨fun h => ?_, congrArg snapshot⟩
  have hread := ofSnapshot_snapshot hfits
  rw [h, ofSnapshot_snapshot hfits'] at hread
  have hunstaged : e'.unstage = e.unstage := Except.ok.inj hread
  obtain ⟨content, expiration, staged⟩ := e
  obtain ⟨content', expiration', staged'⟩ := e'
  obtain rfl : staged = none := he
  obtain rfl : staged' = none := he'
  exact hunstaged.symm

end Entity

/-! ## Copies -/

namespace Entries

variable {a b : Entries}

theorem entriesAgree_iff {l l' : List (Bytes × Entity)} : Cluster.entriesAgree l l' = true
    ↔ List.Forall₂ (fun p q => p.1 = q.1 ∧ p.2.agrees q.2 = true) l l' := by
  induction l generalizing l' with
  | nil => cases l' <;> simp [Cluster.entriesAgree]
  | cons p rest ih =>
    cases l' with
    | nil => simp [Cluster.entriesAgree]
    | cons q rest' => simp [Cluster.entriesAgree, ih, and_assoc]

/-- What entities with nothing staged have in common, tidy copies have in common. -/
theorem Tidy.rel_congr {R S : Entity → Entity → Prop} (ha : a.Tidy) (hb : b.Tidy) (key : Bytes)
    (h : ∀ e e' : Entity, e.staged = none → e'.staged = none → (R e e' ↔ S e e')) :
    Option.Rel R (a.get? key) (b.get? key) ↔ Option.Rel S (a.get? key) (b.get? key) := by
  have ha' := fun e he => (ha key e he).2
  have hb' := fun e he => (hb key e he).2
  generalize a.get? key = x at ha' ⊢
  generalize b.get? key = y at hb' ⊢
  constructor
  · intro hrel
    cases hrel with
    | none => exact .none
    | some hxy => exact .some ((h _ _ (ha' _ rfl) (hb' _ rfl)).1 hxy)
  · intro hrel
    cases hrel with
    | none => exact .none
    | some hxy => exact .some ((h _ _ (ha' _ rfl) (hb' _ rfl)).2 hxy)

theorem numeric_iff : a.Numeric ↔ ∀ key, ∀ e ∈ a.get? key, e.Numeric :=
  OrdMap.forall_entries_iff (P := fun (_ : Bytes) (e : Entity) => e.Numeric)

/-- **Tidy copies agree just if they are alike and every score is a number.** -/
theorem agrees_iff (ha : a.Tidy) (hb : b.Tidy) :
    Cluster.entriesAgree a.entries b.entries = true ↔ a.Alike b ∧ a.Numeric := by
  rw [entriesAgree_iff, OrdMap.forall₂_entries_iff (R := fun e e' : Entity => e.agrees e' = true),
    Alike, numeric_iff, ← forall_and]
  refine forall_congr' fun key => ?_
  rw [ha.rel_congr hb key fun e e' he he' => Entity.agrees_iff he he']
  exact rel_and_iff

theorem Alike.numeric (h : a.Alike b) (hnumeric : a.Numeric) : b.Numeric := by
  rw [numeric_iff] at hnumeric ⊢
  intro key e' he'
  have hkey : Option.Rel Entity.Alike (b.get? key) (a.get? key) := h.symm key
  rw [Option.mem_def.1 he'] at hkey
  obtain ⟨e, he, halike⟩ := eq_some_of_rel hkey
  exact halike.symm.numeric (hnumeric key e he)

/-- **Tidy copies are equal just if they are alike and their zeros have the same signs.** -/
theorem eq_iff (ha : a.Tidy) (hb : b.Tidy) : a = b ↔ a.Alike b ∧ a.SameZeros b := by
  constructor
  · rintro rfl
    refine ⟨.refl a, fun p hp e' he' => ?_⟩
    have he := OrdMap.get?_eq_some_iff.2 hp
    obtain rfl : p.2 = e' := Option.some.inj (he.symm.trans he')
    exact ((Entity.eq_iff (ha _ _ he).2 (ha _ _ he).2).1 rfl).2
  · rintro ⟨halike, hzeros⟩
    refine OrdMap.ext_get? fun key => eq_of_rel (halike key) fun e he e' he' h => ?_
    exact (Entity.eq_iff (ha key e he).2 (hb key e' he').2).2
      ⟨h, hzeros (key, e) (OrdMap.get?_eq_some_iff.1 he) e' he'⟩

/-- **Tidy copies whose lengths can be written are known by their snapshots.** -/
theorem snapshots_inj (ha : a.Tidy) (hb : b.Tidy) (hfits : a.Fits) (hfits' : b.Fits) :
    a.snapshots = b.snapshots ↔ a = b := by
  refine ⟨fun h => OrdMap.ext_get? fun key => ?_, congrArg snapshots⟩
  have hkey : (a.get? key).map Entity.snapshot = (b.get? key).map Entity.snapshot := by
    rw [← OrdMap.get?_mapValues, ← OrdMap.get?_mapValues]
    exact congrArg (·.get? key) h
  cases he : a.get? key with
  | none =>
    rw [he, Option.map_none] at hkey
    exact (Option.map_eq_none_iff.1 hkey.symm).symm
  | some e =>
    rw [he, Option.map_some] at hkey
    obtain ⟨e', he', hsnapshot⟩ := Option.map_eq_some_iff.1 hkey.symm
    rw [he', (Entity.snapshot_inj (ha key e he).2 (hb key e' he').2
      (hfits (key, e) (OrdMap.get?_eq_some_iff.1 he))
      (hfits' (key, e') (OrdMap.get?_eq_some_iff.1 he'))).1 hsnapshot.symm]

end Entries

end DataGrid
