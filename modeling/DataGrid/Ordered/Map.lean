/-!
# Ordered maps — keys in ascending order, each with one value

The entries of an ordered map are a list whose keys ascend strictly, so a map has exactly one list
of entries: two maps that answer every look-up alike are equal (`OrdMap.ext_get?`), whatever
history made them. Every operation is described by what it does to a look-up.
-/

namespace DataGrid

/-- A map with ascending keys. -/
structure OrdMap (κ : Type) (ν : Type) [Ord κ] where
  entries : List (κ × ν)
  ascending : entries.Pairwise fun a b => compare a.1 b.1 = .lt

namespace OrdMap

variable {κ ν : Type} [Ord κ]

instance [DecidableEq κ] [DecidableEq ν] : DecidableEq (OrdMap κ ν) := fun a b =>
  if h : a.entries = b.entries then
    isTrue (by cases a; cases b; cases h; rfl)
  else isFalse (fun e => h (e ▸ rfl))

/-! ## Lists of entries -/

/-- The value under a key in ascending entries. -/
def lookup (k : κ) : List (κ × ν) → Option ν
  | [] => none
  | (k', v) :: rest =>
    match compare k k' with
    | .lt => none
    | .eq => some v
    | .gt => lookup k rest

/-- Ascending entries with the value under a key set. -/
def place (k : κ) (v : ν) : List (κ × ν) → List (κ × ν)
  | [] => [(k, v)]
  | (k', v') :: rest =>
    match compare k k' with
    | .lt => (k, v) :: (k', v') :: rest
    | .eq => (k, v) :: rest
    | .gt => (k', v') :: place k v rest

/-- Ascending entries without a key. -/
def remove (k : κ) : List (κ × ν) → List (κ × ν)
  | [] => []
  | (k', v') :: rest =>
    match compare k k' with
    | .lt => (k', v') :: rest
    | .eq => rest
    | .gt => (k', v') :: remove k rest

theorem fst_mem_of_mem_place {k : κ} {v : ν} {l : List (κ × ν)} {p : κ × ν}
    (h : p ∈ place k v l) : p = (k, v) ∨ p ∈ l := by
  induction l with
  | nil => simpa [place] using h
  | cons q rest ih =>
    obtain ⟨k', v'⟩ := q
    simp only [place] at h
    split at h
    · simpa using h
    · rcases List.mem_cons.1 h with h | h
      · exact .inl h
      · exact .inr (List.mem_cons_of_mem _ h)
    · rcases List.mem_cons.1 h with h | h
      · exact .inr (h ▸ List.mem_cons_self)
      · exact (ih h).imp id (List.mem_cons_of_mem _)

theorem mem_of_mem_remove {k : κ} {l : List (κ × ν)} {p : κ × ν} (h : p ∈ remove k l) :
    p ∈ l := by
  induction l with
  | nil => simp [remove] at h
  | cons q rest ih =>
    obtain ⟨k', v'⟩ := q
    simp only [remove] at h
    split at h
    · exact h
    · exact List.mem_cons_of_mem _ h
    · rcases List.mem_cons.1 h with h | h
      · exact h ▸ List.mem_cons_self
      · exact List.mem_cons_of_mem _ (ih h)

theorem place_ascending [Std.TransOrd κ] {k : κ} {v : ν} {l : List (κ × ν)}
    (h : l.Pairwise fun a b => compare a.1 b.1 = .lt) :
    (place k v l).Pairwise fun a b => compare a.1 b.1 = .lt := by
  induction l with
  | nil => simp [place]
  | cons q rest ih =>
    obtain ⟨k', v'⟩ := q
    obtain ⟨hq, hrest⟩ := List.pairwise_cons.1 h
    simp only [place]
    split
    · next hlt =>
      refine List.pairwise_cons.2 ⟨fun p hp => ?_, h⟩
      rcases List.mem_cons.1 hp with rfl | hp
      · exact hlt
      · exact Std.TransCmp.lt_trans hlt (hq p hp)
    · next heq =>
      exact List.pairwise_cons.2
        ⟨fun p hp => Std.TransCmp.lt_of_eq_of_lt heq (hq p hp), hrest⟩
    · next hgt =>
      refine List.pairwise_cons.2 ⟨fun p hp => ?_, ih hrest⟩
      rcases fst_mem_of_mem_place hp with rfl | hp
      · exact Std.OrientedCmp.lt_of_gt hgt
      · exact hq p hp

theorem remove_ascending {k : κ} {l : List (κ × ν)}
    (h : l.Pairwise fun a b => compare a.1 b.1 = .lt) :
    (remove k l).Pairwise fun a b => compare a.1 b.1 = .lt := by
  induction l with
  | nil => simp [remove]
  | cons q rest ih =>
    obtain ⟨k', v'⟩ := q
    obtain ⟨hq, hrest⟩ := List.pairwise_cons.1 h
    simp only [remove]
    split
    · exact h
    · exact hrest
    · exact List.pairwise_cons.2 ⟨fun p hp => hq p (mem_of_mem_remove hp), ih hrest⟩

/-! ## Operations -/

/-- The map without entries. -/
def empty : OrdMap κ ν := ⟨[], .nil⟩

instance : Inhabited (OrdMap κ ν) := ⟨empty⟩

/-- The value under a key. -/
def get? (m : OrdMap κ ν) (k : κ) : Option ν := lookup k m.entries

/-- Whether a key has a value. -/
def contains (m : OrdMap κ ν) (k : κ) : Bool := (m.get? k).isSome

/-- The number of keys. -/
def size (m : OrdMap κ ν) : Nat := m.entries.length

/-- Whether there are no keys. -/
def isEmpty (m : OrdMap κ ν) : Bool := m.entries.isEmpty

/-- The keys, ascending. -/
def keys (m : OrdMap κ ν) : List κ := m.entries.map (·.1)

/-- The entries that a test keeps. -/
def filter (m : OrdMap κ ν) (keep : κ → ν → Bool) : OrdMap κ ν :=
  ⟨m.entries.filter fun e => keep e.1 e.2, m.ascending.filter _⟩

/-- The map with every value replaced by one made from it. -/
def mapValues {ν' : Type} (m : OrdMap κ ν) (f : ν → ν') : OrdMap κ ν' :=
  ⟨m.entries.map fun e => (e.1, f e.2), by
    rw [List.pairwise_map]
    exact m.ascending⟩

/-- The map with the value under a key set. -/
def insert [Std.TransOrd κ] (m : OrdMap κ ν) (k : κ) (v : ν) : OrdMap κ ν :=
  ⟨place k v m.entries, place_ascending m.ascending⟩

/-- The map without a key. -/
def erase (m : OrdMap κ ν) (k : κ) : OrdMap κ ν :=
  ⟨remove k m.entries, remove_ascending m.ascending⟩

/-- The map with the value under a key set, or without the key. -/
def set [Std.TransOrd κ] (m : OrdMap κ ν) (k : κ) : Option ν → OrdMap κ ν
  | some v => m.insert k v
  | none => m.erase k

/-- The map of a list of entries; of two with one key the later counts. -/
def ofList [Std.TransOrd κ] (l : List (κ × ν)) : OrdMap κ ν :=
  l.foldl (fun m e => m.insert e.1 e.2) empty

/-! ## Look-ups -/

theorem lookup_eq_none {k : κ} {l : List (κ × ν)} (h : ∀ p ∈ l, compare k p.1 = .lt) :
    lookup k l = none := by
  cases l with
  | nil => rfl
  | cons p rest =>
    have := h p List.mem_cons_self
    obtain ⟨k', v'⟩ := p
    simp_all [lookup]

theorem lookup_place_self [Std.LawfulEqOrd κ] (k : κ) (v : ν) (l : List (κ × ν)) :
    lookup k (place k v l) = some v := by
  induction l with
  | nil => simp [place, lookup]
  | cons p rest ih =>
    obtain ⟨k', v'⟩ := p
    simp only [place]
    split
    · simp [lookup]
    · simp [lookup]
    · next h => simp [lookup, h, ih]

theorem lookup_remove_self [Std.TransOrd κ] {k : κ} {l : List (κ × ν)}
    (h : l.Pairwise fun a b => compare a.1 b.1 = .lt) : lookup k (remove k l) = none := by
  induction l with
  | nil => rfl
  | cons p rest ih =>
    obtain ⟨k', v'⟩ := p
    obtain ⟨hp, hrest⟩ := List.pairwise_cons.1 h
    simp only [remove]
    split
    · next hlt => simp [lookup, hlt]
    · next heq =>
      exact lookup_eq_none fun q hq => Std.TransCmp.lt_of_eq_of_lt heq (hp q hq)
    · next hgt => simp [lookup, hgt, ih hrest]

@[simp] theorem get?_empty (k : κ) : (empty : OrdMap κ ν).get? k = none := rfl

@[simp] theorem get?_erase_self [Std.TransOrd κ] (m : OrdMap κ ν) (k : κ) :
    (m.erase k).get? k = none :=
  lookup_remove_self m.ascending

theorem ext {a b : OrdMap κ ν} (h : a.entries = b.entries) : a = b := by
  cases a; cases b; cases h; rfl

variable [Std.TransOrd κ] [Std.LawfulEqOrd κ]

theorem lookup_place_of_ne {k j : κ} {v : ν} {l : List (κ × ν)} (hne : j ≠ k)
    (h : l.Pairwise fun a b => compare a.1 b.1 = .lt) :
    lookup j (place k v l) = lookup j l := by
  have hjk : compare j k ≠ .eq := fun e => hne (Std.LawfulEqCmp.eq_of_compare e)
  induction l with
  | nil =>
    simp only [place, lookup]
    split <;> simp_all
  | cons p rest ih =>
    obtain ⟨k', v'⟩ := p
    obtain ⟨hp, hrest⟩ := List.pairwise_cons.1 h
    simp only [place]
    split
    · next hlt =>
      rw [lookup]
      split
      · next hj => simp [lookup, Std.TransCmp.lt_trans hj hlt]
      · next hj => exact absurd hj hjk
      · rfl
    · next heq =>
      obtain rfl := Std.LawfulEqCmp.eq_of_compare heq
      simp only [lookup]
      split <;> simp_all
    · next hgt =>
      simp only [lookup]
      split <;> simp_all

theorem lookup_remove_of_ne {k j : κ} {l : List (κ × ν)} (hne : j ≠ k)
    (h : l.Pairwise fun a b => compare a.1 b.1 = .lt) :
    lookup j (remove k l) = lookup j l := by
  induction l with
  | nil => rfl
  | cons p rest ih =>
    obtain ⟨k', v'⟩ := p
    obtain ⟨hp, hrest⟩ := List.pairwise_cons.1 h
    simp only [remove]
    split
    · rfl
    · next heq =>
      obtain rfl := Std.LawfulEqCmp.eq_of_compare heq
      simp only [lookup]
      split
      · next hlt => exact lookup_eq_none fun q hq => Std.TransCmp.lt_trans hlt (hp q hq)
      · next hj => exact absurd (Std.LawfulEqCmp.eq_of_compare hj) hne
      · rfl
    · simp only [lookup]
      split <;> simp_all

@[simp] theorem get?_insert_self (m : OrdMap κ ν) (k : κ) (v : ν) :
    (m.insert k v).get? k = some v :=
  lookup_place_self k v m.entries

/-- **Setting one key leaves the others alone.** -/
theorem get?_insert_of_ne (m : OrdMap κ ν) {k j : κ} (v : ν) (h : j ≠ k) :
    (m.insert k v).get? j = m.get? j :=
  lookup_place_of_ne h m.ascending

theorem get?_insert [DecidableEq κ] (m : OrdMap κ ν) (k j : κ) (v : ν) :
    (m.insert k v).get? j = if j = k then some v else m.get? j := by
  split
  · next h => subst h; simp
  · next h => exact get?_insert_of_ne m v h

/-- **Removing one key leaves the others alone.** -/
theorem get?_erase_of_ne (m : OrdMap κ ν) {k j : κ} (h : j ≠ k) :
    (m.erase k).get? j = m.get? j :=
  lookup_remove_of_ne h m.ascending

theorem get?_erase [DecidableEq κ] (m : OrdMap κ ν) (k j : κ) :
    (m.erase k).get? j = if j = k then none else m.get? j := by
  split
  · next h => subst h; simp
  · next h => exact get?_erase_of_ne m h

/-- An entry of ascending entries is what its key looks up. -/
theorem lookup_eq_some_iff {k : κ} {v : ν} {l : List (κ × ν)}
    (h : l.Pairwise fun a b => compare a.1 b.1 = .lt) : lookup k l = some v ↔ (k, v) ∈ l := by
  induction l with
  | nil => simp [lookup]
  | cons p rest ih =>
    obtain ⟨k', v'⟩ := p
    obtain ⟨hp, hrest⟩ := List.pairwise_cons.1 h
    simp only [lookup]
    split
    · next hlt =>
      refine ⟨nofun, fun hm => ?_⟩
      rcases List.mem_cons.1 hm with heq | hm
      · cases heq; simp at hlt
      · have := Std.TransCmp.lt_trans hlt (hp _ hm)
        simp at this
    · next heq =>
      obtain rfl := Std.LawfulEqCmp.eq_of_compare heq
      refine ⟨fun h => Option.some.inj h ▸ List.mem_cons_self, fun hm => ?_⟩
      rcases List.mem_cons.1 hm with heq | hm
      · cases heq; rfl
      · have := hp _ hm
        simp at this
    · next hgt =>
      rw [ih hrest]
      refine ⟨fun h => List.mem_cons_of_mem _ h, fun hm => ?_⟩
      rcases List.mem_cons.1 hm with heq | hm
      · cases heq; simp at hgt
      · exact hm

theorem get?_eq_some_iff {m : OrdMap κ ν} {k : κ} {v : ν} :
    m.get? k = some v ↔ (k, v) ∈ m.entries :=
  lookup_eq_some_iff m.ascending

/-- **Maps that answer every look-up alike are equal.** -/
theorem ext_get? {a b : OrdMap κ ν} (h : ∀ k, a.get? k = b.get? k) : a = b := by
  have mem : ∀ e, e ∈ a.entries ↔ e ∈ b.entries := fun e => by
    rw [← get?_eq_some_iff (m := a) (k := e.1) (v := e.2), h, get?_eq_some_iff]
  have ha := a.ascending
  have hb := b.ascending
  apply ext
  generalize a.entries = l at *
  generalize b.entries = r at *
  induction l generalizing r with
  | nil =>
    cases r with
    | nil => rfl
    | cons e r => exact absurd ((mem e).2 List.mem_cons_self) (by simp)
  | cons e l ih =>
    cases r with
    | nil => exact absurd ((mem e).1 List.mem_cons_self) (by simp)
    | cons e' r =>
      obtain ⟨he, hl⟩ := List.pairwise_cons.1 ha
      obtain ⟨he', hr⟩ := List.pairwise_cons.1 hb
      have hee : e = e' := by
        rcases List.mem_cons.1 ((mem e).1 List.mem_cons_self) with h1 | h1
        · exact h1
        rcases List.mem_cons.1 ((mem e').2 List.mem_cons_self) with h2 | h2
        · exact h2.symm
        have := Std.TransCmp.lt_trans (he _ h2) (he' _ h1)
        simp at this
      subst hee
      congr 1
      refine ih hl r hr (fun x => ⟨fun hx => ?_, fun hx => ?_⟩)
      · rcases List.mem_cons.1 ((mem x).1 (List.mem_cons_of_mem _ hx)) with rfl | h1
        · have := he _ hx
          simp at this
        · exact h1
      · rcases List.mem_cons.1 ((mem x).2 (List.mem_cons_of_mem _ hx)) with rfl | h1
        · have := he' _ hx
          simp at this
        · exact h1

/-- Setting a key to the value that it has changes nothing. -/
theorem insert_of_get? {m : OrdMap κ ν} {k : κ} {v : ν} (h : m.get? k = some v) :
    m.insert k v = m := by
  classical
  refine ext_get? fun j => ?_
  rw [get?_insert]
  split
  · next hj => rw [hj, h]
  · rfl

end OrdMap

end DataGrid
