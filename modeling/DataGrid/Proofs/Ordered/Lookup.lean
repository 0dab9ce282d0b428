import DataGrid.Ordered.Set

/-!
# Ordered maps by their look-ups

What the remaining operations of ordered maps and sets do to a look-up, and the map of what a
function finds at listed keys (`OrdMap.collect`). A map is known by its look-ups, so these
equations are all that the rest of the theory reads of a map.
-/

namespace DataGrid

namespace OrdMap

variable {κ ν : Type} [Ord κ]

theorem contains_eq (m : OrdMap κ ν) (k : κ) : m.contains k = (m.get? k).isSome := rfl

theorem eq_nil_of_isEmpty {m : OrdMap κ ν} (h : m.isEmpty) : m.entries = [] :=
  List.isEmpty_iff.1 h

/-- The keys ascend strictly. -/
theorem keys_ascending (m : OrdMap κ ν) : m.keys.Pairwise fun a b => compare a b = .lt := by
  rw [keys, List.pairwise_map]
  exact m.ascending

theorem keys_nodup [Std.LawfulEqOrd κ] (m : OrdMap κ ν) : m.keys.Nodup :=
  m.keys_ascending.imp fun {a b} h hab => by
    rw [hab, Std.ReflOrd.compare_self] at h
    cases h

variable [Std.TransOrd κ] [Std.LawfulEqOrd κ]

/-- A map is empty when no key has a value. -/
theorem isEmpty_iff {m : OrdMap κ ν} : m.isEmpty ↔ ∀ k, m.get? k = none := by
  constructor
  · intro h k
    rw [get?, eq_nil_of_isEmpty h]
    rfl
  · intro h
    rw [isEmpty, List.isEmpty_iff]
    rcases hm : m.entries with _ | ⟨e, rest⟩
    · rfl
    · have he : m.get? e.1 = some e.2 := get?_eq_some_iff.2 (hm ▸ List.mem_cons_self)
      rw [h] at he
      cases he

theorem mem_keys {m : OrdMap κ ν} {k : κ} : k ∈ m.keys ↔ m.contains k := by
  simp only [keys, List.mem_map, contains_eq, Option.isSome_iff_exists, get?_eq_some_iff]
  constructor
  · rintro ⟨e, he, rfl⟩
    exact ⟨e.2, he⟩
  · rintro ⟨v, h⟩
    exact ⟨(k, v), h, rfl⟩

theorem get?_filter (m : OrdMap κ ν) (keep : κ → ν → Bool) (k : κ) :
    (m.filter keep).get? k = (m.get? k).filter (keep k) := by
  refine Option.ext fun v => ?_
  rw [get?_eq_some_iff, Option.filter_eq_some_iff, get?_eq_some_iff]
  exact List.mem_filter

theorem get?_mapValues {ν' : Type} (m : OrdMap κ ν) (f : ν → ν') (k : κ) :
    (m.mapValues f).get? k = (m.get? k).map f := by
  refine Option.ext fun v => ?_
  rw [get?_eq_some_iff, Option.map_eq_some_iff]
  simp only [mapValues, List.mem_map, get?_eq_some_iff, Prod.mk.injEq]
  constructor
  · rintro ⟨e, he, rfl, rfl⟩
    exact ⟨e.2, he, rfl⟩
  · rintro ⟨u, hu, rfl⟩
    exact ⟨(k, u), hu, rfl, rfl⟩

variable [DecidableEq κ]

theorem get?_set (m : OrdMap κ ν) (k j : κ) (v : Option ν) :
    (m.set k v).get? j = if j = k then v else m.get? j := by
  cases v with
  | none => exact get?_erase m k j
  | some v => exact get?_insert m k j v

/-- Setting a value, if there is one to set. -/
theorem get?_elim_insert (m : OrdMap κ ν) (k j : κ) (v : Option ν) :
    (v.elim m (m.insert k)).get? j = if j = k then v.or (m.get? k) else m.get? j := by
  cases v with
  | none => split <;> simp_all
  | some v => simp [get?_insert]

/-- Undoing the insertion of a new key. -/
theorem erase_insert_of_get?_eq_none {m : OrdMap κ ν} {k : κ} (v : ν) (h : m.get? k = none) :
    (m.insert k v).erase k = m := by
  refine ext_get? fun j => ?_
  rw [get?_erase, get?_insert]
  split
  · next hj => rw [hj, h]
  · rfl

/-! ## Entries in their order -/

omit [Std.LawfulEqOrd κ] [DecidableEq κ] in
/-- A key past all others goes behind them. -/
theorem place_of_forall_lt {k : κ} {v : ν} {l : List (κ × ν)} (h : ∀ e ∈ l, compare e.1 k = .lt) :
    place k v l = l ++ [(k, v)] := by
  induction l with
  | nil => rfl
  | cons e rest ih =>
    have hgt : compare k e.1 = .gt := Std.OrientedCmp.gt_of_lt (h e List.mem_cons_self)
    obtain ⟨k', v'⟩ := e
    simp only [place, hgt, List.cons_append]
    rw [ih fun e he => h e (List.mem_cons_of_mem _ he)]

omit [Std.LawfulEqOrd κ] [DecidableEq κ] in
/-- **The entries of a map make the map.** -/
theorem ofList_entries (m : OrdMap κ ν) : ofList m.entries = m := by
  have hfold : ∀ (l : List (κ × ν)) (m : OrdMap κ ν),
      (m.entries ++ l).Pairwise (fun a b => compare a.1 b.1 = .lt) →
      (l.foldl (fun m e => m.insert e.1 e.2) m).entries = m.entries ++ l := by
    intro l
    induction l with
    | nil => intro m _; simp
    | cons e rest ih =>
      intro m hm
      have hlast : (m.insert e.1 e.2).entries = m.entries ++ [e] :=
        place_of_forall_lt fun a ha => (List.pairwise_append.1 hm).2.2 a ha e List.mem_cons_self
      rw [List.foldl_cons, ih, hlast, List.append_assoc, List.singleton_append]
      rwa [hlast, List.append_assoc, List.singleton_append]
  exact ext (hfold m.entries empty m.ascending)

/-! ## Collecting -/

/-- What a function finds at listed keys. -/
def collect (keys : List κ) (find : κ → Option ν) : OrdMap κ ν :=
  keys.foldl (fun m k => m.set k (find k)) empty

theorem get?_collect (keys : List κ) (find : κ → Option ν) (j : κ) :
    (collect keys find).get? j = if j ∈ keys then find j else none := by
  have h : ∀ (l : List κ) (m : OrdMap κ ν),
      (l.foldl (fun m k => m.set k (find k)) m).get? j = if j ∈ l then find j else m.get? j := by
    intro l
    induction l with
    | nil => intro m; simp
    | cons k l ih =>
      intro m
      rw [List.foldl_cons, ih, get?_set]
      by_cases hl : j ∈ l
      · simp [hl]
      · by_cases hk : j = k
        · subst hk; simp
        · simp [hl, hk]
  exact h keys empty

end OrdMap

namespace OrdSet

variable {κ : Type} [Ord κ]

theorem toList_ascending (s : OrdSet κ) : s.toList.Pairwise fun a b => compare a b = .lt :=
  s.map.keys_ascending

variable [Std.LawfulEqOrd κ]

theorem toList_nodup (s : OrdSet κ) : s.toList.Nodup := s.map.keys_nodup

variable [Std.TransOrd κ]

/-- A set is empty when nothing is a member. -/
theorem isEmpty_iff {s : OrdSet κ} : s.isEmpty ↔ ∀ k, s.contains k = false := by
  simp only [isEmpty, OrdMap.isEmpty_iff, contains, OrdMap.contains_eq, Option.isSome_eq_false_iff,
    Option.isNone_iff_eq_none]

theorem contains_filter (s : OrdSet κ) (keep : κ → Bool) (k : κ) :
    (s.filter keep).contains k = (s.contains k && keep k) := by
  rw [contains, filter, OrdMap.contains_eq, OrdMap.get?_filter, contains, OrdMap.contains_eq]
  cases s.map.get? k <;> cases keep k <;> simp

/-- The members of a set make the set. -/
theorem ofList_toList [DecidableEq κ] (s : OrdSet κ) : ofList s.toList = s :=
  ext_contains fun k => by
    rw [contains_ofList, Bool.eq_iff_iff, decide_eq_true_iff]
    exact mem_toList

end OrdSet

end DataGrid
