import DataGrid.Proofs.Region.Reference

/-!
# Simulation — commands do what the reference says

Entries that hold a store hold the store that the reference makes of it when a command has run, and
the command answers as the reference does (`Entries.run_does`). Each command is followed on the
value that it works on; slots, kinds and entities that become empty are dealt with once for all
commands of a kind (`Reference.On`). A pop that leaves members behind has to be given a fair draw
of those that go (`Command.draws`).
-/

namespace DataGrid

open Reference

/-! ## Values -/

namespace SetValue

variable {s : SetValue} {m : Bytes}

theorem mem_members : m ∈ s.members ↔ s.contains m := by
  rw [members, List.mem_toFinset]
  exact OrdSet.mem_toList

theorem card_members (s : SetValue) : s.members.card = s.size := by
  rw [members, List.toFinset_card_of_nodup s.toList_nodup]
  exact List.length_map _

theorem members_nonempty (s : SetValue) : s.members.Nonempty ↔ s.isEmpty = false := by
  rw [← Bool.not_eq_true, OrdSet.isEmpty_iff, Finset.Nonempty]
  simp [mem_members]

theorem members_addNew (s : SetValue) (list : List Bytes) :
    (addNew s list).1.members = s.members ∪ list.toFinset := by
  ext m
  simp [mem_members, contains_addNew, or_comm]

theorem length_addNew (s : SetValue) (list : List Bytes) :
    (addNew s list).2.length = (list.toFinset \ s.members).card := by
  rw [← List.toFinset_card_of_nodup (nodup_addNew s list)]
  congr 1
  ext m
  simp [mem_members, mem_addNew]

theorem members_removePresent (s : SetValue) (list : List Bytes) :
    (removePresent s list).1.members = s.members \ list.toFinset := by
  ext m
  simp [mem_members, contains_removePresent, and_comm]

theorem length_removePresent (s : SetValue) (list : List Bytes) :
    (removePresent s list).2.length = (s.members ∩ list.toFinset).card := by
  rw [← List.toFinset_card_of_nodup (nodup_removePresent s list)]
  congr 1
  ext m
  simp [mem_members, mem_removePresent, and_comm]

end SetValue

namespace ScoreTable

variable {z : ScoreTable} {m : Bytes}

theorem lookup_table (z : ScoreTable) (m : Bytes) : z.table.lookup m = z.get? m := by
  have hnodup : (z.entries.map fun e => (⟨e.1, e.2⟩ : Σ _ : Bytes, Binary64)).NodupKeys := by
    rw [List.NodupKeys, List.keys, List.map_map]
    exact OrdMap.keys_nodup z
  refine Option.ext fun x => ?_
  rw [table, Finmap.dlookup_list_toFinmap, OrdMap.get?_eq_some_iff, ← Option.mem_def,
    List.mem_dlookup_iff hnodup, List.mem_map]
  constructor
  · rintro ⟨e, he, heq⟩
    cases heq
    exact he
  · intro he
    exact ⟨_, he, rfl⟩

theorem table_ne_empty (z : ScoreTable) : z.table ≠ ∅ ↔ z.isEmpty = false := by
  rw [← Bool.not_eq_true, OrdMap.isEmpty_iff, Ne, not_iff_not]
  constructor
  · intro h m
    rw [← lookup_table, h, Finmap.lookup_empty]
  · intro h
    exact Finmap.ext_lookup fun m => by rw [lookup_table, h, Finmap.lookup_empty]

theorem table_insert (z : ScoreTable) (m : Bytes) (score : Binary64) :
    table (z.insert m score) = z.table.insert m score := by
  refine Finmap.ext_lookup fun j => ?_
  rw [lookup_table, OrdMap.get?_insert]
  split
  · next hj => rw [hj, Finmap.lookup_insert]
  · next hj => rw [Finmap.lookup_insert_of_ne _ hj, lookup_table]

theorem differs_table (z : ScoreTable) (m : Bytes) (score : Binary64) :
    differs z.table m score = isChange (z.get? m) score := by
  rw [differs, lookup_table]
  cases z.get? m <;> rfl

theorem scored_table (z : ScoreTable) (pairs : List (Bytes × Binary64)) :
    scored z.table pairs = ((storeAll z pairs).2.length, (storeAll z pairs).1.table) := by
  induction pairs generalizing z with
  | nil => rfl
  | cons pair rest ih =>
    obtain ⟨m, score⟩ := pair
    rw [scored, ← table_insert, ih, differs_table]
    simp only [storeAll]
    split <;> rfl

theorem lookup_foldl_erase (list : List Bytes) (t : Table) (m : Bytes) :
    (list.foldl (fun t m => t.erase m) t).lookup m = if m ∈ list then none else t.lookup m := by
  induction list generalizing t with
  | nil => rfl
  | cons n rest ih =>
    rw [List.foldl_cons, ih]
    by_cases hm : m = n
    · subst hm
      simp [Finmap.lookup_erase]
    · simp [hm, Finmap.lookup_erase_ne hm]

theorem foldl_erase_empty (list : List Bytes) :
    list.foldl (fun t m => t.erase m) (∅ : Table) = ∅ :=
  Finmap.ext_lookup fun m => by rw [lookup_foldl_erase, Finmap.lookup_empty, ite_self]

theorem table_removePresent (z : ScoreTable) (list : List Bytes) :
    (removePresent z list).1.table = list.foldl (fun t m => t.erase m) z.table := by
  refine Finmap.ext_lookup fun m => ?_
  rw [lookup_table, get?_removePresent, lookup_foldl_erase, lookup_table]

theorem length_removePresent (z : ScoreTable) (list : List Bytes) :
    (removePresent z list).2.length = (z.table.keys ∩ list.toFinset).card := by
  rw [← List.toFinset_card_of_nodup (nodup_removePresent z list)]
  congr 1
  ext m
  simp [mem_removePresent, Finmap.mem_keys, ← Finmap.lookup_isSome, lookup_table,
    OrdMap.contains_eq, and_comm]

end ScoreTable

/-! ## Forms -/

namespace Reference

variable {α β : Type}

/-- Whether contents of one shape are seen as a form sees the values that they stand for. -/
structure Form.Sees (form : Form α) (content : β → Content) (view : β → α) (blank : β) : Prop where
  kind : ∀ b, (content b).kind = form.kind
  injective : ∀ b b', content b = content b' → b = b'
  blank : view blank = form.blank
  put : ∀ b, (content b).value? = form.put? (view b)
  get : ∀ b value, (content b).value? = some value → form.get? value = some (view b)
  refuses : ∀ value, value.kind ≠ form.kind → form.get? value = none

theorem sets_sees : sets.Sees Content.set SetValue.members .empty where
  kind _ := rfl
  injective _ _ := Content.set.inj
  blank := rfl
  put _ := rfl
  get s value h := by
    simp only [Content.value?, sets] at h
    split at h
    · cases h
      rfl
    · cases h
  refuses value h := by
    cases value with
    | set => exact absurd rfl h
    | string | table => rfl

theorem strings_sees : strings.Sees Content.string StringValue.octets {} where
  kind _ := rfl
  injective _ _ := Content.string.inj
  blank := rfl
  put _ := rfl
  get s value h := by
    cases h
    rfl
  refuses value h := by
    cases value with
    | string => exact absurd rfl h
    | set | table => rfl

theorem tables_sees : tables.Sees Content.sortedSet ScoreTable.table .empty where
  kind _ := rfl
  injective _ _ := Content.sortedSet.inj
  blank := rfl
  put _ := rfl
  get z value h := by
    simp only [Content.value?, tables] at h
    split at h
    · cases h
      rfl
    · cases h
  refuses value h := by
    cases value with
    | table => exact absurd rfl h
    | set | string => rfl

end Reference

/-- A value is of the kind of its content. -/
theorem Content.kind_of_value? {content : Content} {value : Value}
    (h : content.value? = some value) : value.kind = content.kind := by
  cases content with
  | set s =>
    simp only [value?, sets] at h
    split at h <;> cases h
    rfl
  | string s =>
    cases h
    rfl
  | sortedSet z =>
    simp only [value?, tables] at h
    split at h <;> cases h
    rfl

theorem Content.isSome_value? (content : Content) : content.value?.isSome = !content.isEmpty := by
  cases content with
  | set s =>
    simp only [value?, sets, isEmpty]
    split
    · next h => rw [s.members_nonempty.1 h]; rfl
    · next h => rw [s.members_nonempty, Bool.not_eq_false] at h; rw [h]; rfl
  | string s => rfl
  | sortedSet z =>
    simp only [value?, tables, isEmpty]
    split
    · next h => rw [z.table_ne_empty.1 h]; rfl
    · next h => rw [z.table_ne_empty, Bool.not_eq_false] at h; rw [h]; rfl

/-! ## Slots -/

namespace Reference

variable {slot : Option Entity} {item : Option Item} {e : Entity}

theorem shows_none : Shows none none := rfl

/-- What is kept of an entity shows the item that it stands for. -/
theorem shows_kept (e : Entity) : Shows e.kept e.item? := by
  have hsome : e.item?.isSome = !e.isEmpty := by
    rw [Entity.item?, Option.isSome_map, Content.isSome_value?]
    rfl
  unfold Shows Entity.kept
  cases hitem : e.item? with
  | none =>
    rw [hitem] at hsome
    rw [if_pos (by simpa using hsome)]
    rfl
  | some item =>
    rw [hitem] at hsome
    rw [if_neg (by simpa using hsome), Option.map_some, hitem]
    rfl

theorem Shows.none_iff (h : Shows slot item) : slot = none ↔ item = none := by
  unfold Shows at h
  cases slot <;> cases item <;> simp_all

/-- An entity that shows an item has its value and its expiration. -/
theorem Shows.of_some (h : Shows (some e) item) :
    ∃ value, e.content.value? = some value ∧ item = some ⟨value, e.expiration⟩ := by
  unfold Shows at h
  cases item with
  | none => cases h
  | some item =>
    have hitem : e.item? = some item := Option.some.inj h
    rw [Entity.item?, Option.map_eq_some_iff] at hitem
    obtain ⟨value, hvalue, rfl⟩ := hitem
    exact ⟨value, hvalue, rfl⟩

/-! ## Commands for one kind -/

/-- What the result of a command's mutation has to be for what the reference says. -/
def Meets (spec : Except CommandError Answer → Option Item → Prop) (key : Bytes)
    (item : Option Item) : Except WrongKind (Answer × Change × Option Entity) → Prop
  | .ok (answer, _, left) => spec (.ok answer) (left.bind Entity.item?)
  | .error why => spec (.error (.wrongKind key why)) item

variable {α β : Type} {form : Form α} {content : β → Content} {view : β → α} {blank : β}
  {does : α → Answer → α → Prop} {key : Bytes} {answer : Answer}

/-- A command that works on a value of its kind. -/
theorem Form.Sees.on (hform : form.Sees content view blank) (hshows : Shows slot item) {b b' : β}
    (hs : Command.startsFrom slot (content blank) e) (hcontent : e.content = content b)
    (hdoes : does (view b) answer (view b')) :
    On form does key item (.ok answer) (Entity.item? { e with content := content b' }) := by
  rw [Entity.item?, hform.put]
  rcases hs with rfl | ⟨rfl, rfl⟩
  · obtain ⟨value, hvalue, rfl⟩ := hshows.of_some
    rw [hcontent] at hvalue
    exact .changed (hform.get b value hvalue) hdoes
  · obtain rfl := hshows.none_iff.1 rfl
    obtain rfl := hform.injective blank b hcontent
    rw [hform.blank] at hdoes
    exact .made hdoes

/-- A command that makes nothing where there is nothing. -/
theorem Form.Sees.nothing (hform : form.Sees content view blank) (hempty : (content blank).isEmpty)
    (hdoes : does form.blank answer form.blank) : On form does key none (.ok answer) none := by
  have hput : form.put? form.blank = none := by
    rw [← hform.blank, ← hform.put, ← Option.not_isSome_iff_eq_none, Content.isSome_value?, hempty]
    exact Bool.false_ne_true
  have hmade : On form does key none (.ok answer) ((form.put? form.blank).map (Item.mk · (-1))) :=
    .made hdoes
  rwa [hput] at hmade

/-- A command that meets a value of another kind. -/
theorem Form.Sees.refused (hform : form.Sees content view blank) (hshows : Shows (some e) item)
    (hkind : e.kind ≠ form.kind) :
    On form does key item (.error (.wrongKind key ⟨form.kind, e.kind⟩)) item := by
  obtain ⟨value, hvalue, rfl⟩ := hshows.of_some
  have hvalueKind := Content.kind_of_value? hvalue
  have hget := hform.refuses value (by rw [hvalueKind]; exact hkind)
  have hrefused : On form does key (some ⟨value, e.expiration⟩)
      (.error (.wrongKind key ⟨form.kind, value.kind⟩)) (some ⟨value, e.expiration⟩) :=
    .refused hget
  rwa [hvalueKind] at hrefused

theorem onSet_meets (hshows : Shows slot item) {f : SetValue → SetValue × Answer × Change}
    {does : Finset Bytes → Answer → Finset Bytes → Prop}
    (hdoes : ∀ s, (∀ e, slot = some e → e.content = .set s) →
      does s.members (f s).2.1 (f s).1.members) :
    Meets (On sets does key item) key item (Command.onSet slot f) := by
  cases slot with
  | none => exact sets_sees.on hshows (.inr ⟨rfl, rfl⟩) rfl (hdoes .empty nofun)
  | some e =>
    obtain ⟨content, expiration, staged⟩ := e
    cases content with
    | set s => exact sets_sees.on hshows (.inl rfl) rfl (hdoes s fun e he => by cases he; rfl)
    | string | sortedSet => exact sets_sees.refused hshows nofun

theorem onString_meets (hshows : Shows slot item) {f : StringValue → StringValue × Answer × Change}
    {does : Bytes → Answer → Bytes → Prop}
    (hdoes : ∀ s, does s.octets (f s).2.1 (f s).1.octets) :
    Meets (On strings does key item) key item (Command.onString slot f) := by
  cases slot with
  | none => exact strings_sees.on hshows (.inr ⟨rfl, rfl⟩) rfl (hdoes {})
  | some e =>
    obtain ⟨content, expiration, staged⟩ := e
    cases content with
    | string s => exact strings_sees.on hshows (.inl rfl) rfl (hdoes s)
    | set | sortedSet => exact strings_sees.refused hshows nofun

theorem onSortedSet_meets (hshows : Shows slot item)
    {f : ScoreTable → ScoreTable × Answer × Change} {does : Table → Answer → Table → Prop}
    (hdoes : ∀ z, does z.table (f z).2.1 (f z).1.table) :
    Meets (On tables does key item) key item (Command.onSortedSet slot f) := by
  cases slot with
  | none => exact tables_sees.on hshows (.inr ⟨rfl, rfl⟩) rfl (hdoes .empty)
  | some e =>
    obtain ⟨content, expiration, staged⟩ := e
    cases content with
    | sortedSet z => exact tables_sees.on hshows (.inl rfl) rfl (hdoes z)
    | set | string => exact tables_sees.refused hshows nofun

end Reference

/-! ## All commands -/

/-- **Whether a command is given a fair draw for a slot.** A pop that leaves members behind has to
be told as many to take as it asks for, each once and all of them there. -/
def Command.draws (c : Command) (slot : Option Entity) : Bool :=
  match c, slot with
  | .spop count chosen, some { content := .set s, .. } =>
    s.size ≤ count || count == 0
      || (decide chosen.Nodup && chosen.length == count && chosen.all s.contains)
  | _, _ => true

/-- A fair draw takes as many members as it should, each once, and no others. -/
theorem SetValue.pop_fair {s : SetValue} {count : Nat} {chosen : List Bytes}
    (hfair : (s.size ≤ count || count == 0
      || (decide chosen.Nodup && chosen.length == count && chosen.all s.contains)) = true) :
    (s.pop count chosen).2.1.Nodup ∧ (s.pop count chosen).2.1.toFinset ⊆ s.members
      ∧ (s.pop count chosen).2.1.length = min count s.members.card
      ∧ (s.pop count chosen).1.members = s.members \ (s.pop count chosen).2.1.toFinset := by
  rw [card_members]
  unfold pop
  by_cases hnone : (s.isEmpty || count == 0) = true
  · rw [if_pos hnone]
    have hmin : min count s.size = 0 := by
      rw [Bool.or_eq_true, beq_iff_eq] at hnone
      rcases hnone with hempty | rfl
      · have hnil := OrdMap.eq_nil_of_isEmpty (m := s.map) hempty
        have hsize : s.size = 0 := by
          rw [OrdSet.size, OrdMap.size, hnil]
          rfl
        omega
      · omega
    exact ⟨.nil, by simp, hmin.symm, by simp⟩
  rw [if_neg hnone]
  by_cases hall : s.size ≤ count
  · rw [if_pos hall]
    refine ⟨s.toList_nodup, fun m hm => hm, ?_, ?_⟩
    · have hlength : s.toList.length = s.size := List.length_map _
      rw [hlength]
      omega
    · exact (Finset.sdiff_self s.members).symm
  · rw [if_neg hall]
    have hcount : count ≠ 0 := fun h => hnone (by simp [h])
    simp only [hall, decide_false, Bool.false_or, beq_eq_false_iff_ne.2 hcount,
      Bool.and_eq_true, decide_eq_true_eq, beq_iff_eq, List.all_eq_true] at hfair
    obtain ⟨⟨hnodup, hlength⟩, hthere⟩ := hfair
    refine ⟨hnodup, fun m hm => ?_, ?_, ?_⟩
    · exact mem_members.2 (hthere m (List.mem_toFinset.1 hm))
    · change chosen.length = _
      omega
    · ext m
      simp [mem_members, and_comm]

namespace Command

variable {slot : Option Entity} {item : Option Item} {c : Command}

/-- How many members a command counts that reports what it touched. -/
theorem counted_ite {α : Type} {l : List α} {d : Delta} (h : d.count = l.length) :
    (counted (if l.isEmpty then none else some d)).1 = .count l.length := by
  split
  · next hempty => rw [List.isEmpty_iff.1 hempty]; rfl
  · exact congrArg Answer.count h

/-- **A command does to a slot what the reference says of the item that the slot shows.** -/
theorem mutate_meets (key : Bytes) (hshows : Shows slot item) (hdraws : c.draws slot) :
    Meets (Does key c item) key item (c.mutate slot) := by
  cases c with
  | sadd members =>
    simp only [mutate, Does]
    refine onSet_meets hshows fun s _ => ⟨?_, s.members_addNew members⟩
    rw [← s.length_addNew members]
    exact counted_ite rfl
  | srem members =>
    cases slot with
    | none =>
      obtain rfl := hshows.none_iff.1 rfl
      exact sets_sees.nothing rfl
        ⟨congrArg (fun s => Answer.count (Finset.card s)) (Finset.empty_inter _).symm,
          (Finset.empty_sdiff _).symm⟩
    | some e =>
      simp only [mutate, Does, Option.isNone_some, Bool.false_eq_true, if_false]
      refine onSet_meets hshows fun s _ => ⟨?_, s.members_removePresent members⟩
      rw [← s.length_removePresent members]
      exact counted_ite rfl
  | spop count chosen =>
    cases slot with
    | none =>
      obtain rfl := hshows.none_iff.1 rfl
      exact sets_sees.nothing rfl
        ⟨[], .nil, Finset.empty_subset _, (Nat.min_zero count).symm, rfl,
          (Finset.empty_sdiff _).symm⟩
    | some e =>
      simp only [mutate, Does, Option.isNone_some, Bool.false_eq_true, if_false]
      refine onSet_meets hshows fun s hs => ?_
      obtain ⟨content, expiration, staged⟩ := e
      obtain rfl : content = .set s := hs _ rfl
      obtain ⟨hnodup, hsub, hlength, hleft⟩ := SetValue.pop_fair hdraws
      exact ⟨_, hnodup, hsub, hlength, rfl, hleft⟩
  | set octets =>
    cases slot with
    | none =>
      obtain rfl := hshows.none_iff.1 rfl
      exact ⟨rfl, rfl⟩
    | some e =>
      obtain ⟨value, hvalue, rfl⟩ := hshows.of_some
      obtain ⟨content, expiration, staged⟩ := e
      have hkind := Content.kind_of_value? hvalue
      -- The expiration stays exactly if the content is a string, and then so is the value.
      cases content <;> cases value <;> first | exact ⟨rfl, rfl⟩ | cases hkind
  | append octets =>
    simp only [mutate, Does]
    exact onString_meets hshows fun s => ⟨rfl, rfl⟩
  | zadd pairs =>
    simp only [mutate, Does]
    refine onSortedSet_meets hshows fun z => ?_
    rw [z.scored_table pairs]
    exact ⟨counted_ite rfl, rfl⟩
  | zrem members =>
    cases slot with
    | none =>
      obtain rfl := hshows.none_iff.1 rfl
      exact tables_sees.nothing rfl
        ⟨congrArg (fun s => Answer.count (Finset.card s)) (Finset.empty_inter _).symm,
          (ScoreTable.foldl_erase_empty members).symm⟩
    | some e =>
      simp only [mutate, Does, Option.isNone_some, Bool.false_eq_true, if_false]
      refine onSortedSet_meets hshows fun z => ⟨?_, z.table_removePresent members⟩
      rw [← z.length_removePresent members]
      exact counted_ite rfl
  | expireAt time now =>
    cases slot with
    | none =>
      obtain rfl := hshows.none_iff.1 rfl
      exact ⟨rfl, (ite_self none).symm⟩
    | some e =>
      obtain ⟨value, hvalue, rfl⟩ := hshows.of_some
      simp only [mutate, Entity.expireOrRemove, Entity.expireAt]
      by_cases hpassed : time ≤ now
      · rw [if_pos hpassed]
        exact ⟨rfl, (if_pos hpassed).symm⟩
      · rw [if_neg hpassed]
        refine ⟨rfl, ?_⟩
        rw [if_neg hpassed, Option.bind_some, Entity.item?, hvalue]
        rfl
  | persist =>
    cases slot with
    | none =>
      obtain rfl := hshows.none_iff.1 rfl
      exact ⟨rfl, rfl⟩
    | some e =>
      obtain ⟨value, hvalue, rfl⟩ := hshows.of_some
      simp only [mutate, Entity.persist, Entity.expireAt]
      by_cases hnever : e.expiration = Entity.never
      · rw [if_pos hnever]
        refine ⟨?_, ?_⟩
        · simp [hnever, Entity.never]
        · rw [Option.bind_some, Entity.item?, hvalue, hnever]
          rfl
      · rw [if_neg hnever]
        refine ⟨?_, ?_⟩
        · have hne : e.expiration ≠ -1 := hnever
          simp [hne]
        · rw [Option.bind_some, Entity.item?, hvalue]
          rfl
  | delete =>
    refine ⟨?_, rfl⟩
    have hsome : slot.isSome = item.isSome := by
      rw [Bool.eq_iff_iff, ← not_iff_not, Option.not_isSome_iff_eq_none,
        Option.not_isSome_iff_eq_none]
      exact hshows.none_iff
    rw [hsome]

end Command

namespace Entries

variable {entries : Entries} {contents : Contents}

theorem holds_empty : Holds .empty fun _ => none := fun _ => rfl

/-- Entries in which one slot shows another item. -/
theorem Holds.set (h : entries.Holds contents) (key : Bytes) {slot : Option Entity}
    {item : Option Item} (hshows : Shows slot item) :
    Holds (entries.set key slot) (Function.update contents key item) := by
  intro k
  rw [OrdMap.get?_set, Function.update_apply]
  split
  · exact hshows
  · exact h k

/-- **A command does to entries what the reference does to the store that they hold**, and answers
alike. -/
theorem run_does (htidy : entries.Tidy) (hholds : entries.Holds contents) (key : Bytes)
    {c : Command} (hdraws : c.draws (entries.get? key)) :
    ∃ after, Does key c (contents key) ((entries.run key c).1.map Prod.fst) after
      ∧ (entries.run key c).2.Tidy
      ∧ (entries.run key c).2.Holds (Function.update contents key after) := by
  have hmeets := c.mutate_meets key (hholds key) hdraws
  cases hmutate : c.mutate (entries.get? key) with
  | error why =>
    rw [htidy.run_refused hmutate]
    rw [hmutate] at hmeets
    refine ⟨contents key, hmeets, htidy, ?_⟩
    rw [Function.update_eq_self]
    exact hholds
  | ok result =>
    obtain ⟨answer, change, left⟩ := result
    obtain ⟨hsuits, hrun⟩ := htidy.run_ok hmutate
    rw [hrun]
    rw [hmutate] at hmeets
    refine ⟨left.bind Entity.item?, hmeets, htidy.set key fun e he => (hsuits e he).staged,
      hholds.set key ?_⟩
    cases left with
    | none => exact shows_none
    | some e => exact shows_kept e

end Entries

end DataGrid
