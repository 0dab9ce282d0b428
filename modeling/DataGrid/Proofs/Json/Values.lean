import DataGrid.Proofs.Json.Exceptions
import DataGrid.Proofs.Json.Floats

/-!
# Values — what is written is read, up to a depth

The text of a value is read to its end, whatever the value is, if no more lists and objects are
open at once than there is room for; and it is refused if there are more (`Json.readsBack`).
What is read is the value with each number as its text spells it, and with the fields of each
object in their order (`Json.readBack`). A value without floating-point numbers whose fields are in
order is read as it was (`Json.Exact.readBack_eq`).
-/

namespace DataGrid

/-- The value that the text of a number is read as: null, if it is no number's text. -/
def JsonNumber.readBack (n : JsonNumber) : Json :=
  match (Numeral.read? (Json.writeNumber n)).bind (·.1.value?) with
  | some number => .number number
  | none => .null

namespace Json

mutual

/-- How many lists and objects of a value are open at once. -/
def depth : Json → Nat
  | .list items => depthItems items + 1
  | .object fields => depthFields fields + 1
  | _ => 0

/-- How many lists and objects of the values of a list are open at once. -/
def depthItems : List Json → Nat
  | [] => 0
  | item :: rest => max item.depth (depthItems rest)

/-- How many lists and objects of the values of fields are open at once. -/
def depthFields : List (String × Json) → Nat
  | [] => 0
  | (_, value) :: rest => max value.depth (depthFields rest)

end

mutual

/-- The value that the text of a value is read as. -/
def readBack : Json → Json
  | .number n => n.readBack
  | .list items => .list (readBackItems items)
  | .object fields => ofFields (readBackFields fields)
  | .null => .null
  | .bool b => .bool b
  | .text s => .text s

/-- What the texts of the values of a list are read as. -/
def readBackItems : List Json → List Json
  | [] => []
  | item :: rest => item.readBack :: readBackItems rest

/-- What the texts of the values of fields are read as. -/
def readBackFields : List (String × Json) → List (String × Json)
  | [] => []
  | (name, value) :: rest => (name, value.readBack) :: readBackFields rest

end

variable {rest : Bytes} {fuel room : Nat}

/-! ## Values in front of others -/

/-- A number in front of what follows it is read to its end. -/
theorem value?_numeral {numeral : Numeral} {number : JsonNumber} (h : numeral.Proper)
    (hvalue : numeral.value? = some number) (hrest : Closes rest) (fuel room : Nat) :
    value? (fuel + 1) room (numeral.octets ++ rest) = some (.number number, rest) := by
  obtain ⟨byte, tail, heq, hbyte⟩ := Numeral.exists_first h
  have hother : byte ≠ 0x22 ∧ byte ≠ 0x5B ∧ byte ≠ 0x7B ∧ byte ≠ 0x6E ∧ byte ≠ 0x74
      ∧ byte ≠ 0x66 := by
    have hall : ∀ d : Fin 10, Numeral.octet d.val ≠ 0x22 ∧ Numeral.octet d.val ≠ 0x5B
        ∧ Numeral.octet d.val ≠ 0x7B ∧ Numeral.octet d.val ≠ 0x6E ∧ Numeral.octet d.val ≠ 0x74
        ∧ Numeral.octet d.val ≠ 0x66 := by decide
    rcases hbyte with rfl | ⟨d, rfl⟩
    · decide
    · exact hall d
  obtain ⟨hquote, hbracket, hbrace, hnull, htrue, hfalse⟩ := hother
  have hread := Numeral.spells_octets h rest hrest
  rw [value?, skipBlanks_octets h, heq, List.cons_append]
  rw [heq, List.cons_append] at hread
  dsimp only
  rw [if_neg hquote, if_neg hbracket, if_neg hbrace, if_neg hnull, if_neg htrue, if_neg hfalse,
    hread]
  simp only [Option.bind_eq_bind, Option.bind_some, hvalue]
  rfl

theorem value?_text (s : String) (rest : Bytes) (fuel room : Nat) :
    value? (fuel + 1) room (quote s ++ rest) = some (.text s, rest) := by
  rw [value?, quote_append, skipBlanks_cons (by decide)]
  dsimp only
  rw [if_pos rfl, stringBody?_quoted]
  rfl

theorem value?_null (rest : Bytes) (fuel room : Nat) :
    value? (fuel + 1) room (nullWord ++ rest) = some (.null, rest) := rfl

theorem value?_bool (b : Bool) (rest : Bytes) (fuel room : Nat) :
    value? (fuel + 1) room (write (.bool b) ++ rest) = some (.bool b, rest) := by
  cases b <;> rfl

/-- A number whose text is a numeral is read as the number that the numeral stands for. -/
theorem readBack_of_numeral {n number : JsonNumber} {numeral : Numeral} (h : numeral.Proper)
    (hvalue : numeral.value? = some number) (htext : writeNumber n = numeral.octets) :
    n.readBack = .number number := by
  have hread := Numeral.spells_octets h [] .nil
  rw [List.append_nil] at hread
  rw [JsonNumber.readBack, htext, hread, Option.bind_some, hvalue]

/-- The text of a number is a numeral that stands for a number, or null. -/
theorem exists_numeral (n : JsonNumber) :
    (∃ numeral : Numeral, numeral.Proper ∧ (∃ number, numeral.value? = some number)
      ∧ writeNumber n = numeral.octets) ∨ writeNumber n = nullWord ∧ n.readBack = .null := by
  cases n with
  | natural n =>
    obtain ⟨numeral, hproper, hvalue, htext⟩ := Numeral.exists_natural n
    exact .inl ⟨numeral, hproper, ⟨_, hvalue⟩, htext⟩
  | negative n =>
    refine .inl ?_
    by_cases hn : n.toInt < 0
    · obtain ⟨numeral, hproper, hvalue, htext⟩ := Numeral.exists_negative hn
      exact ⟨numeral, hproper, ⟨_, hvalue⟩, htext⟩
    · obtain ⟨numeral, hproper, hvalue, htext⟩ :=
        Numeral.exists_natural (UInt64.ofNat n.toInt.toNat)
      refine ⟨numeral, hproper, ⟨_, hvalue⟩, ?_⟩
      have hlt := n.toInt_lt
      have hsize : UInt64.size = 18446744073709551616 := rfl
      have hsame : toString n.toInt = toString n.toInt.toNat := by
        obtain ⟨m, hm⟩ := Int.eq_ofNat_of_zero_le (Int.not_lt.1 hn)
        rw [hm]
        rfl
      rw [← htext, writeNumber, writeNumber, UInt64.toNat_ofNat_of_lt' (by omega), hsame]
  | float x =>
    by_cases hx : x.isFinite = true
    · obtain ⟨numeral, hproper, hvalue, htext⟩ := Numeral.exists_text hx
      exact .inl ⟨numeral, hproper, hvalue, by rw [writeNumber, if_pos hx, htext]⟩
    · have htext : writeNumber (.float x) = nullWord := by
        rw [writeNumber, if_neg hx]
        decide
      refine .inr ⟨htext, ?_⟩
      rw [JsonNumber.readBack, htext]
      rfl

/-- **The text of a number is read to its end.** -/
theorem value?_number (n : JsonNumber) (hrest : Closes rest) (fuel room : Nat) :
    value? (fuel + 1) room (writeNumber n ++ rest) = some (n.readBack, rest) := by
  rcases exists_numeral n with ⟨numeral, hproper, ⟨number, hvalue⟩, htext⟩ | ⟨htext, hback⟩
  · rw [readBack_of_numeral hproper hvalue htext, htext]
    exact value?_numeral hproper hvalue hrest fuel room
  · rw [htext, hback]
    exact value?_null rest fuel room

/-! ## Lists and objects -/

/-- The text of a value begins with no blank and with no end of a list. -/
theorem write_first (v : Json) : ∃ byte tail, write v = byte :: tail ∧ isBlank byte = false
    ∧ byte ≠ 0x5D := by
  cases v with
  | null => exact ⟨_, _, rfl, by decide, by decide⟩
  | bool b => cases b <;> exact ⟨_, _, rfl, by decide, by decide⟩
  | number n =>
    rcases exists_numeral n with ⟨numeral, hproper, -, htext⟩ | ⟨htext, -⟩
    · obtain ⟨byte, tail, heq, hbyte⟩ := Numeral.exists_first hproper
      refine ⟨byte, tail, by rw [write, htext, heq], ?_⟩
      have hall : ∀ d : Fin 10, isBlank (Numeral.octet d.val) = false
          ∧ Numeral.octet d.val ≠ 0x5D := by decide
      rcases hbyte with rfl | ⟨d, rfl⟩
      · decide
      · exact hall d
    · exact ⟨_, _, by rw [write, htext]; rfl, by decide, by decide⟩
  | text s => exact ⟨_, _, by rw [write, quote], by decide, by decide⟩
  | list items => exact ⟨_, _, by rw [write], by decide, by decide⟩
  | object fields => exact ⟨_, _, by rw [write], by decide, by decide⟩

/-- A list is opened, if there is room for it. -/
theorem value?_list (fuel room : Nat) (tail : Bytes) : value? (fuel + 1) room (0x5B :: tail)
    = match room with
      | 0 => none
      | room + 1 =>
        match mark? 0x5D tail with
        | some rest => some (.list [], rest)
        | none => itemsOnto fuel room [] tail := rfl

/-- An object is opened, if there is room for it. -/
theorem value?_object (fuel room : Nat) (tail : Bytes) : value? (fuel + 1) room (0x7B :: tail)
    = match room with
      | 0 => none
      | room + 1 =>
        match mark? 0x7D tail with
        | some rest => some (.object [], rest)
        | none => fieldsOnto fuel room [] tail := rfl

theorem joined_writeItems (item : Json) {items : List Json} (h : items ≠ []) :
    joined (writeItems (item :: items)) = write item ++ 0x2C :: joined (writeItems items) := by
  cases items with
  | nil => exact absurd rfl h
  | cons second items => rfl

theorem joined_writeFields (name : String) (value : Json) {fields : List (String × Json)}
    (h : fields ≠ []) : joined (writeFields ((name, value) :: fields))
      = quote name ++ 0x3A :: (write value ++ 0x2C :: joined (writeFields fields)) := by
  rw [writeFields, joined_cons _ (writeFields_ne_nil h), List.append_assoc, List.cons_append]

theorem mark?_items (item : Json) (items : List Json) (rest : Bytes) :
    mark? 0x5D (joined (writeItems (item :: items)) ++ rest) = none := by
  obtain ⟨byte, tail, heq, hblank, hend⟩ := write_first item
  by_cases h : items = []
  · subst h
    rw [writeItems, writeItems, joined, heq]
    exact mark?_other hblank hend _
  · rw [joined_writeItems item h, heq]
    exact mark?_other hblank hend _

theorem mark?_fields (name : String) (value : Json) (fields : List (String × Json))
    (rest : Bytes) :
    mark? 0x7D (joined (writeFields ((name, value) :: fields)) ++ rest) = none := by
  obtain ⟨tail, htail⟩ : ∃ tail,
      joined (writeFields ((name, value) :: fields)) = 0x22 :: tail := by
    rw [writeFields]
    cases writeFields fields <;> exact ⟨_, rfl⟩
  rw [htail]
  exact mark?_other (by decide) (by decide) _

/-- Whether the text of a value is read to its end, if there is room for as many lists and objects
as are open at once, and is refused if there is not. -/
def ReadsBack (v : Json) : Prop :=
  ∀ rest, Closes rest → ∀ fuel room, 2 * (write v).length ≤ fuel →
    value? fuel room (write v ++ rest)
      = if v.depth ≤ room then some (v.readBack, rest) else none

/-- There is room for two if there is room for the larger. -/
theorem ite_max_le {α : Type} (a b room : Nat) (x : Option α) :
    (if a ≤ room then if b ≤ room then x else none else none)
      = if max a b ≤ room then x else none := by
  simp only [Nat.max_le, ite_and]

/-- An item is read, if there is room for it, and then what follows it. -/
theorem itemsOnto_item {item : Json} (h : item.ReadsBack) (done : List Json) {rest : Bytes}
    (hrest : Closes rest) {fuel : Nat} (hfuel : 2 * (write item).length ≤ fuel) (room : Nat) :
    itemsOnto (fuel + 1) room done (write item ++ rest)
      = if item.depth ≤ room then
          match skipBlanks rest with
          | [] => none
          | byte :: rest =>
            if byte = 0x2C then itemsOnto fuel room (item.readBack :: done) rest
            else if byte = 0x5D then some (.list (item.readBack :: done).reverse, rest)
            else none
        else none := by
  rw [itemsOnto, h rest hrest fuel room hfuel]
  by_cases hdepth : item.depth ≤ room
  · rw [if_pos hdepth]
    exact (if_pos hdepth).symm
  · rw [if_neg hdepth, if_neg hdepth]

/-- The items of a list are read up to its end, if each of them is. -/
theorem itemsOnto_write {items : List Json} (h : ∀ item ∈ items, item.ReadsBack)
    (hnonempty : items ≠ []) (done : List Json) (rest : Bytes) {fuel : Nat}
    (hfuel : 2 * (joined (writeItems items)).length + 1 ≤ fuel) (room : Nat) :
    itemsOnto fuel room done (joined (writeItems items) ++ 0x5D :: rest)
      = if depthItems items ≤ room then
          some (.list (done.reverse ++ readBackItems items), rest)
        else none := by
  induction items generalizing done fuel with
  | nil => exact absurd rfl hnonempty
  | cons item items ih =>
    obtain ⟨fuel, rfl⟩ : ∃ n, fuel = n + 1 := ⟨fuel - 1, by omega⟩
    have hitem := h item List.mem_cons_self
    by_cases hlast : items = []
    · -- The list ends behind the item.
      subst hlast
      have htext : joined (writeItems [item]) = write item := rfl
      have hdepth : depthItems [item] = item.depth := by rw [depthItems, depthItems, Nat.max_zero]
      rw [htext] at hfuel ⊢
      rw [itemsOnto_item hitem done (.bracket rest) (by omega), hdepth]
      simp [skipBlanks_cons, isBlank, readBackItems]
    · -- A comma follows, and the other items.
      have hdepth : depthItems (item :: items) = max item.depth (depthItems items) := by
        rw [depthItems]
      rw [joined_writeItems item hlast, List.length_append, List.length_cons] at hfuel
      rw [joined_writeItems item hlast, List.append_assoc, List.cons_append,
        itemsOnto_item hitem done (.comma _) (by omega), skipBlanks_cons (by decide)]
      dsimp only
      rw [if_pos rfl, ih (fun other hother => h other (List.mem_cons_of_mem _ hother)) hlast _
        (by omega), hdepth, readBackItems, List.reverse_cons, List.append_assoc,
        List.singleton_append]
      exact ite_max_le _ _ _ _

/-- **A list is read back, if its items are.** -/
theorem readsBack_list {items : List Json} (h : ∀ item ∈ items, item.ReadsBack) :
    (Json.list items).ReadsBack := by
  intro rest hrest fuel room hfuel
  rw [write, List.length_cons, List.length_append, List.length_singleton] at hfuel
  obtain ⟨fuel, rfl⟩ : ∃ n, fuel = n + 1 := ⟨fuel - 1, by omega⟩
  cases items with
  | nil => cases room <;> rfl
  | cons item items =>
    have htext : write (.list (item :: items)) ++ rest
        = 0x5B :: (joined (writeItems (item :: items)) ++ 0x5D :: rest) := by
      rw [write, List.cons_append, List.append_assoc, List.singleton_append]
    rw [htext, value?_list]
    cases room with
    | zero => rfl
    | succ room =>
      dsimp only
      rw [mark?_items]
      dsimp only
      rw [itemsOnto_write h (List.cons_ne_nil _ _) [] rest (by omega), depth]
      simp only [Nat.add_le_add_iff_right]
      rfl

/-- A field is read, if there is room for its value, and then what follows it. -/
theorem fieldsOnto_field {value : Json} (h : value.ReadsBack) (name : String)
    (done : List (String × Json)) {rest : Bytes} (hrest : Closes rest) {fuel : Nat}
    (hfuel : 2 * (write value).length ≤ fuel) (room : Nat) :
    fieldsOnto (fuel + 1) room done (quote name ++ 0x3A :: (write value ++ rest))
      = if value.depth ≤ room then
          match skipBlanks rest with
          | [] => none
          | byte :: rest =>
            if byte = 0x2C then fieldsOnto fuel room (setField name value.readBack done) rest
            else if byte = 0x7D then some (.object (setField name value.readBack done), rest)
            else none
        else none := by
  rw [fieldsOnto, string?_quote]
  dsimp only
  rw [mark?_self (by decide)]
  dsimp only
  rw [h rest hrest fuel room hfuel]
  by_cases hdepth : value.depth ≤ room
  · rw [if_pos hdepth]
    exact (if_pos hdepth).symm
  · rw [if_neg hdepth, if_neg hdepth]

/-- Fields with others, each in its place. -/
def setFields (fields done : List (String × Json)) : List (String × Json) :=
  fields.foldl (fun done field => setField field.1 field.2 done) done

/-- The fields of an object are read up to its end, if the value of each is. -/
theorem fieldsOnto_write {fields : List (String × Json)} (h : ∀ field ∈ fields, field.2.ReadsBack)
    (hnonempty : fields ≠ []) (done : List (String × Json)) (rest : Bytes) {fuel : Nat}
    (hfuel : 2 * (joined (writeFields fields)).length + 1 ≤ fuel) (room : Nat) :
    fieldsOnto fuel room done (joined (writeFields fields) ++ 0x7D :: rest)
      = if depthFields fields ≤ room then
          some (.object (setFields (readBackFields fields) done), rest)
        else none := by
  induction fields generalizing done fuel with
  | nil => exact absurd rfl hnonempty
  | cons field fields ih =>
    obtain ⟨name, value⟩ := field
    obtain ⟨fuel, rfl⟩ : ∃ n, fuel = n + 1 := ⟨fuel - 1, by omega⟩
    have hvalue : value.ReadsBack := h (name, value) List.mem_cons_self
    by_cases hlast : fields = []
    · subst hlast
      have htext : joined (writeFields [(name, value)]) = quote name ++ 0x3A :: write value := rfl
      have hdepth : depthFields [(name, value)] = value.depth := by
        rw [depthFields, depthFields, Nat.max_zero]
      rw [htext, List.length_append, List.length_cons] at hfuel
      rw [htext, List.append_assoc, List.cons_append,
        fieldsOnto_field hvalue name done (.brace rest) (by omega), hdepth]
      simp [skipBlanks_cons, isBlank, readBackFields, setFields]
    · have hdepth : depthFields ((name, value) :: fields)
          = max value.depth (depthFields fields) := by
        rw [depthFields]
      rw [joined_writeFields name value hlast, List.length_append, List.length_cons,
        List.length_append, List.length_cons] at hfuel
      rw [joined_writeFields name value hlast, List.append_assoc, List.cons_append,
        List.append_assoc, List.cons_append,
        fieldsOnto_field hvalue name done (.comma _) (by omega), skipBlanks_cons (by decide)]
      dsimp only
      rw [if_pos rfl, ih (fun other hother => h other (List.mem_cons_of_mem _ hother)) hlast _
        (by omega), hdepth, readBackFields]
      exact ite_max_le _ _ _ _

/-- **An object is read back, if the values of its fields are.** -/
theorem readsBack_object {fields : List (String × Json)}
    (h : ∀ field ∈ fields, field.2.ReadsBack) : (Json.object fields).ReadsBack := by
  intro rest hrest fuel room hfuel
  rw [write, List.length_cons, List.length_append, List.length_singleton] at hfuel
  obtain ⟨fuel, rfl⟩ : ∃ n, fuel = n + 1 := ⟨fuel - 1, by omega⟩
  cases fields with
  | nil => cases room <;> rfl
  | cons field fields =>
    obtain ⟨name, value⟩ := field
    have htext : write (.object ((name, value) :: fields)) ++ rest
        = 0x7B :: (joined (writeFields ((name, value) :: fields)) ++ 0x7D :: rest) := by
      rw [write, List.cons_append, List.append_assoc, List.singleton_append]
    rw [htext, value?_object]
    cases room with
    | zero => rfl
    | succ room =>
      dsimp only
      rw [mark?_fields]
      dsimp only
      rw [fieldsOnto_write h (List.cons_ne_nil _ _) [] rest (by omega), depth]
      simp only [Nat.add_le_add_iff_right]
      rfl

/-- A value that opens nothing is read back, if it is read in one step. -/
theorem readsBack_scalar {v : Json} (hdepth : v.depth = 0)
    (h : ∀ rest, Closes rest → ∀ fuel room,
      value? (fuel + 1) room (write v ++ rest) = some (v.readBack, rest)) : v.ReadsBack := by
  intro rest hrest fuel room hfuel
  obtain ⟨byte, tail, heq, -⟩ := write_first v
  have hpos : 0 < (write v).length := by
    rw [heq]
    exact Nat.succ_pos _
  obtain ⟨fuel, rfl⟩ : ∃ n, fuel = n + 1 := ⟨fuel - 1, by omega⟩
  rw [h rest hrest, if_pos (by omega)]

/-- **Every value is read back from its text.** -/
theorem readsBack (v : Json) : v.ReadsBack := by
  match v with
  | .null => exact readsBack_scalar rfl fun rest _ => value?_null rest
  | .bool b => exact readsBack_scalar rfl fun rest _ => value?_bool b rest
  | .number n => exact readsBack_scalar rfl fun rest hrest => value?_number n hrest
  | .text s => exact readsBack_scalar rfl fun rest _ => value?_text s rest
  | .list items => exact readsBack_list fun item _ => readsBack item
  | .object fields =>
    refine readsBack_object fun field hfield => ?_
    have hlt : sizeOf field.2 < sizeOf fields := by
      have hfield := List.sizeOf_lt_of_mem hfield
      rw [Prod.mk.sizeOf_spec] at hfield
      omega
    exact readsBack field.2

/-- **A text is read back as a whole**, if no more lists and objects than the limit are open at
once. -/
theorem read?_write (v : Json) :
    read? (write v) = if v.depth ≤ depthLimit then some v.readBack else none := by
  have hread := v.readsBack [] .nil (enough (write v)) depthLimit (by rw [enough]; omega)
  rw [List.append_nil] at hread
  rw [read?, hread]
  split <;> rfl

/-! ## Values that are read as they were -/

/-- Whether a value is read as it was written: there are no floating-point numbers in it, and the
fields of each object are in the order of their names. -/
inductive Exact : Json → Prop where
  | null : Exact .null
  | bool (b : Bool) : Exact (.bool b)
  | text (s : String) : Exact (.text s)
  | natural (n : UInt64) : Exact (.number (.natural n))
  | negative {n : Int64} (h : n.toInt < 0) : Exact (.number (.negative n))
  | list {items : List Json} (h : ∀ item ∈ items, Exact item) : Exact (.list items)
  | object {fields : List (String × Json)}
      (hnames : fields.Pairwise fun a b => compare a.1 b.1 = .lt)
      (h : ∀ field ∈ fields, Exact field.2) : Exact (.object fields)

theorem readBackItems_eq (items : List Json) : readBackItems items = items.map readBack := by
  induction items with
  | nil => rfl
  | cons item items ih => rw [readBackItems, ih, List.map_cons]

theorem readBackFields_eq (fields : List (String × Json)) :
    readBackFields fields = fields.map fun field => (field.1, field.2.readBack) := by
  induction fields with
  | nil => rfl
  | cons field fields ih => rw [readBackFields, ih, List.map_cons]

/-- A field behind all others stands behind them. -/
theorem setField_behind {name : String} (value : Json) {done : List (String × Json)}
    (h : ∀ field ∈ done, compare field.1 name = .lt) :
    setField name value done = done ++ [(name, value)] := by
  induction done with
  | nil => rfl
  | cons field done ih =>
    have hgt : compare name field.1 = .gt :=
      Std.OrientedCmp.gt_of_lt (h field List.mem_cons_self)
    rw [setField, hgt]
    dsimp only
    rw [ih fun other hother => h other (List.mem_cons_of_mem _ hother), List.cons_append]

/-- Fields in order stay in order. -/
theorem setFields_eq {fields done : List (String × Json)}
    (h : (done ++ fields).Pairwise fun a b => compare a.1 b.1 = .lt) :
    setFields fields done = done ++ fields := by
  induction fields generalizing done with
  | nil => exact (List.append_nil done).symm
  | cons field fields ih =>
    have hbehind := (List.pairwise_append.1 h).2.2
    rw [setFields, List.foldl_cons,
      setField_behind field.2 fun other hother => hbehind other hother field List.mem_cons_self]
    have hmoved : done ++ field :: fields = done ++ [field] ++ fields := by
      rw [List.append_assoc, List.singleton_append]
    rw [hmoved] at h ⊢
    exact ih h

/-- **A value without floating-point numbers is read as it was.** -/
theorem Exact.readBack_eq {v : Json} (h : v.Exact) : v.readBack = v := by
  induction h with
  | null | bool | text => rfl
  | natural n =>
    obtain ⟨numeral, hproper, hvalue, htext⟩ := Numeral.exists_natural n
    exact readBack_of_numeral hproper hvalue htext
  | negative h =>
    obtain ⟨numeral, hproper, hvalue, htext⟩ := Numeral.exists_negative h
    exact readBack_of_numeral hproper hvalue htext
  | list _ ih =>
    rw [readBack, readBackItems_eq, List.map_congr_left ih, List.map_id']
  | @object fields hnames _ ih =>
    have hsame : readBackFields fields = fields := by
      have hfields : ∀ field ∈ fields, (field.1, field.2.readBack) = field := fun field hfield => by
        rw [ih field hfield]
      rw [readBackFields_eq, List.map_congr_left hfields, List.map_id']
    rw [readBack, ofFields, hsame]
    exact congrArg Json.object (setFields_eq hnames)

end Json

end DataGrid
