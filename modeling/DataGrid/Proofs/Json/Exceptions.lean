import DataGrid.Proofs.Json.Scalars

/-!
# Exceptions — a failure is read back as it was written

An object is read field by field, each by a step that is told its name. If every step spells its
field, one after the other, the object is read to its end (`Json.objectBody?_write`). So a member
and an exception with any texts in them are read back from their JSON form.
-/

namespace DataGrid

namespace Json

variable {σ α : Type} {step : String → σ → Bytes → Option (σ × Bytes)}

/-! ## Objects -/

/-- Whether a step reads fields one behind the other, from a state to another one. -/
def Fills (step : String → σ → Bytes → Option (σ × Bytes)) : σ → List (String × Json) → σ → Prop
  | s, [], s' => s = s'
  | s, (name, value) :: fields, s' =>
    ∃ s₁, Spells (step name s) (write value) s₁ ∧ Fills step s₁ fields s'

/-- One field is read, up to what follows it. -/
theorem foldFields_field {s s₁ : σ} {name : String} {value : Json}
    (h : Spells (step name s) (write value) s₁) (fuel : Nat) {rest : Bytes} (hrest : Closes rest) :
    foldFields step (fuel + 1) s (quote name ++ 0x3A :: (write value ++ rest))
      = match skipBlanks rest with
        | [] => none
        | byte :: rest =>
          if byte = 0x2C then foldFields step fuel s₁ rest
          else if byte = 0x7D then some (s₁, rest)
          else none := by
  rw [foldFields, string?_quote]
  dsimp only
  rewrite [mark?_self (by decide), Option.bind_some, h rest hrest]
  rfl

theorem joined_cons (first : Bytes) {others : List Bytes} (h : others ≠ []) :
    joined (first :: others) = first ++ 0x2C :: joined others := by
  cases others with
  | nil => exact absurd rfl h
  | cons second others => rfl

theorem writeFields_ne_nil {fields : List (String × Json)} (h : fields ≠ []) :
    writeFields fields ≠ [] := by
  cases fields with
  | nil => exact absurd rfl h
  | cons field fields => exact List.cons_ne_nil _ _

theorem foldFields_write {s s' : σ} {fields : List (String × Json)} (h : Fills step s fields s')
    (hnonempty : fields ≠ []) {fuel : Nat} (hfuel : fields.length ≤ fuel) (rest : Bytes) :
    foldFields step fuel s (joined (writeFields fields) ++ 0x7D :: rest) = some (s', rest) := by
  induction fields generalizing s fuel with
  | nil => exact absurd rfl hnonempty
  | cons field fields ih =>
    obtain ⟨name, value⟩ := field
    obtain ⟨s₁, hfield, hfields⟩ := h
    obtain ⟨fuel, rfl⟩ : ∃ n, fuel = n + 1 := ⟨fuel - 1, by rw [List.length_cons] at hfuel; omega⟩
    by_cases hlast : fields = []
    · -- The object ends behind the field.
      subst hlast
      obtain rfl : s₁ = s' := hfields
      have hread := foldFields_field hfield fuel (.brace rest)
      have htext : joined (writeFields [(name, value)]) ++ 0x7D :: rest
          = quote name ++ 0x3A :: (write value ++ 0x7D :: rest) := by
        simp [writeFields, joined]
      rw [htext, hread]
      rfl
    · -- A comma follows, and the other fields.
      have hread := foldFields_field hfield fuel
        (.comma (joined (writeFields fields) ++ 0x7D :: rest))
      have htext : joined (writeFields ((name, value) :: fields)) ++ 0x7D :: rest
          = quote name ++ 0x3A :: (write value
            ++ 0x2C :: (joined (writeFields fields) ++ 0x7D :: rest)) := by
        rw [writeFields, joined_cons _ (writeFields_ne_nil hlast)]
        simp
      rw [htext, hread]
      exact ih hfields hlast (by rw [List.length_cons] at hfuel; omega)

theorem length_fields_le (fields : List (String × Json)) :
    fields.length ≤ (joined (writeFields fields)).length := by
  induction fields with
  | nil => exact Nat.le_refl 0
  | cons field fields ih =>
    obtain ⟨name, value⟩ := field
    by_cases hlast : fields = []
    · subst hlast
      simp [writeFields, joined, quote]
    · rw [writeFields, joined_cons _ (writeFields_ne_nil hlast), List.length_append,
        List.length_cons, List.length_cons]
      omega

/-- **An object is read back to its end**, if every field is. -/
theorem objectBody?_write {s s' : σ} {fields : List (String × Json)} (h : Fills step s fields s')
    (hnonempty : fields ≠ []) (rest : Bytes) :
    objectBody? step s (joined (writeFields fields) ++ 0x7D :: rest) = some (s', rest) := by
  obtain ⟨⟨name, value⟩, others, rfl⟩ := List.exists_cons_of_ne_nil hnonempty
  have hopen : ∃ tail, joined (writeFields ((name, value) :: others)) = 0x22 :: tail := by
    rw [writeFields]
    cases writeFields others <;> exact ⟨_, rfl⟩
  have hmark : mark? 0x7D (joined (writeFields ((name, value) :: others)) ++ 0x7D :: rest)
      = none := by
    obtain ⟨tail, htail⟩ := hopen
    rw [htail]
    exact mark?_other (by decide) (by decide) _
  have hlength := length_fields_le ((name, value) :: others)
  rw [objectBody?, hmark]
  refine foldFields_write h hnonempty ?_ rest
  rw [enough, List.length_append]
  omega

/-! ## Values of fields -/

/-- A field that was not set before is set to what is read. -/
theorem spells_once {read : Bytes → Option (α × Bytes)} {bytes : Bytes} {a : α}
    (h : Spells read bytes a) (set : α → σ) : Spells (once none read set) bytes (set a) := by
  intro rest hrest
  rw [once, h rest hrest]
  rfl

theorem spells_nullable_null (read : Bytes → Option (α × Bytes)) :
    Spells (nullable? read) (write .null) none := fun _ _ => rfl

/-- A value that may be null, and is not. -/
theorem spells_nullable {read : Bytes → Option (α × Bytes)} {byte : UInt8} {tail : Bytes} {a : α}
    (h : Spells read (byte :: tail) a) (hblank : isBlank byte = false) (hnull : byte ≠ 0x6E) :
    Spells (nullable? read) (byte :: tail) (some a) := by
  intro rest hrest
  have hword : word? nullWord (skipBlanks (byte :: tail ++ rest)) = none := by
    rw [List.cons_append, skipBlanks_cons hblank]
    exact if_neg hnull
  rw [nullable?, hword]
  dsimp only
  rw [h rest hrest]
  rfl

/-! ## Members -/

theorem spells_nullable_uuid (uuid : Option Uuid) :
    Spells (nullable? uuid?) (write ((uuid.map fun u => .text u.toText).getD .null)) uuid := by
  cases uuid with
  | none => exact spells_nullable_null _
  | some u => exact spells_nullable (spells_uuid u) (by decide) (by decide)

/-- What is known of a member when all of its fields were read. -/
def fieldsOf (m : Member) : MemberFields :=
  { host := m.host, port := some (m.port.toNat : Int), view := m.view.toInt, name := m.name,
    uuid := some m.uuid, weight := some (m.weight.toNat : Int) }

theorem fills_member (m : Member) :
    Fills memberField {} [("host", .text m.host), ("port", ofNat m.port.toNat),
      ("view_id", ofInt m.view.toInt), ("name", .text m.name),
      ("uuid", (m.uuid.map fun u => .text u.toText).getD .null),
      ("weight", ofNat m.weight.toNat)] (fieldsOf m) := by
  have := m.port.toNat_lt
  have := m.view.toInt_lt
  have := m.view.le_toInt
  have := m.weight.toNat_lt
  rw [ofNat_eq_ofInt, ofNat_eq_ofInt]
  have hport : Spells port? (write (ofInt m.port.toNat)) m.port.toNat :=
    spells_int (by omega) (by omega) (by omega) (by omega)
  have hview : Spells view? (write (ofInt m.view.toInt)) m.view.toInt :=
    spells_int (by omega) (by omega) (by omega) (by omega)
  have hweight : Spells weight? (write (ofInt m.weight.toNat)) m.weight.toNat :=
    spells_int (by omega) (by omega) (by omega) (by omega)
  simp only [Fills, Spells, memberField]
  refine ⟨_, spells_once (spells_quote m.host) _, ?_⟩
  refine ⟨_, spells_once hport _, ?_⟩
  refine ⟨_, spells_once hview _, ?_⟩
  refine ⟨_, spells_once (spells_quote m.name) _, ?_⟩
  refine ⟨_, spells_once (spells_nullable_uuid m.uuid) _, ?_⟩
  exact ⟨_, spells_once hweight _, rfl⟩

theorem memberOf_fields (m : Member) :
    memberOf m.host m.port.toNat m.view.toInt m.name m.uuid m.weight.toNat = m := by
  rw [memberOf, Int.toNat_natCast, Int.toNat_natCast, UInt16.ofNat_toNat, UInt8.ofNat_toNat,
    Int32.ofInt_toInt]

/-- **A member is read back from its JSON form.** -/
theorem spells_member (m : Member) : Spells member? (write (ofMember m)) m := by
  intro rest _
  have hread := objectBody?_write (fills_member m) (List.cons_ne_nil _ _) rest
  rw [ofMember, write, List.cons_append, List.append_assoc, List.singleton_append, member?,
    skipBlanks_cons (by decide)]
  change (objectBody? memberField {} (joined _ ++ 0x7D :: rest)).bind _ = _
  rw [hread]
  simp only [Option.bind_eq_bind, Option.bind_some, fieldsOf, Option.getD_some, memberOf_fields]
  rfl

/-! ## Exceptions -/

theorem ofName?_name (kind : ExceptionKind) : ExceptionKind.ofName? kind.name = some kind := by
  cases kind <;> decide

theorem spells_kind (kind : ExceptionKind) :
    Spells exceptionKind? (write (.text kind.name)) kind := by
  intro rest _
  rw [write, quote_append, exceptionKind?, skipBlanks_cons (by decide)]
  change (stringBody? ((Text.toBytes kind.name).flatMap escape ++ 0x22 :: rest)).bind _ = _
  rw [stringBody?_quoted]
  simp only [Option.bind_eq_bind, Option.bind_some, ofName?_name]
  rfl

theorem spells_sender (sender : Option Member) :
    Spells (nullable? member?) (write ((sender.map ofMember).getD .null)) sender := by
  cases sender with
  | none => exact spells_nullable_null _
  | some m => exact spells_nullable (spells_member m) (by decide) (by decide)

theorem fills_exception (e : ReplyException) :
    Fills exceptionField {} [("kind", .text e.kind.name), ("message", .text e.message),
        ("sender", (e.sender.map ofMember).getD .null)]
      { kind := e.kind, message := e.message, sender := some e.sender } := by
  simp only [Fills, Spells, exceptionField]
  refine ⟨_, spells_once (spells_kind e.kind) _, ?_⟩
  refine ⟨_, spells_once (spells_quote e.message) _, ?_⟩
  exact ⟨_, spells_once (spells_sender e.sender) _, rfl⟩

/-- **An exception is read back from its JSON form**, whatever its texts say. -/
theorem spells_exception (e : ReplyException) :
    Spells exception? (write (ofException e)) e := by
  intro rest _
  have hread := objectBody?_write (fills_exception e) (List.cons_ne_nil _ _) rest
  rw [ofException, write, List.cons_append, List.append_assoc, List.singleton_append, exception?,
    skipBlanks_cons (by decide)]
  change (objectBody? exceptionField {} (joined _ ++ 0x7D :: rest)).bind _ = _
  rw [hread]
  rfl

end Json

end DataGrid
