import DataGrid.Proofs.Entity.Effects
import DataGrid.Proofs.Region.Replicas
import Mathlib.Data.Finmap

/-!
# Reference — what commands do, said without entities

A reference store maps keys to items. An item is a set of octet strings, a string of octets or a
table from octet strings to scores, and an expiration; a set or a table in it is not empty. Here is
said what each command answers and what becomes of the item under its key (`Reference.Does`), in
terms of finite sets and maps: no slots, deltas, commits or payloads.

The entries of a copy hold a store when every entity in them stands for the item under its key
(`Entries.Holds`).
-/

namespace DataGrid

namespace Reference

/-! ## Stores -/

/-- Members with their scores. -/
abbrev Table := Finmap fun _ : Bytes => Binary64

/-- What a key can hold. -/
inductive Value where
  | set (members : { s : Finset Bytes // s.Nonempty })
  | string (octets : Bytes)
  | table (scores : { z : Table // z ≠ ∅ })

namespace Value

def kind : Value → EntityKind
  | .set _ => .set
  | .string _ => .string
  | .table _ => .sortedSet

end Value

/-- A value, and when it expires: minus one if never. -/
structure Item where
  value : Value
  expiration : Int64

/-- A store: what each key holds. -/
abbrev Contents := Bytes → Option Item

/-! ## Forms -/

/-- One kind of value as the commands for it see it. -/
structure Form (α : Type) where
  kind : EntityKind
  /-- What a command starts from where there is nothing. -/
  blank : α
  /-- What a value is to the command, if it is of the kind. -/
  get? : Value → Option α
  /-- The value to keep, if there is one. -/
  put? : α → Option Value

def sets : Form (Finset Bytes) where
  kind := .set
  blank := ∅
  get?
    | .set members => some members.1
    | _ => none
  put? s := if h : s.Nonempty then some (.set ⟨s, h⟩) else none

def strings : Form Bytes where
  kind := .string
  blank := []
  get?
    | .string octets => some octets
    | _ => none
  put? octets := some (.string octets)

def tables : Form Table where
  kind := .sortedSet
  blank := ∅
  get?
    | .table scores => some scores.1
    | _ => none
  put? z := if h : z ≠ ∅ then some (.table ⟨z, h⟩) else none

/-! ## Commands -/

/-- What a command for one kind of value does to a key: it makes an item that never expires, or
changes the value of one and leaves its expiration, or is refused because the value is of another
kind. An item without a value is not kept. -/
inductive On {α : Type} (form : Form α) (does : α → Answer → α → Prop) (key : Bytes) :
    Option Item → Except CommandError Answer → Option Item → Prop where
  | made {answer : Answer} {a : α} (h : does form.blank answer a) :
    On form does key none (.ok answer) ((form.put? a).map (Item.mk · (-1)))
  | changed {item : Item} {answer : Answer} {a a' : α} (hget : form.get? item.value = some a)
    (h : does a answer a') :
    On form does key (some item) (.ok answer) ((form.put? a').map (Item.mk · item.expiration))
  | refused {item : Item} (hget : form.get? item.value = none) :
    On form does key (some item) (.error (.wrongKind key ⟨form.kind, item.value.kind⟩)) (some item)

/-- Whether a score differs as a number from the one that is stored, if there is one. -/
def differs (z : Table) (m : Bytes) (score : Binary64) : Bool :=
  (z.lookup m).all fun previous => !previous.sameNumber score

/-- A table with pairs stored in turn, and how many of them differed from what was stored then. -/
def scored (z : Table) : List (Bytes × Binary64) → Nat × Table
  | [] => (0, z)
  | (m, score) :: rest =>
    let (count, z') := scored (z.insert m score) rest
    (if differs z m score then count + 1 else count, z')

/-- The expiration of a string that is set: the one of the string before, if it was a string. -/
def kept : Option Item → Int64
  | some { value := .string _, expiration } => expiration
  | _ => -1

/-- **What a command answers, and what becomes of the item under its key.** Popping takes any
members that there are; how many is all that is said. -/
def Does (key : Bytes) (c : Command) (before : Option Item) :
    Except CommandError Answer → Option Item → Prop :=
  match c with
  | .sadd members =>
    On sets (fun s answer s' => answer = .count (members.toFinset \ s).card
      ∧ s' = s ∪ members.toFinset) key before
  | .srem members =>
    On sets (fun s answer s' => answer = .count (s ∩ members.toFinset).card
      ∧ s' = s \ members.toFinset) key before
  | .spop count _ =>
    On sets (fun s answer s' => ∃ popped : List Bytes, popped.Nodup ∧ popped.toFinset ⊆ s
      ∧ popped.length = min count s.card ∧ answer = .members popped
      ∧ s' = s \ popped.toFinset) key before
  | .append octets =>
    On strings (fun value answer value' => answer = .count value'.length
      ∧ value' = value ++ octets) key before
  | .zadd pairs =>
    On tables (fun z answer z' => answer = .count (scored z pairs).1
      ∧ z' = (scored z pairs).2) key before
  | .zrem members =>
    On tables (fun z answer z' => answer = .count (z.keys ∩ members.toFinset).card
      ∧ z' = members.foldl (fun z m => z.erase m) z) key before
  | .set octets => fun result after =>
    result = .ok .done ∧ after = some ⟨.string octets, kept before⟩
  | .expireAt time now => fun result after =>
    result = .ok (.flag before.isSome)
      ∧ after = if time ≤ now then none else before.map fun item => { item with expiration := time }
  | .persist => fun result after =>
    result = .ok (.flag (before.any fun item => item.expiration ≠ -1))
      ∧ after = before.map fun item => { item with expiration := -1 }
  | .delete => fun result after => result = .ok (.flag before.isSome) ∧ after = none

/-- What commands do one after another: the store that they leave, and their results. -/
inductive Runs : Contents → List (Bytes × Command) → List (Except CommandError Answer) →
    Contents → Prop where
  | nil (contents : Contents) : Runs contents [] [] contents
  | cons {contents left : Contents} {key : Bytes} {c : Command} {rest : List (Bytes × Command)}
    {result : Except CommandError Answer} {results : List (Except CommandError Answer)}
    {after : Option Item} (hdoes : Does key c (contents key) result after)
    (hrest : Runs (Function.update contents key after) rest results left) :
    Runs contents ((key, c) :: rest) (result :: results) left

end Reference

open Reference

/-! ## What entities stand for -/

/-- The members of a set. -/
def SetValue.members (s : SetValue) : Finset Bytes := s.toList.toFinset

/-- The scores of a sorted set. -/
def ScoreTable.table (z : ScoreTable) : Table :=
  (z.entries.map fun e => (⟨e.1, e.2⟩ : Σ _ : Bytes, Binary64)).toFinmap

/-- The value of a content, if there is one to keep. -/
def Content.value? : Content → Option Value
  | .set s => sets.put? s.members
  | .string s => strings.put? s.octets
  | .sortedSet z => tables.put? z.table

/-- The item that an entity stands for. -/
def Entity.item? (e : Entity) : Option Item := e.content.value?.map (Item.mk · e.expiration)

/-- Whether a slot stands for what is under a key: it is empty and nothing is there, or its entity
stands for the item. -/
def Reference.Shows (slot : Option Entity) (item : Option Item) : Prop :=
  slot.map Entity.item? = item.map some

/-- **Whether the entries of a copy hold a store.** -/
def Entries.Holds (entries : Entries) (contents : Contents) : Prop :=
  ∀ key, Reference.Shows (entries.get? key) (contents key)

end DataGrid
