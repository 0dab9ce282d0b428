import DataGrid.Json.Value
import DataGrid.Ordered.Map

/-!
# Encoding JSON — the values that stand for values of other types

Whole numbers stand for themselves, a floating-point number that is not finite and an absent value
are null, and a map is an object if its keys are names or numbers. Octets are a list of numbers.
-/

namespace DataGrid

/-- Types whose values have a JSON form. -/
class ToJson (α : Type) where
  /-- The JSON value that stands for a value. -/
  toJson : α → Json

export ToJson (toJson)

namespace ToJson

variable {α : Type}

instance : ToJson Json := ⟨id⟩
instance : ToJson Unit := ⟨fun () => .null⟩
instance : ToJson Bool := ⟨.bool⟩
instance : ToJson String := ⟨.text⟩
instance : ToJson Char := ⟨fun c => .text (String.singleton c)⟩
instance : ToJson Nat := ⟨Json.ofNat⟩
instance : ToJson Int := ⟨Json.ofInt⟩
instance : ToJson UInt8 := ⟨fun n => Json.ofNat n.toNat⟩
instance : ToJson UInt16 := ⟨fun n => Json.ofNat n.toNat⟩
instance : ToJson UInt32 := ⟨fun n => Json.ofNat n.toNat⟩
instance : ToJson UInt64 := ⟨fun n => .number (.natural n)⟩
instance : ToJson Int8 := ⟨fun n => Json.ofInt n.toInt⟩
instance : ToJson Int16 := ⟨fun n => Json.ofInt n.toInt⟩
instance : ToJson Int32 := ⟨fun n => Json.ofInt n.toInt⟩
instance : ToJson Int64 := ⟨fun n => Json.ofInt n.toInt⟩
instance : ToJson Binary64 := ⟨Json.ofFloat⟩
instance [ToJson α] : ToJson (Option α) := ⟨fun a => (a.map toJson).getD .null⟩
instance [ToJson α] : ToJson (List α) := ⟨fun l => .list (l.map toJson)⟩

/-- An object with the fields of a map, each name spelled from its key. -/
def ofMap {κ : Type} [Ord κ] [ToJson α] (name : κ → String) (m : OrdMap κ α) : Json :=
  Json.ofFields (m.entries.map fun entry => (name entry.1, toJson entry.2))

instance [ToJson α] : ToJson (OrdMap String α) := ⟨ofMap id⟩
instance [ToJson α] : ToJson (OrdMap Int α) := ⟨ofMap toString⟩
instance [ToJson α] : ToJson (OrdMap Bool α) := ⟨ofMap toString⟩

end ToJson

end DataGrid
