import DataGrid.Json.Value
import DataGrid.Ordered.Map

/-!
# Decoding JSON — values of other types

A value is taken for a value of another type only if it is one: a whole number must be in the
type's range, and a floating-point number is never a whole one. A null is an absent value.
-/

namespace DataGrid

/-- Types whose values a JSON value may stand for. -/
class OfJson (α : Type) where
  /-- The value that a JSON value stands for, if it stands for one. -/
  ofJson? : Json → Option α

namespace OfJson

variable {α : Type}

instance : OfJson Json := ⟨some⟩
instance : OfJson Bool := ⟨Json.toBool?⟩
instance : OfJson String := ⟨Json.toText?⟩
instance : OfJson Int := ⟨Json.toInt?⟩
instance : OfJson Nat := ⟨fun v => v.toInt?.bind fun n => if 0 ≤ n then some n.toNat else none⟩
instance : OfJson UInt8 := ⟨fun v => (v.toIntBetween? 0 255).map (UInt8.ofNat ·.toNat)⟩
instance : OfJson UInt16 := ⟨fun v => (v.toIntBetween? 0 65535).map (UInt16.ofNat ·.toNat)⟩

instance : OfJson UInt32 := ⟨fun v => (v.toIntBetween? 0 4294967295).map (UInt32.ofNat ·.toNat)⟩

instance : OfJson UInt64 :=
  ⟨fun v => (v.toIntBetween? 0 18446744073709551615).map (UInt64.ofNat ·.toNat)⟩

instance : OfJson Int8 := ⟨fun v => (v.toIntBetween? (-128) 127).map Int8.ofInt⟩
instance : OfJson Int16 := ⟨fun v => (v.toIntBetween? (-32768) 32767).map Int16.ofInt⟩

instance : OfJson Int32 :=
  ⟨fun v => (v.toIntBetween? (-2147483648) 2147483647).map Int32.ofInt⟩

instance : OfJson Int64 :=
  ⟨fun v => (v.toIntBetween? (-9223372036854775808) 9223372036854775807).map Int64.ofInt⟩

instance [OfJson α] : OfJson (Option α) where
  ofJson?
    | .null => some none
    | v => (ofJson? v).map some

instance [OfJson α] : OfJson (List α) := ⟨fun v => v.toList?.bind (·.mapM ofJson?)⟩

/-- An object is a map from names. -/
instance [OfJson α] : OfJson (OrdMap String α) where
  ofJson? v := v.toFields?.bind fun fields =>
    (fields.mapM fun field => (ofJson? field.2).map fun a => (field.1, a)).map OrdMap.ofList

end OfJson

namespace Json

/-- The value of a type that a JSON value stands for. -/
def as? (α : Type) [OfJson α] (v : Json) : Option α := OfJson.ofJson? v

/-- The value of a type under a name of an object, if there is one. -/
def get? (α : Type) [OfJson α] (v : Json) (name : String) : Option α := (v.get name).as? α

end Json

end DataGrid
