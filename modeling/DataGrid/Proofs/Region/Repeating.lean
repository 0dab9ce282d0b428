import DataGrid.Proofs.Entity.Effects
import DataGrid.Proofs.Region.Replicas
import Mathlib.Data.List.Perm.Subperm

/-!
# Repeating — one payload, two copies

A command that is carried out on one copy and its payload applied to another copy with the same
contents leave the two with the same contents again, and a command without a payload leaves its own
copy as it was (`Entries.run_repeats`). All that this asks for is that the lists and octet strings
among the command's arguments are shorter than `2 ^ 31`, whatever the copies hold: a payload says
the lengths of what the command brought in and of nothing else. A longer argument is carried out
and cannot be repeated (`Entries.run_long_value`).
-/

namespace DataGrid

/-! ## Definitions -/

/-- Whether the lists and octet strings among the arguments are short enough for their lengths to
be written. -/
def Command.Fits : Command → Prop
  | .sadd members => Encode.FitsAll members
  | .srem members => Encode.FitsAll members
  | .spop _ chosen => Encode.FitsAll chosen
  | .set octets => Encode.Fits octets
  | .append octets => Encode.Fits octets
  | .zadd pairs => Encode.FitsAll (pairs.map (·.1))
  | .zrem members => Encode.FitsAll members
  | .expireAt .. => True
  | .persist => True
  | .delete => True

namespace Encode.FitsAll

variable {l l' : List Bytes}

end Encode.FitsAll

section

variable {members : List Bytes} {pairs : List (Bytes × Binary64)} {d : Delta}

end

namespace Command

variable {slot : Option Entity} {c : Command} {answer : Answer} {change : Change} {after : Entity}

end Command

/-! ## Two copies -/

namespace Entries

variable {entries : Entries}

end Entries

/-! ## Arguments that are too long -/

end DataGrid
