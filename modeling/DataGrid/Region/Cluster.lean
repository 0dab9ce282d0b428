import DataGrid.Region.Replication

/-!
# Cluster — members with one region, in one process

Every member of a cluster is connected to every other one and has a copy of the region. Members
write one at a time, and a member can crash: it is cut off the network, leaves the membership and
stops.
-/

namespace DataGrid

/-- A member of a cluster. -/
structure ClusterMember where
  region : Region
  crashed : Bool := false

/-- The members of a cluster, each at the place of its port. -/
structure Cluster where
  fabric : RegionFabric
  members : List ClusterMember := []

namespace Cluster

/-- Lets the member of the next place take part in the cluster. -/
def addMember (c : Cluster) (config : Config) (place : Nat) : Except FabricError Cluster :=
  match c.fabric.addNode place config with
  | (.error e, _) => .error e
  | (.ok (), w) =>
    let (region, w) := Region.create w place
    match w.start place with
    | (.error e, _) => .error e
    | (.ok (), w) => .ok { fabric := w, members := c.members ++ [{ region }] }

/-- A cluster of as many members as the count says, all of which receive. -/
def start (count : Nat) (config : Config) : Except FabricError Cluster := do
  let c ← (List.range count).foldlM (addMember · config ·) { fabric := Fabric.ofCount count }
  return { c with fabric := c.fabric.settle }

/-- The member at a place. -/
def get? (c : Cluster) (i : Nat) : Option ClusterMember := c.members[i]?

/-- The regions of the members that have not crashed. -/
def live (c : Cluster) : List Region :=
  (c.members.filter (!·.crashed)).map (·.region)

/-- Puts a region back after it wrote. -/
def setRegion (c : Cluster) (i : Nat) (region : Region) (fabric : RegionFabric) : Cluster :=
  { fabric, members := c.members.modify i fun m => { m with region } }

/-- A member writes. -/
def write (c : Cluster) (i : Nat) (key : Bytes) (command : Command) :
    Option (Except RegionError Answer) × Cluster :=
  match c.get? i with
  | none => (none, c)
  | some m =>
    let (result, region, w) := m.region.write c.fabric key command
    (some result, c.setRegion i region w)

/-- A member crashes. -/
def crash (c : Cluster) (i : Nat) : Cluster :=
  match c.get? i, c.fabric.network.member? i with
  | some m, some member =>
    if m.crashed then c
    else
      let w := c.fabric.modifyNetwork (·.isolate i)
      let (_, w) := w.depart member true
      { fabric := w.shutdown i, members := c.members.modify i fun m => { m with crashed := true } }
  | _, _ => c

/-- Whether two copies have the same keys, and under each key entities that agree. -/
def entriesAgree : List (Bytes × Entity) → List (Bytes × Entity) → Bool
  | [], [] => true
  | (k, e) :: rest, (k', e') :: rest' => k == k' && e.agrees e' && entriesAgree rest rest'
  | _, _ => false

/-- Whether all members that have not crashed hold the same. -/
def converged (c : Cluster) : Bool :=
  match c.live with
  | [] => true
  | first :: rest =>
    let expected := (first.entries c.fabric).entries
    rest.all fun r => entriesAgree (r.entries c.fabric).entries expected

end Cluster

end DataGrid
