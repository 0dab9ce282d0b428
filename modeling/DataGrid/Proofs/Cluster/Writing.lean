import DataGrid.Region.Cluster

/-!
# Writing — the two halves of a write

A write launches a round and lands it. Launching carries the command out on the writer's copy and
sends the update to every other member; landing takes the answers, once they are in, and begins a
second round with the whole value for those that could not take a delta. In between other members
act. A write that lets everything settle in between is the write of the region
(`Region.write_eq`).
-/

namespace DataGrid

/-- A round of answers that a write waits for. -/
structure Round where
  ticket : Nat
  key : Bytes
  payload : Payload
  deriving DecidableEq, Repr

namespace Region

variable (r : Region) (w : RegionFabric) (key : Bytes)

/-- Carries a command out and sends the update that tells of it. There is no round if there is
nothing to tell, or nobody. -/
def launch (c : Command) : Except RegionError (Answer × Option Round) × Region × RegionFabric :=
  let (result, entries) := (r.entries w).run key c
  let w := r.setEntries w entries
  match result with
  | .error e => (.error (.command e), r, w)
  | .ok (answer, none) => (.ok (answer, none), r, w)
  | .ok (answer, some payload) =>
    match r.peers w with
    | [] => (.ok (answer, none), r, w)
    | peers =>
      match r.begin w peers key payload with
      | (.error e, r, w) => (.error (.fabric e), r, w)
      | (.ok ticket, r, w) => (.ok (answer, some { ticket, key, payload }), r, w)

/-- Takes the answers of a round. If some member could not take the delta, there is a round with
the whole value for it. -/
def land (round : Round) : Except RegionError (Option Round) × Region × RegionFabric :=
  let (result, w) := finish w r.place round.ticket
  match result with
  | .error e => (.error (.reply e), r, w)
  | .ok outcome =>
    let stale := outcome.needsFullValue
    if stale.isEmpty || !round.payload.isDelta then (.ok none, r, w)
    else
      let r := { r with fullResends := r.fullResends + stale.length }
      let payload := r.wholeValue w round.key
      match r.begin w stale round.key payload with
      | (.error e, r, w) => (.error (.fabric e), r, w)
      | (.ok ticket, r, w) => (.ok (some { ticket, key := round.key, payload }), r, w)

/-- Lands a round and the one that may follow it, each when everything has settled. -/
def conclude (round : Round) : Except RegionError Unit × Region × RegionFabric :=
  match r.land w.settle round with
  | (.error e, r, w) => (.error e, r, w)
  | (.ok none, r, w) => (.ok (), r, w)
  | (.ok (some round), r, w) =>
    let (result, r, w) := r.land w.settle round
    (result.map fun _ => (), r, w)

theorem isDelta_wholeValue : (r.wholeValue w key).isDelta = false := by
  unfold wholeValue
  split <;> rfl

/-- A round with the whole value is the last. -/
theorem land_of_not_delta (round : Round) (h : round.payload.isDelta = false) :
    r.land w round = match finish w r.place round.ticket with
      | (.error e, w) => (.error (.reply e), r, w)
      | (.ok _, w) => (.ok none, r, w) := by
  unfold land
  rcases finish w r.place round.ticket with ⟨_ | outcome, w⟩
  · rfl
  · simp only [h, Bool.not_false, Bool.or_true, if_true]

/-- **A write is launched and then landed.** -/
theorem write_eq (c : Command) :
    r.write w key c = match r.launch w key c with
      | (.error e, r, w) => (.error e, r, w)
      | (.ok (answer, none), r, w) => (.ok answer, r, w)
      | (.ok (answer, some round), r, w) =>
        let (result, r, w) := r.conclude w round
        (result.map fun () => answer, r, w) := by
  unfold write launch
  rcases (r.entries w).run key c with ⟨_ | ⟨answer, _ | payload⟩, entries⟩
  · rfl
  · rfl
  · dsimp only [distribute]
    rcases r.peers (r.setEntries w entries) with _ | ⟨peer, peers⟩
    · rfl
    · dsimp only [replicate]
      rcases r.begin (r.setEntries w entries) (peer :: peers) key payload
        with ⟨_ | ticket, r₁, w₁⟩
      · rfl
      · dsimp only
        rw [conclude, land]
        rcases finish w₁.settle r₁.place ticket with ⟨_ | outcome, w₂⟩
        · rfl
        · dsimp only [Except.mapError]
          by_cases hlast : (outcome.needsFullValue.isEmpty || !payload.isDelta) = true
          · simp only [if_pos hlast]
          · simp only [if_neg hlast]
            generalize { r₁ with fullResends := _ } = r₂
            have hwhole := r₂.isDelta_wholeValue w₂ key
            generalize r₂.wholeValue w₂ key = whole at hwhole ⊢
            rcases r₂.begin w₂ outcome.needsFullValue key whole with ⟨_ | ticket', r₃, w₃⟩
            · rfl
            · simp only [land_of_not_delta r₃ w₃.settle { ticket := ticket', key, payload := whole }
                hwhole]
              rcases finish w₃.settle r₃.place ticket' with ⟨_ | outcome', w₄⟩
              · rfl
              · rfl

/-! ## The frame of a write -/

/-- The update that a round begins with. -/
def announcement (recipients : List Member) (payload : Payload) : Option Update :=
  match w.newEvent r.place r.producer with
  | (.error _, _, _) => none
  | (.ok event, _, w) =>
    let (ticket, w) := w.await r.place recipients
    some { processor := w.processorId r.place ticket, event, key, payload }

/-- The frame that a write sends to every other member, if it sends one. -/
def frame? (version : Version) (c : Command) : Option Bytes :=
  match (r.entries w).run key c with
  | (.ok (_, some payload), entries) =>
    match r.peers w with
    | [] => none
    | peers => do
      let u ← r.announcement (r.setEntries w entries) key peers payload
      (Frame.encode (.app u) version).toOption
  | _ => none

end Region

end DataGrid
