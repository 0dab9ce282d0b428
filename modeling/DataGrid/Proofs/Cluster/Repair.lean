import DataGrid.Proofs.Cluster.Upkeep

/-!
# Repair — what a write does for copies that have gone astray

The copies of a writer's peers may come to differ from the writer's in any way: an entry may be
missing, stale or of another kind. A write that ships a payload and succeeds puts the entry under
its key in order. A whole value, or its removal, leaves the writer's entry at every peer. A delta
leaves what it makes of the peer's entry, if there is one that takes it, and the writer's entry
otherwise; the writer counts those peers. Entries under other keys stay as they are
(`Cluster.run_mends`).
-/

namespace DataGrid

open Network (localMember)

/-- Sites where the copies at places are others. What the copies have seen stays. -/
def overwritten (sites : Nat → Site) (places : List Nat) (copies : Nat → Entries) (j : Nat) :
    Site :=
  if j ∈ places then { sites j with state := { (sites j).state with entries := copies j } }
  else sites j

section Overwritten

variable {sites : Nat → Site} {places : List Nat} {copies : Nat → Entries} {j : Nat}

theorem overwritten_of_mem (h : j ∈ places) : overwritten sites places copies j
    = { sites j with state := { (sites j).state with entries := copies j } } := if_pos h

theorem overwritten_of_notMem (h : j ∉ places) : overwritten sites places copies j = sites j :=
  if_neg h

theorem tracker_overwritten (sites : Nat → Site) (places : List Nat) (copies : Nat → Entries)
    (j : Nat) : (overwritten sites places copies j).state.tracker = (sites j).state.tracker := by
  unfold overwritten
  split <;> rfl

/-- The copies at places are replaced one after another. -/
theorem overwritten_cons (sites : Nat → Site) (i : Nat) (places : List Nat)
    (copies : Nat → Entries) :
    overwritten (Function.update sites i
      { sites i with state := { (sites i).state with entries := copies i } }) places copies
      = overwritten sites (i :: places) copies := by
  funext j
  unfold overwritten
  by_cases hj : j = i
  · subst hj
    rw [Function.update_self, if_pos (List.mem_cons_self : j ∈ j :: places), ite_self]
  · rw [Function.update_of_ne hj]
    simp only [List.mem_cons, hj, false_or]

end Overwritten

/-- Puts other entries into the copies at places. What the copies have seen stays. -/
def Fabric.overwrite (w : RegionFabric) (places : List Nat) (copies : Nat → Entries) :
    RegionFabric :=
  places.foldl (fun w j => w.modify j fun n =>
    { n with attached := n.attached.map fun s => { s with entries := copies j } }) w

/-- The entries of live places are replaced. -/
theorem Fabric.Rests.overwrite {config : Config} {live : Nat → Prop} (places : List Nat)
    (hlive : ∀ j ∈ places, live j) (copies : Nat → Entries) {w : RegionFabric}
    {sites : Nat → Site} (h : w.Rests config live sites) :
    (Fabric.overwrite w places copies).Rests config live (overwritten sites places copies) := by
  induction places generalizing w sites with
  | nil =>
    have heq : overwritten sites [] copies = sites :=
      funext fun j => overwritten_of_notMem List.not_mem_nil
    rw [heq]
    exact h
  | cons i places ih =>
    -- Entries are replaced as a member at the place replaces its own.
    let r : Region := { place := i, producer := { thread := 0 } }
    obtain ⟨w', hw', -, hrests⟩ := h.setEntries (r := r) (hlive i List.mem_cons_self) (copies i)
    have hnext := ih (fun j hj => hlive j (List.mem_cons_of_mem i hj)) hrests
    rw [overwritten_cons, ← hw'] at hnext
    exact hnext

namespace Cluster

/-- The places of the live members but one. -/
def peersOf (c : Cluster) (i : Nat) : List Nat :=
  (List.range c.members.length).filter fun j => j ≠ i && (c.get? j).any (!·.crashed)

/-- The entries of the copy at a place. -/
def entriesAt (c : Cluster) (i : Nat) : Entries := ((c.fabric.attached? i).getD {}).entries

/-- Puts other entries into the copies at places. -/
def overwrite (c : Cluster) (places : List Nat) (copies : Nat → Entries) : Cluster :=
  { c with fabric := Fabric.overwrite c.fabric places copies }

/-- **What a write has come to at peers of the writer** that had other entries before it. -/
structure Mended (c c' : Cluster) (i : Nat) (key : Bytes) (payload : Payload) (peers : List Nat)
    (copies : Nat → Entries) : Prop where
  /-- The entry under the key is the one that there is to be. -/
  entry : ∀ j ∈ peers, (c'.entriesAt j).get? key
    = payload.mended ((copies j).get? key) ((c'.entriesAt i).get? key)
  others : ∀ j ∈ peers, ∀ k, k ≠ key → (c'.entriesAt j).get? k = (copies j).get? k
  /-- The writer has counted who had no entry or rejected the delta. -/
  resends : ∃ m m', c.get? i = some m ∧ c'.get? i = some m' ∧ m'.region.fullResends
    = m.region.fullResends + peers.countP fun j => payload.rejectedBy ((copies j).get? key)

variable {c : Cluster} {config : Config} {left : Nat → Nat} {sites : Nat → Site} {i j : Nat}

/-- Who is live can be computed. -/
theorem isLive_iff : c.IsLive i ↔ (c.get? i).any (!·.crashed) = true := by
  simp only [IsLive, Option.any_eq_true, Bool.not_eq_true']

theorem mem_peersOf : j ∈ c.peersOf i ↔ c.IsLive j ∧ j ≠ i := by
  rw [peersOf, List.mem_filter, List.mem_range, Bool.and_eq_true, decide_eq_true_iff, ← isLive_iff]
  constructor
  · rintro ⟨-, hne, hlive⟩
    exact ⟨hlive, hne⟩
  · rintro ⟨hlive, hne⟩
    have hlt : j < c.members.length := by
      obtain ⟨m, hm, -⟩ := hlive
      exact (List.getElem?_eq_some_iff.1 hm).1
    exact ⟨hlt, hne, hlive⟩

theorem nodup_peersOf (c : Cluster) (i : Nat) : (c.peersOf i).Nodup := List.nodup_range.filter _

/-- What is at a live place is what its site has. -/
theorem entriesAt_of_shows {live : Nat → Prop} (h : c.fabric.Shows config live sites)
    (hi : live i) : c.entriesAt i = (sites i).state.entries := by
  rw [entriesAt, h.hosts.attached? hi]
  rfl

/-- **A write mends what was overwritten.** The writer's copy is what the command left of it. -/
theorem Steady.mends (h : c.Steady config left sites) (hmax : config.maxFrame < 2147483648)
    (hi : c.IsLive i) (hleft : 2 ≤ left i) {peers : List Nat} (hnodup : peers.Nodup)
    (hpeers : ∀ j, j ∈ peers ↔ c.IsLive j ∧ j ≠ i) {copies : Nat → Entries} {key : Bytes}
    {command : Command} {answer answer' : Answer} {payload : Payload} {entries : Entries}
    (hships : (c.entriesAt i).run key command = (.ok (answer, some payload), entries))
    {c' : Cluster}
    (hwrite : (c.overwrite peers copies).write i key command = (some (.ok answer'), c')) :
    c'.entriesAt i = entries ∧ Mended c c' i key payload peers copies := by
  obtain ⟨m, hm, hopen⟩ := hi
  have hi : c.IsLive i := ⟨m, hm, hopen⟩
  obtain rfl := h.place i m hm
  -- The copies of the peers are others now, and the writer's is what it was.
  have hrests : (c.overwrite peers copies).fabric.Rests config c.IsLive
      (overwritten sites peers copies) :=
    h.rests.overwrite peers (fun j hj => ((hpeers j).1 hj).1) copies
  have hown : overwritten sites peers copies m.region.place = sites m.region.place :=
    overwritten_of_notMem fun hmem => ((hpeers _).1 hmem).2 rfl
  have hcopy : ∀ j ∈ peers, (overwritten sites peers copies j).state.entries = copies j :=
    fun j hj => by rw [overwritten_of_mem hj]
  obtain ⟨result, r', w', sites', hregion, hpushes, hentries, -, js, hjs, hmem, hmends⟩ :=
    hrests.write hmax hi (by rw [hown]; exact h.tidy _ hi) key command
  have hperm : js.Perm peers :=
    (List.perm_ext_iff_of_nodup hjs hnodup).2 fun j => (hmem j).trans (hpeers j).symm
  have hm' : (c.overwrite peers copies).get? m.region.place = some m := hm
  rw [write_of_region hm' hregion] at hwrite
  cases hwrite
  have hafter : ∀ j, c.IsLive j → (Cluster.setRegion (c.overwrite peers copies) m.region.place r'
      w').entriesAt j = (sites' j).state.entries := fun j hj =>
    entriesAt_of_shows hpushes.rests.shows hj
  have hships' : (m.region.entries (c.overwrite peers copies).fabric).run key command
      = (.ok (answer, some payload), entries) := by
    rw [hrests.shows.entries hi, hown, ← entriesAt_of_shows h.rests.shows hi]
    exact hships
  rw [hships'] at hentries
  obtain ⟨hentry, hresends, -⟩ := hmends answer answer' payload entries hships' rfl
    ((h.room _ m hm hopen).mono hleft) fun j hj => by
      obtain ⟨hlive, hne⟩ := (hmem j).1 hj
      rw [tracker_overwritten]
      exact h.unseen _ j m hm hopen hlive hne (by omega)
  refine ⟨(hafter _ hi).trans hentries, fun j hj => ?_, fun j hj k hk => ?_,
    m, { m with region := r' }, hm, ?_, ?_⟩
  · rw [hafter j ((hpeers j).1 hj).1, hafter _ hi, hentries, hentry j (hperm.mem_iff.2 hj),
      hcopy j hj]
  · rw [hafter j ((hpeers j).1 hj).1, hpushes.pushed.entries j k hk, hcopy j hj]
  · rw [get?_setRegion, if_pos rfl]
    exact congrArg _ hm
  · rw [hresends, hperm.countP_eq]
    exact congrArg _ (List.countP_congr fun j hj => by rw [hcopy j hj])

/-- **A write mends copies that have gone astray**, whatever happened before. In a cluster of as
many members as the ports suffice for, whatever its members write, whichever of them crash and
whatever comes of that: if then the copies of a live member's peers are overwritten in any way and
the member's write ships a payload and succeeds, all of them are mended. `hmax` is the limit of the
format itself: the length of a payload is written as a signed number of 32 bits, so a payload of
2147483648 octets reads as another one or as none, and no config that lets such a frame pass has it
read (the default allows 67108864 octets). The member must not have written so often that its event
numbers begin anew. -/
theorem run_mends {count : Nat} (hcount : count ≤ 25136) {config : Config}
    (hmax : config.maxFrame < 2147483648) :
    ∃ c₀, Cluster.start count config = .ok c₀ ∧ ∀ (steps : List Step) (i : Nat),
      steps.countP (Step.writesAt i) < 4611686018427387904 → (c₀.run steps).IsLive i →
      ∀ (copies : Nat → Entries) (key : Bytes) (command : Command) (answer answer' : Answer)
        (payload : Payload) (entries : Entries) (c' : Cluster),
        ((c₀.run steps).entriesAt i).run key command = (.ok (answer, some payload), entries) →
        ((c₀.run steps).overwrite ((c₀.run steps).peersOf i) copies).write i key command
          = (some (.ok answer'), c') →
        c'.entriesAt i = entries
          ∧ Mended (c₀.run steps) c' i key payload ((c₀.run steps).peersOf i) copies := by
  have hthreads : count ≤ 18446744073709551616 := by omega
  obtain ⟨c₀, hc₀, hmembers, hshow, hdue⟩ := start_ok hthreads config
  refine ⟨c₀, hc₀, fun steps i hwrites hi copies key command answer answer' payload entries c'
    hships hwrite => ?_⟩
  have hstart : c₀.Steady config (reserve i steps) fun _ => {} :=
    steady_of_started hthreads hmembers hshow hdue fun j => by
      unfold reserve
      split <;> omega
  obtain ⟨sites, hsteady⟩ := hstart.run hmax i steps
  -- Two numbers are left to the writer: one a round.
  have hleft : 2 ≤ reserve i [] i := by rw [reserve, if_pos rfl]; exact Nat.le_refl 2
  exact hsteady.mends hmax hi hleft (nodup_peersOf _ i) (fun _ => mem_peersOf) hships hwrite

/-- Copies that differ from a set under a key: one has a string there, one has an older set, and
the others have nothing. -/
def astray (key : Bytes) : Nat → Entries
  | 2 => (Entries.run .empty key (.set [120])).2
  | 3 => (Entries.run .empty key (.sadd [[1]])).2
  | _ => .empty

/-- A member writes to a set after another one has crashed and the copies of the rest have gone
astray. It ships a delta, and two of its peers get the whole set. -/
theorem run_mends_astray : ∃ (c₀ c' : Cluster) (steps : List Step) (payload : Payload),
    Cluster.start 5 {} = .ok c₀ ∧ payload.isDelta = true
      ∧ ((c₀.run steps).overwrite ((c₀.run steps).peersOf 0) (astray [97])).write 0 [97]
        (.sadd [[3]]) = (some (.ok (.count 1)), c')
      ∧ Mended (c₀.run steps) c' 0 [97] payload [1, 2, 3] (astray [97])
      ∧ [1, 2, 3].countP (fun j => payload.rejectedBy ((astray [97] j).get? [97])) = 2 := by
  let steps : List Step := [.write 0 [97] (.sadd [[1], [2]]), .crash 4]
  obtain ⟨c₀, hc₀, hmends⟩ := run_mends (by decide : 5 ≤ 25136)
    (by decide : ({} : Config).maxFrame < 2147483648)
  have hrun : (Cluster.start 5 {}).toOption.any (fun c₀ =>
      let c := c₀.run steps
      (c.get? 0).any (!·.crashed) && c.peersOf 0 == [1, 2, 3]
        && (((c.entriesAt 0).run [97] (.sadd [[3]])).1.toOption.bind (·.2)).any (fun p => p.isDelta
          && [1, 2, 3].countP (fun j => p.rejectedBy ((astray [97] j).get? [97])) == 2)
        && (((c.overwrite [1, 2, 3] (astray [97])).write 0 [97] (.sadd [[3]])).1.bind
          (·.toOption)) == some (.count 1)) = true := by decide +kernel
  rw [hc₀] at hrun
  simp only [Except.toOption, Option.any_some, Bool.and_eq_true, beq_iff_eq] at hrun
  obtain ⟨⟨⟨hlive, hpeers⟩, hships⟩, hwrites⟩ := hrun
  have hi : (c₀.run steps).IsLive 0 := by
    obtain ⟨m, hm, hopen⟩ := (Option.any_eq_true _ _).1 hlive
    exact ⟨m, hm, by simpa using hopen⟩
  rcases hcommand : ((c₀.run steps).entriesAt 0).run [97] (.sadd [[3]])
    with ⟨_ | ⟨answer, _ | payload⟩, entries⟩
  · rw [hcommand] at hships
    cases hships
  · rw [hcommand] at hships
    cases hships
  rw [hcommand] at hships
  simp only [Option.bind_some, Option.any_some, Bool.and_eq_true, beq_iff_eq] at hships
  obtain ⟨hdelta, hcount⟩ := hships
  rw [← hpeers] at hwrites
  rcases hwrite : ((c₀.run steps).overwrite ((c₀.run steps).peersOf 0) (astray [97])).write 0 [97]
    (.sadd [[3]]) with ⟨_ | _ | answer', c'⟩
  · rw [hwrite] at hwrites
    cases hwrites
  · rw [hwrite] at hwrites
    cases hwrites
  rw [hwrite] at hwrites
  obtain rfl : answer' = .count 1 := Option.some.inj hwrites
  have hmended := (hmends steps 0 (by decide) hi (astray [97]) [97] (.sadd [[3]]) answer
    (.count 1) payload entries c' hcommand hwrite).2
  rw [hpeers] at hmended
  exact ⟨c₀, c', steps, payload, hc₀, hdelta, hwrite, hmended, hcount⟩

end Cluster

end DataGrid
