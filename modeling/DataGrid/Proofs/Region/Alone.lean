import DataGrid.Proofs.Region.Simulation
import DataGrid.Region.Cluster

/-!
# Alone — a region without peers

A region whose member has no peers tells nobody of its writes, so a write is what its command does
to the member's copy, and it fails only if the command is refused. Whatever is written to such a
region from when it is empty, it answers and holds what the reference store does
(`Region.writeAll_runs`).
-/

namespace DataGrid

open Reference

namespace Region

/-! ## Definitions -/

/-- The results of writes, one after another, and the region after them. -/
def writeAll (r : Region) (w : RegionFabric) :
    List (Bytes × Command) → List (Except RegionError Answer) × Region × RegionFabric
  | [] => ([], r, w)
  | (key, c) :: rest =>
    let (result, r, w) := r.write w key c
    let (results, r, w) := writeAll r w rest
    (result :: results, r, w)

/-- Whether every write gets a fair draw for what is under its key by then. -/
def drawsAll (r : Region) (w : RegionFabric) : List (Bytes × Command) → Bool
  | [] => true
  | (key, c) :: rest =>
    c.draws (r.get? w key) && drawsAll (r.write w key c).2.1 (r.write w key c).2.2 rest

/-- Whether a region has no peers and its copy has the entries given. -/
structure Alone (r : Region) (w : RegionFabric) (entries : Entries) : Prop where
  peers : r.peers w = []
  attached : (w.attached? r.place).map (·.entries) = some entries

/-! ## Writing -/

variable {r : Region} {w : RegionFabric} {entries : Entries}

theorem Alone.entries_eq (h : r.Alone w entries) : r.entries w = entries := by
  obtain ⟨s, hs, rfl⟩ := Option.map_eq_some_iff.1 h.attached
  rw [Region.entries, Region.state, hs]
  rfl

/-- Replacing the entries of the copy makes no peers. -/
theorem Alone.setEntries (h : r.Alone w entries) (entries' : Entries) :
    r.Alone (r.setEntries w entries') entries' := by
  obtain ⟨hpeers, hattached⟩ := h
  rw [Fabric.attached?] at hattached
  cases hnode : w.node? r.place with
  | none =>
    rw [hnode] at hattached
    cases hattached
  | some n =>
    rw [hnode] at hattached
    obtain ⟨s, hs, -⟩ := Option.map_eq_some_iff.1 hattached
    have hs : n.attached = some s := hs
    have hself : ∀ n' : Node Update RegionState, (w.setNode r.place n').node? r.place = some n' :=
      fun n' => OrdMap.get?_insert_self _ _ _
    rw [Region.peers, hnode] at hpeers
    have hset : r.setEntries w entries'
        = w.setNode r.place { n with attached := some { s with entries := entries' } } := by
      rw [Region.setEntries, Fabric.modify, hnode]
      simp only [hs, Option.map_some]
    rw [hset]
    refine ⟨?_, ?_⟩
    · rw [Region.peers, hself]
      exact hpeers
    · rw [Fabric.attached?, hself]
      rfl

/-- **A write to a region without peers is what its command does.** -/
theorem Alone.write (h : r.Alone w entries) (key : Bytes) (c : Command) :
    r.write w key c = (((entries.run key c).1.map Prod.fst).mapError .command, r,
      r.setEntries w (entries.run key c).2) := by
  have hpeers := (h.setEntries (entries.run key c).2).peers
  rw [Region.write, h.entries_eq]
  rcases hrun : entries.run key c with ⟨_ | ⟨answer, _ | payload⟩, entries'⟩
  · rfl
  · rfl
  · rw [hrun] at hpeers
    simp only [distribute, hpeers]
    rfl

/-! ## Writing on -/

/-- A region without peers that holds a store answers writes as the reference does, and holds the
store that the reference makes. -/
theorem Alone.writeAll (h : r.Alone w entries) (htidy : entries.Tidy) {contents : Contents}
    (hholds : entries.Holds contents) {commands : List (Bytes × Command)}
    (hdraws : r.drawsAll w commands) :
    ∃ results left, Runs contents commands results left
      ∧ (r.writeAll w commands).1 = results.map (·.mapError .command)
      ∧ ((r.writeAll w commands).2.1.entries (r.writeAll w commands).2.2).Holds left := by
  induction commands generalizing w entries contents with
  | nil =>
    refine ⟨[], contents, .nil contents, rfl, ?_⟩
    rw [Region.writeAll, h.entries_eq]
    exact hholds
  | cons write rest ih =>
    obtain ⟨key, c⟩ := write
    rw [drawsAll, Bool.and_eq_true, h.write] at hdraws
    have hdraws' : c.draws (entries.get? key) := by
      rw [← h.entries_eq]
      exact hdraws.1
    obtain ⟨after, hdoes, htidy', hholds'⟩ := Entries.run_does htidy hholds key hdraws'
    obtain ⟨results, left, hruns, hresults, hleft⟩ :=
      ih (h.setEntries (entries.run key c).2) htidy' hholds' hdraws.2
    refine ⟨_ :: results, left, .cons hdoes hruns, ?_, ?_⟩
    · simp only [Region.writeAll, h.write, hresults, List.map_cons]
    · simp only [Region.writeAll, h.write]
      exact hleft

/-- **An empty region without peers is a store.** Whatever is written to it, one command after
another, it answers as the reference does that begins with nothing, and ends up with what the
reference has. A command that is refused is among them, and nothing else fails. -/
theorem writeAll_runs (hpeers : r.peers w = []) {s : RegionState}
    (hcopy : w.attached? r.place = some s) (hempty : s.entries = .empty)
    {commands : List (Bytes × Command)} (hdraws : r.drawsAll w commands) :
    ∃ results left, Runs (fun _ => none) commands results left
      ∧ (r.writeAll w commands).1 = results.map (·.mapError .command)
      ∧ ((r.writeAll w commands).2.1.entries (r.writeAll w commands).2.2).Holds left := by
  have halone : r.Alone w .empty := ⟨hpeers, by rw [hcopy, Option.map_some, hempty]⟩
  exact halone.writeAll Entries.tidy_empty Entries.holds_empty hdraws

/-- The only member of a cluster makes a set, pops two of its three members, fails to append to it,
removes the last member and makes a string of the same key. -/
theorem writeAll_runs_single :
    let commands : List (Bytes × Command) := [([107], .sadd [[1], [2], [3]]),
      ([107], .spop 2 [[3], [1]]), ([107], .append [4]), ([107], .srem [[2]]), ([107], .append [4])]
    ∃ (c : Cluster) (m : ClusterMember) (results : List (Except CommandError Answer))
        (left : Contents), Cluster.start 1 {} = .ok c ∧ c.get? 0 = some m
      ∧ Runs (fun _ => none) commands results left
      ∧ (m.region.writeAll c.fabric commands).1 = results.map (·.mapError .command) := by
  intro commands
  have hcheck : (Cluster.start 1 {}).toOption.any (fun c => (c.get? 0).any fun m =>
      (m.region.peers c.fabric).isEmpty
        && (c.fabric.attached? m.region.place).any (decide <| ·.entries = .empty)
        && m.region.drawsAll c.fabric commands) = true := by decide +kernel
  cases hstart : Cluster.start 1 {} with
  | error why =>
    rw [hstart] at hcheck
    cases hcheck
  | ok c =>
    rw [hstart, Except.toOption, Option.any_some] at hcheck
    obtain ⟨m, hm, hmember⟩ := (Option.any_eq_true _ _).1 hcheck
    rw [Bool.and_eq_true, Bool.and_eq_true, List.isEmpty_iff] at hmember
    obtain ⟨⟨hpeers, hattached⟩, hdraws⟩ := hmember
    obtain ⟨s, hcopy, hempty⟩ := (Option.any_eq_true _ _).1 hattached
    obtain ⟨results, left, hruns, hresults, -⟩ :=
      writeAll_runs hpeers hcopy (of_decide_eq_true hempty) hdraws
    exact ⟨c, m, results, left, rfl, hm, hruns, hresults⟩

end Region

end DataGrid
