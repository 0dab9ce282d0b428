import DataGrid.Proofs.Cluster.Tidiness
import DataGrid.Proofs.Region.Comparing

/-!
# Convergence — what the check of a cluster tells

All copies are tidy, so the check that live members hold the same comes down to how their copies
compare. It says so just if the copies are alike and, where there are two of them, every score is a
number (`Cluster.converged_iff`). This is to say that the copies are equal, or have the same
snapshots, as long as every score is a number and zeros have the same signs
(`Cluster.converged_exact`).
-/

namespace DataGrid

namespace Cluster

variable {c c₀ : Cluster}

/-- The copies of the members that have not crashed. -/
def copies (c : Cluster) : List Entries := c.live.map (·.entries c.fabric)

theorem tidy_of_mem_copies (h : c.fabric.AllTidy) {a : Entries} (ha : a ∈ c.copies) : a.Tidy := by
  obtain ⟨r, -, rfl⟩ := List.mem_map.1 ha
  exact Region.tidy_entries h r

theorem converged_eq (c : Cluster) : c.converged = match c.copies with
    | [] => true
    | first :: rest => rest.all fun a => entriesAgree a.entries first.entries := by
  unfold converged copies
  cases c.live with
  | nil => rfl
  | cons first rest =>
    rw [List.map_cons]
    dsimp only
    rw [List.all_map]
    rfl

/-- **What the check tells of tidy copies**: that they are alike and, where there are two of them,
that every score is a number. -/
theorem converged_iff (h : c.fabric.AllTidy) : c.converged = true
    ↔ (∀ a ∈ c.copies, ∀ b ∈ c.copies, a.Alike b)
      ∧ (2 ≤ c.copies.length → ∀ a ∈ c.copies, a.Numeric) := by
  have htidy : ∀ a ∈ c.copies, a.Tidy := fun a ha => tidy_of_mem_copies h ha
  rw [converged_eq]
  generalize c.copies = copies at htidy ⊢
  cases copies with
  | nil => exact ⟨fun _ => ⟨nofun, fun _ => nofun⟩, fun _ => rfl⟩
  | cons first rest =>
    obtain ⟨hfirst, hrest⟩ := List.forall_mem_cons.1 htidy
    have hall : (rest.all fun a => entriesAgree a.entries first.entries) = true
        ↔ ∀ a ∈ rest, a.Alike first ∧ a.Numeric := by
      rw [List.all_eq_true]
      exact forall₂_congr fun a ha => Entries.agrees_iff (hrest a ha) hfirst
    rw [hall]
    constructor
    · intro hagree
      have halike : ∀ a ∈ first :: rest, a.Alike first :=
        List.forall_mem_cons.2 ⟨.refl first, fun a ha => (hagree a ha).1⟩
      refine ⟨fun a ha b hb => (halike a ha).trans (halike b hb).symm, fun htwo a ha => ?_⟩
      -- Somebody besides the first is compared with it, so the first has numbers only.
      cases rest with
      | nil => exact (Nat.not_succ_le_self 1 htwo).elim
      | cons second rest =>
        obtain ⟨hsecond, hnumeric⟩ := hagree second List.mem_cons_self
        exact (hsecond.trans (halike a ha).symm).numeric hnumeric
    · rintro ⟨halike, hnumeric⟩ a ha
      have hmem : a ∈ first :: rest := List.mem_cons_of_mem first ha
      have htwo : 2 ≤ (first :: rest).length := by
        have := List.length_pos_of_mem ha
        rw [List.length_cons]
        omega
      exact ⟨halike a hmem first List.mem_cons_self, hnumeric htwo a hmem⟩

/-- **The check is right where scores are numbers and zeros have one sign.** Start a cluster of any
number of members, let them write and crash in any order, and let anything fail that can. Then the
check says that the live members hold the same just if their copies are alike and, where two members
are live, every score is a number; and the copies are equal just if they are alike and their zeros
have the same signs. So where two live members hold no score that is not a number, and no zeros of
two signs for one member of one sorted set, the check says so just if the copies are equal: the same
keys, and under each the same kind, contents, number of the last append, bits of the scores and
expiration. If the lengths in them can be written then this is to say that they have the same
snapshots, octet for octet, under the same keys. -/
theorem converged_exact {count : Nat} {config : Config} (h : Cluster.start count config = .ok c₀)
    (steps : List Step) :
    let c := c₀.run steps
    (c.converged = true ↔ (∀ a ∈ c.copies, ∀ b ∈ c.copies, a.Alike b)
        ∧ (2 ≤ c.copies.length → ∀ a ∈ c.copies, a.Numeric))
      ∧ ((∀ a ∈ c.copies, ∀ b ∈ c.copies, a = b)
        ↔ (∀ a ∈ c.copies, ∀ b ∈ c.copies, a.Alike b)
          ∧ ∀ a ∈ c.copies, ∀ b ∈ c.copies, a.SameZeros b)
      ∧ ((2 ≤ c.copies.length → ∀ a ∈ c.copies, a.Numeric) →
        (∀ a ∈ c.copies, ∀ b ∈ c.copies, a.SameZeros b) →
          (c.converged = true ↔ ∀ a ∈ c.copies, ∀ b ∈ c.copies, a = b)
          ∧ ((∀ a ∈ c.copies, a.Fits) → (c.converged = true
            ↔ ∀ a ∈ c.copies, ∀ b ∈ c.copies, a.snapshots = b.snapshots))) := by
  intro c
  have htidy : ∀ a ∈ c.copies, a.Tidy := fun a ha => tidy_of_mem_copies (run_allTidy h steps) ha
  have hconverged := converged_iff (run_allTidy h steps)
  have hequal : (∀ a ∈ c.copies, ∀ b ∈ c.copies, a = b)
      ↔ (∀ a ∈ c.copies, ∀ b ∈ c.copies, a.Alike b)
        ∧ ∀ a ∈ c.copies, ∀ b ∈ c.copies, a.SameZeros b := by
    simp only [← forall_and]
    exact forall₂_congr fun a ha => forall₂_congr fun b hb =>
      Entries.eq_iff (htidy a ha) (htidy b hb)
  refine ⟨hconverged, hequal, fun hnumeric hzeros => ?_⟩
  have hsound : c.converged = true ↔ ∀ a ∈ c.copies, ∀ b ∈ c.copies, a = b := by
    rw [hconverged, hequal, and_iff_left hnumeric, and_iff_left hzeros]
  refine ⟨hsound, fun hfits => hsound.trans ?_⟩
  exact forall₂_congr fun a ha => forall₂_congr fun b hb =>
    (Entries.snapshots_inj (htidy a ha) (htidy b hb) (hfits a ha) (hfits b hb)).symm

/-- A member writes a score that is no number: the copies are equal, and the check denies it. Or it
scores zero, and then zero of the other sign, of which it tells nobody: the snapshots differ, and
the check does not see it. -/
theorem converged_inexact : ∃ c₀, Cluster.start 2 {} = .ok c₀
    ∧ (∃ steps, (c₀.run steps).converged = false ∧ (c₀.run steps).copies.length = 2
      ∧ (∀ a ∈ (c₀.run steps).copies, ∀ b ∈ (c₀.run steps).copies, a = b)
      ∧ ∀ a ∈ (c₀.run steps).copies, ∀ b ∈ (c₀.run steps).copies, a.snapshots = b.snapshots)
    ∧ ∃ steps, (c₀.run steps).converged = true
      ∧ ∃ a ∈ (c₀.run steps).copies, ∃ b ∈ (c₀.run steps).copies, a.snapshots ≠ b.snapshots := by
  let noNumber : List Step := [.write 0 [107] (.zadd [([97], ⟨0x7FF8000000000000⟩)])]
  let twoZeros : List Step := [.write 0 [107] (.zadd [([97], ⟨0⟩)]),
    .write 0 [107] (.zadd [([97], ⟨0x8000000000000000⟩)])]
  obtain ⟨c₀, hc₀, -⟩ := start_ok (by decide : 2 ≤ 18446744073709551616) {}
  have hrun : (Cluster.start 2 {}).toOption.any (fun c₀ =>
      !(c₀.run noNumber).converged && (c₀.run noNumber).copies.length == 2
        && (c₀.run noNumber).copies.all (fun a => (c₀.run noNumber).copies.all (a == ·))
        && (c₀.run twoZeros).converged
        && (c₀.run twoZeros).copies.any fun a =>
          (c₀.run twoZeros).copies.any (a.snapshots != ·.snapshots)) = true := by
    decide +kernel
  rw [hc₀] at hrun
  simp only [Except.toOption, Option.any_some, Bool.and_eq_true, Bool.not_eq_true', beq_iff_eq,
    List.all_eq_true, List.any_eq_true, bne_iff_ne] at hrun
  obtain ⟨⟨⟨⟨hdenied, hlength⟩, hequal⟩, hpassed⟩, a, ha, b, hb, happart⟩ := hrun
  exact ⟨c₀, hc₀, ⟨noNumber, hdenied, hlength, hequal, fun a ha b hb =>
    congrArg Entries.snapshots (hequal a ha b hb)⟩, twoZeros, hpassed, a, ha, b, hb, happart⟩

/-- Three members write by turns, with scores that are numbers, one of them below zero and one of
them zero, and one of the members crashes. -/
theorem converged_exact_through_crash : ∃ c₀, Cluster.start 3 {} = .ok c₀
    ∧ ∃ steps : List Step, (c₀.run steps).converged = true ∧ (c₀.run steps).copies.length = 2
      ∧ (∀ a ∈ (c₀.run steps).copies, ∀ b ∈ (c₀.run steps).copies, a.Alike b)
      ∧ ∀ a ∈ (c₀.run steps).copies, ∀ b ∈ (c₀.run steps).copies, a.snapshots = b.snapshots := by
  let steps : List Step := [.write 0 [107] (.zadd [([97], ⟨0xC008000000000000⟩), ([98], ⟨0⟩)]),
    .write 1 [107] (.zadd [([97], ⟨0x3FF8000000000000⟩)]), .crash 1, .write 2 [108] (.sadd [[1]])]
  obtain ⟨c₀, hc₀, -⟩ := start_ok (by decide : 3 ≤ 18446744073709551616) {}
  obtain ⟨hconverged, -, hsound⟩ := converged_exact hc₀ steps
  have hrun : (Cluster.start 3 {}).toOption.any (fun c₀ =>
      (c₀.run steps).converged && (c₀.run steps).copies.length == 2
        && (c₀.run steps).copies.all fun a => decide (a.Fits ∧ a.Numeric)
          && (c₀.run steps).copies.all (decide <| a.SameZeros ·)) = true := by
    decide +kernel
  rw [hc₀] at hrun
  simp only [Except.toOption, Option.any_some, Bool.and_eq_true, beq_iff_eq, List.all_eq_true,
    decide_eq_true_eq] at hrun
  obtain ⟨⟨hpassed, hlength⟩, hcopies⟩ := hrun
  have hsnapshots := (hsound (fun _ a ha => (hcopies a ha).1.2) fun a ha => (hcopies a ha).2).2
    fun a ha => (hcopies a ha).1.1
  exact ⟨c₀, hc₀, steps, hpassed, hlength, (hconverged.1 hpassed).1, hsnapshots.1 hpassed⟩

end Cluster

end DataGrid
