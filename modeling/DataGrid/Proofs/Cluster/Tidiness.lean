import DataGrid.Proofs.Cluster.Agreement
import DataGrid.Proofs.Fabric.Attached
import DataGrid.Proofs.Region.Mending

/-!
# Tidiness — no copy holds an empty entity or a staged delta

Whatever members write, whoever crashes and whatever fails, every copy is tidy. Copies change where
a member runs a command and where a handler applies an update, and both leave them tidy, so nothing
needs to be known of the frames on their way (`Cluster.run_allTidy`).
-/

namespace DataGrid

/-! ## Handlers -/

/-- Handlers keep copies tidy. -/
theorem handlersKeep_tidy : HandlersKeep Update fun s : RegionState => s.entries.Tidy := by
  intro u here sender attached h s hs
  cases attached with
  | none => cases hs
  | some t =>
    have htidy : (t.applyUpdate u).2.entries.Tidy := RegionState.tidy_applyUpdate (h t rfl) u
    -- Whatever is answered, the state is what the update made of it.
    have hstate : (Service.handle u here sender (some t)).2 = some (t.applyUpdate u).2 := by
      simp only [Service.handle]
      rcases t.applyUpdate u with ⟨e | outcome, s'⟩
      · rfl
      · dsimp only
        split
        · rfl
        · cases outcome <;> rfl
    rw [hstate] at hs
    cases hs
    exact htidy

/-- Whether all copies are tidy. -/
def Fabric.AllTidy (w : RegionFabric) : Prop := w.AllAttached fun s => s.entries.Tidy

namespace Region

variable {w : RegionFabric} {r : Region}

/-! ## Updates that are sent -/

theorem attached?_push (w : RegionFabric) (place : Nat) (recipients : List Member)
    (update : Int32 → Update) : (push w place recipients update).2.attached? = w.attached? := by
  unfold push
  dsimp only
  split <;> next heq =>
    have hsent := congrArg (fun result => result.2.attached?) heq
    rw [Fabric.attached?_send, Fabric.attached?_await] at hsent
    exact (Fabric.attached?_modifyKeeper _ _ _).trans hsent.symm

theorem attached?_begin (r : Region) (w : RegionFabric) (recipients : List Member) (key : Bytes)
    (payload : Payload) : (r.begin w recipients key payload).2.2.attached? = w.attached? := by
  have hnamed := w.attached?_newEvent r.place r.producer
  unfold begin
  generalize w.newEvent r.place r.producer = named at hnamed ⊢
  obtain ⟨_ | event, producer, w₁⟩ := named
  · exact hnamed
  · have hpushed := attached?_push w₁ r.place recipients
      fun processor => { processor, event, key, payload }
    dsimp only
    generalize push w₁ r.place recipients _ = pushed at hpushed ⊢
    obtain ⟨_ | ⟨ticket, unreachable⟩, w₂⟩ := pushed <;> exact hpushed.trans hnamed

theorem replicate_allTidy (h : w.AllTidy) (r : Region) (recipients : List Member) (key : Bytes)
    (payload : Payload) : (r.replicate w recipients key payload).2.2.AllTidy := by
  have hbegun := h.congr (attached?_begin r w recipients key payload)
  unfold replicate
  generalize r.begin w recipients key payload = begun at hbegun ⊢
  obtain ⟨_ | ticket, r₁, w₁⟩ := begun
  · exact hbegun
  · exact (hbegun.settle handlersKeep_tidy).congr (Fabric.attached?_modifyKeeper _ _ _)

theorem distribute_allTidy (h : w.AllTidy) (r : Region) (key : Bytes) (payload : Payload) :
    (r.distribute w key payload).2.2.AllTidy := by
  unfold distribute
  split
  · exact h
  · next peers hpeers =>
    have hfirst := replicate_allTidy h r (r.peers w) key payload
    generalize r.replicate w (r.peers w) key payload = first at hfirst ⊢
    obtain ⟨_ | outcome, r₁, w₁⟩ := first
    · exact hfirst
    · dsimp only
      split
      · exact hfirst
      · exact replicate_allTidy hfirst _ _ _ _

/-! ## Writes -/

/-- A copy that is read is tidy. -/
theorem tidy_entries (h : w.AllTidy) (r : Region) : (r.entries w).Tidy := by
  unfold entries state
  cases hs : w.attached? r.place with
  | none => exact Entries.tidy_empty
  | some s => exact h r.place s hs

theorem setEntries_allTidy (h : w.AllTidy) (r : Region) {entries : Entries} (he : entries.Tidy) :
    (r.setEntries w entries).AllTidy := by
  unfold setEntries Fabric.modify
  split
  · intro j s hs
    rw [Fabric.attached?_setNode] at hs
    split at hs
    · obtain ⟨t, -, rfl⟩ := Option.map_eq_some_iff.1 hs
      exact he
    · exact h j s hs
  · exact h

theorem write_allTidy (h : w.AllTidy) (r : Region) (key : Bytes) (c : Command) :
    (r.write w key c).2.2.AllTidy := by
  obtain ⟨entries, hrun, htidy, -⟩ := Entries.run_replicates (tidy_entries h r) key c
  have hset := setEntries_allTidy h r htidy
  rw [← hrun] at hset
  unfold write
  generalize (r.entries w).run key c = ran at hset ⊢
  obtain ⟨_ | ⟨answer, _ | payload⟩, entries'⟩ := ran
  · exact hset
  · exact hset
  · exact distribute_allTidy hset r key payload

theorem create_allTidy (h : w.AllTidy) (place : Nat) : (create w place).2.AllTidy := by
  have hlearnt : (w.learn place Update.messageKind Update.read).AllTidy :=
    h.congr (w.attached?_modify place fun _ => rfl)
  exact hlearnt.attach place (s := {}) Entries.tidy_empty

end Region

namespace Cluster

variable {c c₀ : Cluster}

/-! ## Runs -/

theorem write_allTidy (h : c.fabric.AllTidy) (i : Nat) (key : Bytes) (command : Command) :
    (c.write i key command).2.fabric.AllTidy := by
  unfold write
  split
  · exact h
  · exact Region.write_allTidy h _ key command

theorem crash_allTidy (h : c.fabric.AllTidy) (i : Nat) : (c.crash i).fabric.AllTidy := by
  unfold crash
  split
  · next m member hm hmember =>
    split
    · exact h
    · have hisolated : (c.fabric.modifyNetwork (·.isolate i)).AllTidy := h
      exact (hisolated.congr (Fabric.attached?_depart _ member true)).shutdown handlersKeep_tidy i
  · exact h

/-- Every step keeps copies tidy. -/
theorem step_allTidy (h : c.fabric.AllTidy) (s : Step) : (c.step s).fabric.AllTidy := by
  cases s with
  | write place key command => exact write_allTidy h place key command
  | crash place => exact crash_allTidy h place

theorem addMember_allTidy (h : c.fabric.AllTidy) (config : Config) (place : Nat) {c' : Cluster}
    (hc : c.addMember config place = .ok c') : c'.fabric.AllTidy := by
  have hadded := h.addNode place config
  unfold addMember at hc
  generalize c.fabric.addNode place config = added at hadded hc
  obtain ⟨_ | ⟨⟩, w₁⟩ := added
  · cases hc
  · have hcreated := Region.create_allTidy hadded place
    have hstarted := hcreated.congr (Fabric.attached?_start (Region.create w₁ place).2 place)
    dsimp only at hc
    generalize (Region.create w₁ place).2.start place = started at hstarted hc
    obtain ⟨_ | ⟨⟩, w₂⟩ := started
    · cases hc
    · cases hc
      exact hstarted

theorem foldlM_addMember_allTidy (h : c.fabric.AllTidy) (config : Config) (places : List Nat)
    {c' : Cluster} (hc : places.foldlM (addMember · config ·) c = .ok c') : c'.fabric.AllTidy := by
  induction places generalizing c with
  | nil =>
    obtain rfl : c = c' := Except.ok.inj hc
    exact h
  | cons place rest ih =>
    rw [List.foldlM_cons] at hc
    cases hadded : c.addMember config place with
    | error e =>
      rw [hadded] at hc
      cases hc
    | ok c₁ =>
      rw [hadded] at hc
      exact ih (addMember_allTidy h config place hadded) hc

/-- Copies are tidy from the start. -/
theorem start_allTidy {count : Nat} {config : Config} (h : Cluster.start count config = .ok c₀) :
    c₀.fabric.AllTidy := by
  have hnone : ({ network := .localNetwork count } : RegionFabric).AllTidy := fun _ _ => nofun
  have hjoined : (Fabric.ofCount count : RegionFabric).AllTidy :=
    hnone.foldl (fun w hw i => hw.congr (w.attached?_join _)) _
  unfold Cluster.start at h
  cases hadded : (List.range count).foldlM (addMember · config ·)
      ({ fabric := Fabric.ofCount count } : Cluster) with
  | error e =>
    rw [hadded] at h
    cases h
  | ok c =>
    rw [hadded] at h
    cases h
    exact (foldlM_addMember_allTidy hjoined config _ hadded).settle handlersKeep_tidy

/-- **Copies are tidy after any steps**, whatever failed in them. -/
theorem run_allTidy {count : Nat} {config : Config} (h : Cluster.start count config = .ok c₀)
    (steps : List Step) : (c₀.run steps).fabric.AllTidy := by
  have hrun : ∀ c : Cluster, c.fabric.AllTidy → (c.run steps).fabric.AllTidy := by
    induction steps with
    | nil => exact fun _ hc => hc
    | cons s rest ih => exact fun c hc => ih (c.step s) (step_allTidy hc s)
  exact hrun c₀ (start_allTidy h)

end Cluster

end DataGrid
