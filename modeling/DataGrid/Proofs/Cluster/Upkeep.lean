import DataGrid.Proofs.Cluster.Agreement
import DataGrid.Proofs.Cluster.Stopped

/-!
# Upkeep — a cluster at rest after every step

Whatever the members of a cluster write and whichever of them crash, between the steps the cluster
is at rest, the copies of the live members are tidy, and the next event of a live member is unseen
by the others as long as its numbers last (`Cluster.Steady`). Nothing is asked of the writes, which
may fail in any way, nor of who writes: a member that has crashed reaches nobody.
-/

namespace DataGrid

namespace Fabric

variable {w w' : RegionFabric} {config : Config} {live : Nat → Prop} {sites : Nat → Site} {i : Nat}

/-- What happens at a place that is not live is nothing to the others. -/
theorem Rests.aside (h : w.Rests config live sites) (haside : Aside i w w') (hi : ¬live i) :
    w'.Rests config live sites := by
  have hshow := h.shows.replace (i := i) (s := sites i) haside.membership
    (fun _ _ => by rw [haside.network]) haside.node (fun hlive => absurd hlive hi)
    fun hlive => absurd hlive hi
  rw [Function.update_eq_self] at hshow
  exact ⟨hshow, haside.due.trans h.due, h.calm⟩

end Fabric

namespace Cluster

/-- **Whether a cluster is steady**, with numbers left for the events of its members. -/
structure Steady (c : Cluster) (config : Config) (left : Nat → Nat) (sites : Nat → Site) :
    Prop where
  rests : c.fabric.Rests config c.IsLive sites
  tidy : ∀ i, c.IsLive i → (sites i).state.entries.Tidy
  place : ∀ i m, c.get? i = some m → m.region.place = i
  stopped : ∀ i m, c.get? i = some m → m.crashed = true → c.fabric.Stopped i
  threads : ∀ i j a b, c.get? i = some a → c.get? j = some b → i ≠ j →
    a.region.producer.thread ≠ b.region.producer.thread
  room : ∀ i m, c.get? i = some m → m.crashed = false → m.region.producer.HasRoom (left i)
  unseen : ∀ i j m, c.get? i = some m → m.crashed = false → c.IsLive j → j ≠ i → 0 < left i →
    (sites j).state.tracker.Below m.region.producer.thread m.region.producer.next

variable {c : Cluster} {config : Config} {left left' : Nat → Nat} {sites sites' : Nat → Site}
variable {i : Nat} {m : ClusterMember} {region : Region} {w : RegionFabric}

/-- A member that has crashed is not live. -/
theorem not_isLive_of_crashed (hm : c.get? i = some m) (hcrashed : m.crashed = true) :
    ¬c.IsLive i := by
  rintro ⟨b, hb, hlive⟩
  obtain rfl := Option.some.inj (hm.symm.trans hb)
  rw [hcrashed] at hlive
  cases hlive

/-- Fewer numbers may be left. -/
theorem Steady.mono (h : c.Steady config left sites) (hle : ∀ j, left' j ≤ left j) :
    c.Steady config left' sites where
  rests := h.rests
  tidy := h.tidy
  place := h.place
  stopped := h.stopped
  threads := h.threads
  room j a ha hlive := (h.room j a ha hlive).mono (hle j)
  unseen j k a ha hlive hk hne hpos := h.unseen j k a ha hlive hk hne (by have := hle j; omega)

/-! ## A member writes -/

/-- What a member leaves of a steady cluster when it has written. -/
theorem Steady.setRegion (h : c.Steady config left sites) (hm : c.get? i = some m)
    (hle : ∀ j, left' j ≤ left j) (hrests : w.Rests config c.IsLive sites')
    (htidy : ∀ j, c.IsLive j → (sites' j).state.entries.Tidy)
    (hstopped : ∀ j, ¬c.IsLive j → c.fabric.Stopped j → w.Stopped j)
    (hplace : region.place = i) (hthread : region.producer.thread = m.region.producer.thread)
    (hroom : m.crashed = false → region.producer.HasRoom (left' i))
    (hunseen : m.crashed = false → ∀ j, c.IsLive j → j ≠ i → 0 < left' i →
      (sites' j).state.tracker.Below region.producer.thread region.producer.next)
    (hothers : ∀ j thread sequence, c.IsLive j → m.region.producer.thread ≠ thread →
      (sites j).state.tracker.Below thread sequence →
      (sites' j).state.tracker.Below thread sequence) :
    (c.setRegion i region w).Steady config left' sites' := by
  have hlive := isLive_setRegion c i region w
  refine ⟨hlive ▸ hrests, hlive ▸ htidy, ?_, ?_, threads_setRegion h.threads hm hthread, ?_, ?_⟩
  · intro j b hb
    rcases get?_setRegion_cases hm hb with ⟨rfl, rfl⟩ | ⟨-, hb⟩
    · exact hplace
    · exact h.place j b hb
  · intro j b hb hcrashed
    rcases get?_setRegion_cases hm hb with ⟨rfl, rfl⟩ | ⟨-, hb⟩
    · exact hstopped _ (not_isLive_of_crashed hm hcrashed) (h.stopped _ m hm hcrashed)
    · exact hstopped _ (not_isLive_of_crashed hb hcrashed) (h.stopped j b hb hcrashed)
  · intro j b hb hcrashed
    rcases get?_setRegion_cases hm hb with ⟨rfl, rfl⟩ | ⟨-, hb⟩
    · exact hroom hcrashed
    · exact (h.room j b hb hcrashed).mono (hle j)
  · intro j k b hb hcrashed hk hkj hleft
    rw [hlive] at hk
    rcases get?_setRegion_cases hm hb with ⟨rfl, rfl⟩ | ⟨hji, hb⟩
    · exact hunseen hcrashed k hk hkj hleft
    · refine hothers k _ _ hk (h.threads _ _ _ _ hm hb (Ne.symm hji)) ?_
      exact h.unseen j k b hb hcrashed hk hkj (Nat.lt_of_lt_of_le hleft (hle j))

/-- A member that has crashed writes, and changes its own node alone. -/
theorem Steady.write_crashed (h : c.Steady config left sites) (hm : c.get? m.region.place = some m)
    (hcrashed : m.crashed = true) (key : Bytes) (command : Command)
    (hle : ∀ j, left' j ≤ left j) :
    (c.write m.region.place key command).2.Steady config left' sites := by
  have hdead := not_isLive_of_crashed hm hcrashed
  have hnever : ∀ {P : Prop}, m.crashed = false → P := by
    intro P hopen
    rw [hcrashed] at hopen
    cases hopen
  obtain ⟨result, r', w', hwrite, hplace, hthread, haside⟩ :=
    (h.stopped _ m hm hcrashed).write key command
  rw [write_of_region hm hwrite]
  exact h.setRegion hm hle (h.rests.aside haside hdead) h.tidy
    (fun j _ hstopped => haside.stopped_of hstopped) hplace hthread hnever hnever
    fun _ _ _ _ _ hbelow => hbelow

/-- A live member writes, and spends two numbers at most. -/
theorem Steady.write_live (h : c.Steady config left sites) (hmax : config.maxFrame < 2147483648)
    (hm : c.get? m.region.place = some m) (hopen : m.crashed = false) (key : Bytes)
    (command : Command) (hle : ∀ j, left' j ≤ left j)
    (hleft : left' m.region.place = 0 ∨ left' m.region.place + 2 ≤ left m.region.place) :
    ∃ sites', (c.write m.region.place key command).2.Steady config left' sites' := by
  have hi : c.IsLive m.region.place := ⟨m, hm, hopen⟩
  obtain ⟨result, r', w', sites', hwrite, ⟨hrests, haway, hplace, hpushed⟩, -⟩ :=
    h.rests.write hmax hi (h.tidy _ hi) key command
  rw [write_of_region hm hwrite]
  refine ⟨sites', h.setRegion hm hle hrests (fun j hj => hpushed.tidy j (h.tidy j hj))
    (fun j hj hstopped n hn => hstopped n (by rwa [haway j hj] at hn)) hplace hpushed.thread
    (fun _ => ?_) (fun _ j hj hne hpos => ?_)
    fun j thread sequence _ hne hbelow => hpushed.others j thread sequence hne hbelow⟩
  · rcases hleft with hzero | hroom
    · exact fun hpos => by omega
    · exact hpushed.room _ ((h.room _ m hm hopen).mono hroom)
  · have hroom := hleft.resolve_left (by omega)
    rw [hpushed.thread]
    exact hpushed.unseen j (left' m.region.place) hpos ((h.room _ m hm hopen).mono hroom)
      (h.unseen _ j m hm hopen hj hne (by omega))

/-- **A write keeps a cluster steady**, whoever writes and whatever comes of it. -/
theorem Steady.write (h : c.Steady config left sites) (hmax : config.maxFrame < 2147483648)
    (i : Nat) (key : Bytes) (command : Command) (hle : ∀ j, left' j ≤ left j)
    (hleft : left' i = 0 ∨ left' i + 2 ≤ left i) :
    ∃ sites', (c.write i key command).2.Steady config left' sites' := by
  rcases hm : c.get? i with _ | m
  · rw [Cluster.write, hm]
    exact ⟨sites, h.mono hle⟩
  obtain rfl := h.place i m hm
  rcases hcrashed : m.crashed with _ | _
  · exact h.write_live hmax hm hcrashed key command hle hleft
  · exact ⟨sites, h.write_crashed hm hcrashed key command hle⟩

/-! ## A member crashes -/

/-- **A crash keeps a cluster steady.** -/
theorem Steady.crash (h : c.Steady config left sites) (i : Nat) :
    (c.crash i).Steady config left sites := by
  rcases hm : c.get? i with _ | m
  · rw [Cluster.crash, hm]
    exact h
  by_cases hcrashed : m.crashed
  · rw [crash_of_crashed hm hcrashed]
    exact h
  have hopen : m.crashed = false := Bool.eq_false_iff.2 hcrashed
  obtain ⟨hshow, hdue, ⟨hself, hstopped⟩, hget⟩ := crash_of_live h.rests.shows
    (fun j hj => (h.rests.calm j hj).idle) (h.rests.calm i ⟨m, hm, hopen⟩).queue hm hopen
  have hlive := isLive_of_crashed hget
  -- Whoever has not crashed is who it was.
  have hopen_of : ∀ {j b a}, (c.crash i).get? j = some b → b.crashed = false →
      c.get? j = some a → j = i ∨ a = b → a.crashed = false := by
    intro j b a hb hcrashed ha hcases
    rcases hcases with rfl | rfl
    · rw [hm] at ha
      exact Option.some.inj ha ▸ hopen
    · exact hcrashed
  refine ⟨⟨hlive ▸ hshow, hdue.trans h.rests.due, ?_⟩, ?_, ?_, ?_, ?_, ?_, ?_⟩
  · rw [hlive]
    exact fun j hj => h.rests.calm j hj.1
  · rw [hlive]
    exact fun j hj => h.tidy j hj.1
  · intro j b hb
    obtain ⟨a, ha, hsame, -⟩ := region_of_crashed hget hm hb
    exact hsame ▸ h.place j a ha
  · intro j b hb hcrashed
    obtain ⟨a, ha, -, rfl | rfl⟩ := region_of_crashed hget hm hb
    · exact hself
    · exact hstopped j (h.stopped j a ha hcrashed)
  · intro j k b b' hb hb' hne
    obtain ⟨a, ha, hsame, -⟩ := region_of_crashed hget hm hb
    obtain ⟨a', ha', hsame', -⟩ := region_of_crashed hget hm hb'
    exact hsame ▸ hsame' ▸ h.threads j k a a' ha ha' hne
  · intro j b hb hcrashed
    obtain ⟨a, ha, hsame, hcases⟩ := region_of_crashed hget hm hb
    exact hsame ▸ h.room j a ha (hopen_of hb hcrashed ha hcases)
  · intro j k b hb hcrashed hk hkj hleft
    rw [hlive] at hk
    obtain ⟨a, ha, hsame, hcases⟩ := region_of_crashed hget hm hb
    exact hsame ▸ h.unseen j k a ha (hopen_of hb hcrashed ha hcases) hk.1 hkj hleft

/-- **A step keeps a cluster steady**, whatever comes of it. Who writes spends two numbers. -/
theorem Steady.step (h : c.Steady config left sites) (hmax : config.maxFrame < 2147483648)
    (s : Step) (hle : ∀ j, left' j ≤ left j)
    (hleft : ∀ i, s.writesAt i → left' i = 0 ∨ left' i + 2 ≤ left i) :
    ∃ sites', (c.step s).Steady config left' sites' := by
  cases s with
  | write i key command => exact h.write hmax i key command hle (hleft i (beq_iff_eq.2 rfl))
  | crash i => exact ⟨sites, (h.crash i).mono hle⟩

/-! ## Runs -/

/-- The numbers that are left to a member for its events, if it writes in steps and once more. -/
def reserve (place : Nat) (steps : List Step) (j : Nat) : Nat :=
  if j = place then 2 * (steps.countP (Step.writesAt place) + 1) else 0

theorem reserve_cons_le (place : Nat) (s : Step) (steps : List Step) (j : Nat) :
    reserve place steps j ≤ reserve place (s :: steps) j := by
  unfold reserve
  rw [List.countP_cons]
  split <;> omega

/-- A write of the member has two numbers for its rounds. -/
theorem reserve_write (place i : Nat) {s : Step} (hwrites : s.writesAt i) (steps : List Step) :
    reserve place steps i = 0 ∨ reserve place steps i + 2 ≤ reserve place (s :: steps) i := by
  unfold reserve
  by_cases hi : i = place
  · rw [if_pos hi, if_pos hi, List.countP_cons, if_pos (hi ▸ hwrites)]
    omega
  · exact .inl (if_neg hi)

/-- **Steps keep a cluster steady**, whatever comes of them. -/
theorem Steady.run (hmax : config.maxFrame < 2147483648) (place : Nat) (steps : List Step)
    {c : Cluster} {sites : Nat → Site} (h : c.Steady config (reserve place steps) sites) :
    ∃ sites', (c.run steps).Steady config (reserve place []) sites' := by
  -- What is left to the member is counted off the steps that are still to come.
  induction steps generalizing c sites with
  | nil => exact ⟨sites, h⟩
  | cons s steps ih =>
    obtain ⟨sites', hsteady⟩ := h.step hmax s (reserve_cons_le place s steps)
      fun i hwrites => reserve_write place i hwrites steps
    exact ih hsteady

/-- A cluster that has started is steady. -/
theorem steady_of_started {count : Nat} (hcount : count ≤ 18446744073709551616)
    (hmembers : c.members = (List.range count).map newMember)
    (hshow : c.fabric.Shows config (· < count) fun _ => {}) (hdue : c.fabric.due = [])
    (hleft : ∀ i, left i ≤ 9223372036854775808) : c.Steady config left fun _ => {} := by
  have h := settled_of_started hcount hmembers hshow hdue hleft
  refine ⟨⟨h.shows, h.due, fun j hj => ?_⟩, fun j hj => (h.quiet j hj).tidy, h.place, ?_, h.threads,
    fun i m hm _ => h.room i m hm, fun i j m hm _ => h.unseen i j m hm⟩
  · have hquiet := h.quiet j hj
    exact ⟨hquiet.inbox, hquiet.queue, hquiet.idle⟩
  · intro i m hm hcrashed
    rw [get?_of_members hmembers] at hm
    split at hm
    · obtain rfl := Option.some.inj hm
      cases hcrashed
    · cases hm

end Cluster

end DataGrid
