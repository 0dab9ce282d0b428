import DataGrid.Proofs.Cluster.Crash
import DataGrid.Proofs.Cluster.Launching
import DataGrid.Proofs.Cluster.Start

/-!
# Agreement — live members hold the same after every step

Members of a cluster write one at a time, and crash. Between the steps nothing is in flight, nobody
waits, and the copies of the live members are alike (`Cluster.Settled`). A write keeps that: its
update is unseen everywhere, every copy is alike to the writer's, so everybody applies it and
nobody asks for the whole value. A crash only leaves fewer members to compare. So all live members
hold the same after every run (`Cluster.run_agrees`).
-/

namespace DataGrid

open Network (localMember)

/-! ## One round at rest -/

/-- Whether a place is at rest: nothing has arrived, is queued or awaited, and the copy is tidy. -/
structure Site.Quiet (s : Site) : Prop where
  inbox : s.inbox = []
  queue : s.queue = []
  idle : s.keeper.Idle
  tidy : s.state.entries.Tidy

namespace Fabric

variable {w w₁ : RegionFabric} {config : Config} {live : Nat → Prop} {sites : Nat → Site}
variable {r r' : Region} {round : Round} {entries : Entries} {js : List Nat} {frame : Bytes}
variable {u : Update} {keeper : Keeper}

theorem plain_answerEvents (processor : Int32) (js : List Nat) :
    Processor.Plain processor (answerEvents processor js) := by
  intro e he
  obtain ⟨j, -, rfl⟩ := List.mem_map.1 he
  exact ⟨localMember j, rfl⟩

/-- **A round that everybody can take concludes.** All other live places have applied the update,
the writer is idle again, and there is no second round. -/
theorem Sent.conclude (h : w.Sent w₁ config live sites r round entries js frame u keeper)
    (r' : Region) (hr' : r'.place = r.place) (hi : live r.place) (hdue : w.due = [])
    (hquiet : ∀ j, live j → (sites j).Quiet)
    {states : Nat → RegionState}
    (happly : ∀ j ∈ js, (sites j).state.applyUpdate u = (.ok .applied, states j)) :
    ∃ keeper' w₂, r'.conclude w₁ round = (.ok (), r', w₂) ∧ keeper'.Idle ∧ w₂.due = []
      ∧ w₂.Shows config live (fun j =>
        if j ∈ js then { sites j with state := states j }
        else Function.update sites r.place { sites r.place with
          state := { (sites r.place).state with entries }, keeper := keeper' } j) := by
  have hself : r.place ∉ js := fun hj => ((h.mem_iff _).1 hj).2 rfl
  have hlive : ∀ j ∈ js, live j ∧ j ≠ r.place := fun j hj => (h.mem_iff j).1 hj
  have hmax : 9 ≤ config.maxFrame := Nat.le_trans h.announces.long h.announces.fits
  have hdue₁ : w₁.due = js.map .receive := by
    rw [h.due, hdue, foldl_enqueue_receive js h.nodup fun _ _ => List.not_mem_nil, List.nil_append]
  have hid : u.processor = (sites r.place).keeper.next := h.announces.processor
  have hprocessor : u.processor ≠ 0 := hid ▸ Keeper.ne_zero_of_pos (hquiet _ hi).idle.next
  obtain ⟨keeper₁, hwaits₁, hshow₁, hsettled⟩ := h.shows.settle hi hmax (u := u) states
    h.announces.decode h.announces.fits hprocessor h.nodup hlive (fun j hj => by
      have hj' := hquiet j (hlive j hj).1
      simp only [if_pos hj]
      exact ⟨by rw [Site.arrive, hj'.inbox]; rfl, hj'.queue, happly j hj⟩)
    (by simp only [if_neg hself, Function.update_self, (hquiet _ hi).inbox])
    (by rw [hid]; simpa only [if_neg hself, Function.update_self] using h.awaits) hdue₁
  have hwaits₂ : keeper₁.Awaits round.ticket u.processor
      ((Processor.await (js.map localMember) w.membership.contains).run
        (answerEvents u.processor js)) := hwaits₁
  obtain ⟨o, keeper₂, w₂, hfinish, hstale, hidle, hshow₂, hdue₂⟩ := hshow₁.finish hi
    (by simpa only [if_neg hself, Function.update_self] using hwaits₂)
    (plain_answerEvents u.processor js) h.members fun m hm => by
      obtain ⟨j, hj, rfl⟩ := List.mem_map.1 hm
      exact List.mem_map_of_mem hj
  have hland : r'.land w₁.settle round = (.ok none, r', w₂) := by
    rw [Region.land, hr', hfinish]
    simp only [hstale, List.isEmpty_nil, Bool.true_or, if_true]
  refine ⟨keeper₂, w₂, by rw [Region.conclude, hland], hidle, hdue₂.trans hsettled,
    hshow₂.of_forall_eq fun k => ?_⟩
  by_cases hk : k = r.place
  · subst hk
    simp only [Function.update_self, if_neg hself]
  · by_cases hmem : k ∈ js
    · have hk' := hquiet k (hlive k hmem).1
      simp only [Function.update_of_ne hk, if_pos hmem, Site.arrive]
      rw [hk'.inbox, hk'.queue]
    · simp only [Function.update_of_ne hk, if_neg hmem]

end Fabric

/-! ## Runs of a cluster -/

namespace Cluster

/-- What can happen to a cluster: a member writes, or crashes. -/
inductive Step where
  | write (place : Nat) (key : Bytes) (command : Command)
  | crash (place : Nat)

/-- Whether a step is a write of the member at a place. -/
def Step.writesAt (place : Nat) : Step → Bool
  | .write i _ _ => i == place
  | .crash _ => false

/-- The cluster after a step. -/
def step (c : Cluster) : Step → Cluster
  | .write place key command => (c.write place key command).2
  | .crash place => c.crash place

/-- The cluster after steps, one after another. -/
def run (c : Cluster) (steps : List Step) : Cluster := steps.foldl step c

/-- Whether a step can be taken: who writes has not crashed, and the frame that is sent keeps to
the limits. -/
def permits (c : Cluster) (config : Config) : Step → Bool
  | .write place key command =>
    (c.get? place).any fun m => !m.crashed && m.region.fits c.fabric config key command
  | .crash _ => true

/-- Whether steps can be taken, one after another. -/
def permitsAll (config : Config) : Cluster → List Step → Bool
  | _, [] => true
  | c, s :: steps => c.permits config s && permitsAll config (c.step s) steps

/-- Whether a member has not crashed. -/
def IsLive (c : Cluster) (i : Nat) : Prop := ∃ m, c.get? i = some m ∧ m.crashed = false

/-- **Whether a cluster is settled**, with events left for each member to write. -/
structure Settled (c : Cluster) (config : Config) (left : Nat → Nat) (sites : Nat → Site) :
    Prop where
  shows : c.fabric.Shows config c.IsLive sites
  due : c.fabric.due = []
  quiet : ∀ i, c.IsLive i → (sites i).Quiet
  alike : ∀ i j, c.IsLive i → c.IsLive j →
    (sites i).state.entries.Alike (sites j).state.entries
  place : ∀ i m, c.get? i = some m → m.region.place = i
  resends : ∀ i m, c.get? i = some m → m.region.fullResends = 0
  threads : ∀ i j a b, c.get? i = some a → c.get? j = some b → i ≠ j →
    a.region.producer.thread ≠ b.region.producer.thread
  room : ∀ i m, c.get? i = some m → m.region.producer.HasRoom (left i)
  unseen : ∀ i j m, c.get? i = some m → c.IsLive j → j ≠ i → 0 < left i →
    (sites j).state.tracker.Below m.region.producer.thread m.region.producer.next

variable {c : Cluster} {config : Config} {left left' : Nat → Nat} {sites sites' : Nat → Site}
variable {i j : Nat} {m a : ClusterMember} {region : Region} {w : RegionFabric}

/-! ## A member writes -/

theorem get?_setRegion (c : Cluster) (i j : Nat) (region : Region) (w : RegionFabric) :
    (c.setRegion i region w).get? j
      = if j = i then (c.get? j).map ({ · with region }) else c.get? j := by
  rw [get?, get?, setRegion, List.getElem?_modify]
  by_cases hji : j = i
  · subst hji
    simp
  · simp [hji, Ne.symm hji]

/-- A member's write is that of its region. -/
theorem write_of_region (hm : c.get? i = some m) {key : Bytes} {command : Command}
    {result : Except RegionError Answer}
    (h : m.region.write c.fabric key command = (result, region, w)) :
    c.write i key command = (some result, c.setRegion i region w) := by
  rw [Cluster.write, hm]
  simp only [h]

/-- Behind a write a member is the writer with its new region, or who it was. -/
theorem get?_setRegion_cases (hm : c.get? i = some m) {b : ClusterMember}
    (hb : (c.setRegion i region w).get? j = some b) :
    (j = i ∧ b = { m with region }) ∨ (j ≠ i ∧ c.get? j = some b) := by
  rw [get?_setRegion] at hb
  by_cases hji : j = i
  · rw [if_pos hji, hji, hm] at hb
    exact .inl ⟨hji, (Option.some.inj hb).symm⟩
  · rw [if_neg hji] at hb
    exact .inr ⟨hji, hb⟩

/-- Threads stay apart if the writer keeps its own. -/
theorem threads_setRegion
    (h : ∀ i j a b, c.get? i = some a → c.get? j = some b → i ≠ j →
      a.region.producer.thread ≠ b.region.producer.thread) (hm : c.get? i = some m)
    (hthread : region.producer.thread = m.region.producer.thread) :
    ∀ j k a b, (c.setRegion i region w).get? j = some a → (c.setRegion i region w).get? k = some b →
      j ≠ k → a.region.producer.thread ≠ b.region.producer.thread := by
  intro j k a b ha hb hne
  rcases get?_setRegion_cases hm ha with ⟨rfl, rfl⟩ | ⟨-, ha'⟩
  · rcases get?_setRegion_cases hm hb with ⟨rfl, -⟩ | ⟨-, hb'⟩
    · exact absurd rfl hne
    · exact hthread ▸ h _ _ _ _ hm hb' hne
  · rcases get?_setRegion_cases hm hb with ⟨rfl, rfl⟩ | ⟨-, hb'⟩
    · exact hthread ▸ h _ _ _ _ ha' hm hne
    · exact h _ _ _ _ ha' hb' hne

theorem isLive_setRegion (c : Cluster) (i : Nat) (region : Region) (w : RegionFabric) :
    (c.setRegion i region w).IsLive = c.IsLive := by
  funext j
  rw [IsLive, IsLive, get?_setRegion]
  split
  · simp [Option.map_eq_some_iff]
  · rfl

/-- What others find after a write: whoever it was, the events of every member are unseen. -/
theorem Settled.setRegion (h : c.Settled config left sites) (hm : c.get? i = some m)
    (hle : ∀ j, left' j ≤ left j) (hshows : w.Shows config c.IsLive sites') (hdue : w.due = [])
    (hquiet : ∀ j, c.IsLive j → (sites' j).Quiet)
    (halike : ∀ j k, c.IsLive j → c.IsLive k →
      (sites' j).state.entries.Alike (sites' k).state.entries)
    (hplace : region.place = i) (hresends : region.fullResends = 0)
    (hthread : region.producer.thread = m.region.producer.thread)
    (hroom : region.producer.HasRoom (left' i))
    (hunseen : ∀ j, c.IsLive j → j ≠ i → 0 < left' i →
      (sites' j).state.tracker.Below region.producer.thread region.producer.next)
    (hothers : ∀ j thread sequence, c.IsLive j → m.region.producer.thread ≠ thread →
      (sites j).state.tracker.Below thread sequence →
      (sites' j).state.tracker.Below thread sequence) :
    (c.setRegion i region w).Settled config left' sites' := by
  have hlive := isLive_setRegion c i region w
  refine ⟨hlive ▸ hshows, hdue, hlive ▸ hquiet, hlive ▸ halike, ?_, ?_,
    threads_setRegion h.threads hm hthread, ?_, ?_⟩
  · intro j b hb
    rcases get?_setRegion_cases hm hb with ⟨rfl, rfl⟩ | ⟨-, hb⟩
    · exact hplace
    · exact h.place j b hb
  · intro j b hb
    rcases get?_setRegion_cases hm hb with ⟨rfl, rfl⟩ | ⟨-, hb⟩
    · exact hresends
    · exact h.resends j b hb
  · intro j b hb
    rcases get?_setRegion_cases hm hb with ⟨rfl, rfl⟩ | ⟨-, hb⟩
    · exact hroom
    · exact (h.room j b hb).mono (hle j)
  · intro j k b hb hk hkj hleft
    rw [hlive] at hk
    rcases get?_setRegion_cases hm hb with ⟨rfl, rfl⟩ | ⟨hji, hb⟩
    · exact hunseen k hk hkj hleft
    · refine hothers k _ _ hk (h.threads _ _ _ _ hm hb (Ne.symm hji)) ?_
      exact h.unseen j k b hb hk hkj (Nat.lt_of_lt_of_le hleft (hle j))

/-- Who agrees with the writer under the key and agreed with it under every other one is alike. -/
theorem Settled.alike_writer (h : c.Settled config left sites) (hi : c.IsLive i) (hj : c.IsLive j)
    {key : Bytes} {entries copy : Entries}
    (hsame : ∀ k, k ≠ key → entries.get? k = (sites i).state.entries.get? k)
    (hcopy : ∀ k, k ≠ key → copy.get? k = (sites j).state.entries.get? k)
    (hkey : copy.AlikeAt key entries) : copy.Alike entries := by
  intro k
  by_cases hk : k = key
  · exact hk ▸ hkey
  · rw [Entries.AlikeAt, hsame k hk, hcopy k hk]
    exact h.alike j i hj hi k

/-- A write that stays at home keeps a cluster settled. -/
theorem Settled.kept (h : c.Settled config left sites) (hm : c.get? m.region.place = some m)
    (hcrashed : m.crashed = false) (hle : ∀ j, left' j ≤ left j) {key : Bytes} {entries : Entries}
    (htidy : entries.Tidy)
    (hsame : ∀ k, k ≠ key → entries.get? k = (sites m.region.place).state.entries.get? k)
    (hkept : c.fabric.Kept w config c.IsLive sites m.region key entries) :
    ∃ sites', (c.setRegion m.region.place m.region w).Settled config left' sites' := by
  have hi : c.IsLive m.region.place := ⟨m, hm, hcrashed⟩
  have hquiet := h.quiet _ hi
  have halike : ∀ j, c.IsLive j → (Function.update sites m.region.place { sites m.region.place with
      state := { (sites m.region.place).state with entries } } j).state.entries.Alike entries := by
    intro j hj
    by_cases hji : j = m.region.place
    · rw [hji, Function.update_self]
      exact .refl entries
    · rw [Function.update_of_ne hji]
      exact h.alike_writer hi hj hsame (fun _ _ => rfl)
        ((h.alike j _ hj hi key).trans (hkept.alike j hj hji))
  refine ⟨_, h.setRegion hm hle hkept.shows (hkept.due.trans h.due) (fun j hj => ?_)
    (fun j k hj hk => (halike j hj).trans (halike k hk).symm) rfl (h.resends _ m hm) rfl
    ((h.room _ m hm).mono (hle _)) (fun j hj hne hpos => ?_) fun j thread sequence _ _ hbelow => ?_⟩
  · by_cases hji : j = m.region.place
    · rw [hji, Function.update_self]
      exact ⟨hquiet.inbox, hquiet.queue, hquiet.idle, htidy⟩
    · rw [Function.update_of_ne hji]
      exact h.quiet j hj
  · rw [Function.update_of_ne hne]
    exact h.unseen _ j m hm hj hne (Nat.lt_of_lt_of_le hpos (hle _))
  · by_cases hji : j = m.region.place
    · rw [hji] at hbelow ⊢
      rwa [Function.update_self]
    · rwa [Function.update_of_ne hji]

/-- An update that is sent is new to everybody, and leads to the writer's entries. -/
theorem Settled.applies (h : c.Settled config left sites) (hm : c.get? m.region.place = some m)
    (hcrashed : m.crashed = false) (hleft : 0 < left m.region.place) {round : Round}
    {entries : Entries} {js : List Nat} {frame : Bytes} {u : Update} {keeper : Keeper}
    (hsame : ∀ k, k ≠ round.key → entries.get? k = (sites m.region.place).state.entries.get? k)
    (hsent : c.fabric.Sent w config c.IsLive sites m.region round entries js frame u keeper) :
    ∃ states : Nat → RegionState, ∀ j ∈ js,
      (sites j).state.applyUpdate u = (.ok .applied, states j)
        ∧ (states j).entries.Alike entries ∧ (states j).entries.Tidy
        ∧ (states j).tracker = ((sites j).state.tracker.record u.event).2 := by
  have hi : c.IsLive m.region.place := ⟨m, hm, hcrashed⟩
  refine ⟨fun j => ((sites j).state.applyUpdate u).2, fun j hj => ?_⟩
  obtain ⟨hlive, hne⟩ := (hsent.mem_iff j).1 hj
  have hunseen : (sites j).state.tracker.Below u.event.thread u.event.sequence := by
    rw [hsent.announces.thread, hsent.announces.sequence]
    exact h.unseen _ j m hm hlive hne hleft
  have hcarries : u.payload.Carries u.key ((sites m.region.place).state.entries.get? u.key)
      (entries.get? u.key) := by
    rw [hsent.payload, hsent.key]
    exact hsent.carries
  obtain ⟨s', hs', hkey, hcopy, htidy', htracker⟩ :=
    RegionState.applyUpdate_of_carries hunseen.unseen hcarries (h.alike _ j hi hlive u.key)
  rw [hsent.key] at hkey hcopy
  simp only [hs']
  have halike := h.alike_writer hi hlive hsame hcopy (Entries.AlikeAt.symm hkey)
  exact ⟨trivial, halike, htidy' (h.quiet j hlive).tidy, htracker⟩

/-- A write that is sent keeps a cluster settled once everybody has answered. -/
theorem Settled.sent (h : c.Settled config left sites) (hm : c.get? m.region.place = some m)
    (hcrashed : m.crashed = false) (hle : ∀ j, left' j ≤ left j)
    (hleft : left m.region.place = left' m.region.place + 1) {round : Round} {entries : Entries}
    {js : List Nat} {frame : Bytes} {u : Update} {keeper : Keeper} (htidy : entries.Tidy)
    (hsame : ∀ k, k ≠ round.key → entries.get? k = (sites m.region.place).state.entries.get? k)
    (hsent : c.fabric.Sent w config c.IsLive sites m.region round entries js frame u keeper) :
    ∃ w' sites', Region.conclude { m.region with producer := m.region.producer.reserve.2 } w round
        = (.ok (), { m.region with producer := m.region.producer.reserve.2 }, w')
      ∧ (c.setRegion m.region.place { m.region with producer := m.region.producer.reserve.2 }
        w').Settled config left' sites' := by
  have hi : c.IsLive m.region.place := ⟨m, hm, hcrashed⟩
  have hquiet := h.quiet _ hi
  have hroom : m.region.producer.HasRoom (left' m.region.place + 1) := hleft ▸ h.room _ m hm
  have hself : m.region.place ∉ js := fun hj => ((hsent.mem_iff _).1 hj).2 rfl
  have hpositive : 0 < left m.region.place := by omega
  obtain ⟨states, hstates⟩ := h.applies hm hcrashed hpositive hsame hsent
  obtain ⟨keeper', w', hconclude, hidle, hdue, hshow⟩ := hsent.conclude
    { m.region with producer := m.region.producer.reserve.2 } rfl hi h.due h.quiet
    fun j hj => (hstates j hj).1
  -- Every live member is the writer or a recipient, so the two cases below are all there are.
  have hcases : ∀ j, c.IsLive j → j = m.region.place ∨ j ∈ js := fun j hj =>
    (Classical.em _).imp_right fun hne => (hsent.mem_iff j).2 ⟨hj, hne⟩
  have halike : ∀ j, c.IsLive j → (if j ∈ js then { sites j with state := states j }
      else Function.update sites m.region.place { sites m.region.place with
        state := { (sites m.region.place).state with entries }, keeper := keeper' }
          j).state.entries.Alike entries := by
    intro j hj
    rcases hcases j hj with rfl | hmem
    · rw [if_neg hself, Function.update_self]
      exact .refl entries
    · rw [if_pos hmem]
      exact (hstates j hmem).2.1
  refine ⟨w', _, hconclude, h.setRegion hm hle hshow hdue (fun j hj => ?_)
    (fun j k hj hk => (halike j hj).trans (halike k hk).symm) rfl (h.resends _ m hm) rfl
    hroom.reserve (fun j hj hne hpos => ?_) fun j thread sequence hj hne hbelow => ?_⟩
  · rcases hcases j hj with rfl | hmem
    · rw [if_neg hself, Function.update_self]
      exact ⟨hquiet.inbox, hquiet.queue, hidle, htidy⟩
    · rw [if_pos hmem]
      have hj' := h.quiet j hj
      exact ⟨hj'.inbox, hj'.queue, hj'.idle, (hstates j hmem).2.2.1⟩
  · have hmem := (hsent.mem_iff j).2 ⟨hj, hne⟩
    rw [if_pos hmem, (hstates j hmem).2.2.2]
    have hbelow := h.unseen _ j m hm hj hne hpositive
    rw [← hsent.announces.thread, ← hsent.announces.sequence] at hbelow
    have hlt := hroom.lt_reserve hpos
    rw [← hsent.announces.sequence] at hlt
    exact hsent.announces.thread ▸ hbelow.record_self hlt
  · rcases hcases j hj with rfl | hmem
    · rw [if_neg hself, Function.update_self]
      exact hbelow
    · rw [if_pos hmem, (hstates j hmem).2.2.2]
      exact hbelow.record_other (hsent.announces.thread ▸ hne)

/-- **A write keeps a cluster settled.** -/
theorem Settled.write (h : c.Settled config left sites) (left' : Nat → Nat) (hm : c.get? i = some m)
    (hcrashed : m.crashed = false) {key : Bytes} {command : Command}
    (hfits : m.region.fits c.fabric config key command) (hle : ∀ j, left' j ≤ left j)
    (hleft : left i = left' i + 1) :
    ∃ sites', (c.write i key command).2.Settled config left' sites' := by
  have hi : c.IsLive i := ⟨m, hm, hcrashed⟩
  have hplace := h.place i m hm
  subst hplace
  have hquiet := h.quiet _ hi
  obtain ⟨entries, htidy, hsame, hcase⟩ := h.shows.launch hi hquiet.idle hquiet.tidy key command
    hfits
  rcases hcase with ⟨result, w, hlaunch, hkept⟩ | ⟨answer, round, w, js, frame, u, keeper, rfl,
    hlaunch, hsent⟩
  · have hwrite : c.write m.region.place key command
        = (some result, c.setRegion m.region.place m.region w) := by
      rw [Cluster.write, hm]
      simp only [Region.write_eq, hlaunch]
      cases result <;> rfl
    rw [hwrite]
    exact h.kept hm hcrashed hle htidy hsame hkept
  · obtain ⟨w', sites', hconclude, hsettled⟩ := h.sent hm hcrashed hle hleft htidy hsame hsent
    have hwrite : c.write m.region.place round.key command = (some (.ok answer),
        c.setRegion m.region.place { m.region with producer := m.region.producer.reserve.2 } w')
        := by
      rw [Cluster.write, hm]
      simp only [Region.write_eq, hlaunch, hconclude]
      rfl
    rw [hwrite]
    exact ⟨sites', hsettled⟩

/-! ## A member crashes -/

theorem crash_of_crashed (hm : c.get? i = some m) (hcrashed : m.crashed = true) :
    c.crash i = c := by
  rw [Cluster.crash, hm]
  cases c.fabric.network.member? i with
  | none => rfl
  | some member => simp only [hcrashed, if_true]

/-- What is left of a cluster when a live member crashes while nobody waits. -/
theorem crash_of_live (hshow : c.fabric.Shows config c.IsLive sites)
    (hidle : ∀ j, c.IsLive j → (sites j).keeper.Idle) (hqueue : (sites i).queue = [])
    (hm : c.get? i = some m) (hcrashed : m.crashed = false) :
    (c.crash i).fabric.Shows config (fun j => c.IsLive j ∧ j ≠ i) sites
      ∧ (c.crash i).fabric.due = c.fabric.due
      ∧ ((c.crash i).fabric.Stopped i ∧ ∀ j, c.fabric.Stopped j → (c.crash i).fabric.Stopped j)
      ∧ ∀ j, (c.crash i).get? j = if j = i then some { m with crashed := true } else c.get? j := by
  have hi : c.IsLive i := ⟨m, hm, hcrashed⟩
  obtain ⟨p, hp, hat⟩ := hshow.port i hi
  obtain ⟨w, hw, hshow, hdue, hstopped⟩ := hshow.crash hi hidle hqueue
  have hcrash : c.crash i
      = { fabric := w, members := c.members.modify i ({ · with crashed := true }) } := by
    rw [Cluster.crash, hm, Network.member?, hp, Option.map_some, hat.member]
    simp only [hcrashed, hw]
    rfl
  rw [hcrash]
  refine ⟨hshow, hdue, hstopped, fun j => ?_⟩
  rw [get?, List.getElem?_modify]
  by_cases hji : j = i
  · subst hji
    rw [get?] at hm
    simp [hm]
  · simp [hji, Ne.symm hji, get?]

section Crashed

variable {c' : Cluster}
variable (hget : ∀ j, c'.get? j = if j = i then some { m with crashed := true } else c.get? j)

include hget

/-- Whoever has not crashed was live before. -/
theorem isLive_of_crashed : c'.IsLive = fun j => c.IsLive j ∧ j ≠ i := by
  funext j
  rw [IsLive, IsLive, hget]
  by_cases hji : j = i
  · simp [hji]
  · simp [hji]

/-- Whoever is a member was one before, with the same region. -/
theorem region_of_crashed (hm : c.get? i = some m) {b : ClusterMember} (hb : c'.get? j = some b) :
    ∃ a, c.get? j = some a ∧ a.region = b.region ∧ (j = i ∨ a = b) := by
  rw [hget] at hb
  by_cases hji : j = i
  · rw [if_pos hji] at hb
    exact ⟨m, hji ▸ hm, by rw [← Option.some.inj hb], .inl hji⟩
  · rw [if_neg hji] at hb
    exact ⟨b, hb, rfl, .inr rfl⟩

end Crashed

/-- **A crash keeps a cluster settled.** -/
theorem Settled.crash (h : c.Settled config left sites) (i : Nat) :
    (c.crash i).Settled config left sites := by
  rcases hm : c.get? i with _ | m
  · rw [Cluster.crash, hm]
    exact h
  by_cases hcrashed : m.crashed
  · rw [crash_of_crashed hm hcrashed]
    exact h
  have hopen : m.crashed = false := Bool.eq_false_iff.2 hcrashed
  obtain ⟨hshow, hdue, -, hget⟩ := crash_of_live h.shows (fun j hj => (h.quiet j hj).idle)
    (h.quiet i ⟨m, hm, hopen⟩).queue hm hopen
  have hlive := isLive_of_crashed hget
  refine ⟨hlive ▸ hshow, hdue.trans h.due, ?_, ?_, ?_, ?_, ?_, ?_, ?_⟩
  · rw [hlive]
    exact fun j hj => h.quiet j hj.1
  · rw [hlive]
    exact fun j k hj hk => h.alike j k hj.1 hk.1
  · intro j b hb
    obtain ⟨a, ha, hsame, -⟩ := region_of_crashed hget hm hb
    exact hsame ▸ h.place j a ha
  · intro j b hb
    obtain ⟨a, ha, hsame, -⟩ := region_of_crashed hget hm hb
    exact hsame ▸ h.resends j a ha
  · intro j k b b' hb hb' hne
    obtain ⟨a, ha, hsame, -⟩ := region_of_crashed hget hm hb
    obtain ⟨a', ha', hsame', -⟩ := region_of_crashed hget hm hb'
    exact hsame ▸ hsame' ▸ h.threads j k a a' ha ha' hne
  · intro j b hb
    obtain ⟨a, ha, hsame, -⟩ := region_of_crashed hget hm hb
    exact hsame ▸ h.room j a ha
  · intro j k b hb hk hkj hleft
    rw [hlive] at hk
    obtain ⟨a, ha, hsame, -⟩ := region_of_crashed hget hm hb
    exact hsame ▸ h.unseen j k a ha hk.1 hkj hleft

/-! ## Runs -/

/-- **Steps that can be taken keep a cluster settled.** -/
theorem Settled.run (steps : List Step) {c : Cluster} {sites : Nat → Site}
    (h : c.Settled config (fun i => steps.countP (Step.writesAt i)) sites)
    (hsteps : permitsAll config c steps) :
    ∃ sites', (c.run steps).Settled config (fun _ => 0) sites' := by
  -- What is left for each member to write is counted off the steps that are still to come.
  induction steps generalizing c sites with
  | nil => exact ⟨sites, h⟩
  | cons s steps ih =>
    rw [permitsAll, Bool.and_eq_true] at hsteps
    obtain ⟨hfirst, hrest⟩ := hsteps
    cases s with
    | write place key command =>
      rw [permits, Option.any_eq_true] at hfirst
      obtain ⟨m, hm, hfits⟩ := hfirst
      rw [Bool.and_eq_true, Bool.not_eq_true'] at hfits
      obtain ⟨sites', hsettled⟩ := h.write (fun i => steps.countP (Step.writesAt i)) hm hfits.1
        hfits.2 (fun i => by rw [List.countP_cons]; omega)
        (by rw [List.countP_cons, if_pos (by exact beq_self_eq_true place)])
      exact ih hsettled hrest
    | crash place =>
      have hcrash := h.crash place
      have hleft : (fun i => (Step.crash place :: steps).countP (Step.writesAt i))
          = fun i => steps.countP (Step.writesAt i) := by
        funext i
        rw [List.countP_cons, if_neg (by simp [Step.writesAt])]
        rfl
      rw [hleft] at hcrash
      exact ih hcrash hrest

/-- A cluster that has started is settled. -/
theorem settled_of_started {count : Nat} (hcount : count ≤ 18446744073709551616)
    (hmembers : c.members = (List.range count).map newMember)
    (hshow : c.fabric.Shows config (· < count) fun _ => {}) (hdue : c.fabric.due = [])
    (hleft : ∀ i, left i ≤ 9223372036854775808) : c.Settled config left fun _ => {} := by
  have hget : ∀ i m, c.get? i = some m → i < count ∧ m = newMember i := by
    intro i m hm
    rw [get?_of_members hmembers] at hm
    split at hm
    · next hi => exact ⟨hi, (Option.some.inj hm).symm⟩
    · cases hm
  have hlive : c.IsLive = (· < count) := by
    funext i
    refine propext ⟨fun ⟨m, hm, _⟩ => (hget i m hm).1, fun hi => ⟨newMember i, ?_, rfl⟩⟩
    rw [get?_of_members hmembers, if_pos hi]
  refine ⟨hlive ▸ hshow, hdue, fun _ _ => ⟨rfl, rfl, Keeper.idle_empty, Entries.tidy_empty⟩,
    fun _ _ _ _ => .refl _, ?_, ?_, ?_, ?_, fun _ _ _ _ _ _ _ => Tracker.below_empty _ _⟩
  · intro i m hm
    rw [(hget i m hm).2]
    rfl
  · intro i m hm
    rw [(hget i m hm).2]
    rfl
  · intro i j a b ha hb hne heq
    obtain ⟨hi, rfl⟩ := hget i a ha
    obtain ⟨hj, rfl⟩ := hget j b hb
    exact hne (thread_newMember_injective (by omega) (by omega) heq)
  · intro i m hm
    rw [(hget i m hm).2]
    exact Producer.hasRoom_new _ (hleft i)

/-- **All live members hold the same.** In a cluster of as many members as the ports suffice for,
whatever its members write and whichever of them crash, one step after another: when the steps are
taken, the copies of the live members are alike, and nobody was sent a whole value because it could
not take a delta. Every frame is to keep to the limits, and no member writes more often than its
event numbers can count: behind the last number comes the least one, which everybody takes for a
replay. -/
theorem run_agrees {count : Nat} (hcount : count ≤ 25136) (config : Config) :
    ∃ c, Cluster.start count config = .ok c ∧ ∀ steps : List Step, permitsAll config c steps →
      (∀ i, steps.countP (Step.writesAt i) ≤ 9223372036854775808) →
      (∀ a ∈ (c.run steps).live, ∀ b ∈ (c.run steps).live,
        (a.entries (c.run steps).fabric).Alike (b.entries (c.run steps).fabric))
      ∧ ∀ m ∈ (c.run steps).members, m.region.fullResends = 0 := by
  have hthreads : count ≤ 18446744073709551616 := by omega
  obtain ⟨c, hc, hmembers, hshow, hdue⟩ := start_ok hthreads config
  refine ⟨c, hc, fun steps hsteps hwrites => ?_⟩
  obtain ⟨sites, hsettled⟩ :=
    (settled_of_started hthreads hmembers hshow hdue hwrites).run steps hsteps
  have hentries : ∀ a ∈ (c.run steps).live, ∃ i, (c.run steps).IsLive i
      ∧ a.entries (c.run steps).fabric = (sites i).state.entries := by
    intro a ha
    obtain ⟨m, hm, rfl⟩ := List.mem_map.1 ha
    obtain ⟨hmem, hcrashed⟩ := List.mem_filter.1 hm
    obtain ⟨i, hi⟩ := List.getElem?_of_mem hmem
    have hlive : (c.run steps).IsLive i := ⟨m, hi, by simpa using hcrashed⟩
    obtain rfl := hsettled.place i m hi
    exact ⟨_, hlive, hsettled.shows.entries hlive⟩
  refine ⟨fun a ha b hb => ?_, fun m hm => ?_⟩
  · obtain ⟨i, hi, hai⟩ := hentries a ha
    obtain ⟨j, hj, hbj⟩ := hentries b hb
    rw [hai, hbj]
    exact hsettled.alike i j hi hj
  · obtain ⟨i, hi⟩ := List.getElem?_of_mem hm
    exact hsettled.resends i m hi

/-- Three members write by turns under one key, and one of them crashes in between. -/
theorem run_agrees_through_crash :
    ∃ c, Cluster.start 3 {} = .ok c ∧ ∃ steps : List Step, steps.length = 5
      ∧ permitsAll {} c steps
      ∧ (∀ a ∈ (c.run steps).live, ∀ b ∈ (c.run steps).live,
        (a.entries (c.run steps).fabric).Alike (b.entries (c.run steps).fabric))
      ∧ ∀ m ∈ (c.run steps).members, m.region.fullResends = 0 := by
  let steps : List Step := [.write 0 [97] (.sadd [[1], [2]]), .write 1 [97] (.srem [[1]]),
    .write 2 [97] (.expireAt 9 5), .crash 1, .write 2 [97] (.spop 1 [[2]])]
  obtain ⟨c, hc, hagrees⟩ := run_agrees (by decide : 3 ≤ 25136) {}
  have hsteps : permitsAll {} c steps := by
    have hrun : (match Cluster.start 3 {} with
        | .ok c => permitsAll {} c steps
        | .error _ => false) = true := by decide +kernel
    rw [hc] at hrun
    exact hrun
  exact ⟨c, hc, steps, rfl, hsteps, hagrees steps hsteps fun i =>
    Nat.le_trans List.countP_le_length (by decide)⟩

end Cluster

end DataGrid
