import DataGrid.Proofs.Cluster.Settling

/-!
# Start — a cluster before anybody writes

Local members are told apart by their names, and each can be written as essential data. The local
network links every place to every other one, so a cluster starts with any number of members that
the thread ids suffice for. Nothing is in flight then, all copies are empty, and no two members
write under one thread id (`Cluster.start_ok`).
-/

namespace DataGrid

open Network (localMember)

/-! ## Local members -/

theorem toString_injective {i j : Nat} (h : toString i = toString j) : i = j := by
  have hdigits : Nat.toDigits 10 i = Nat.toDigits 10 j := by
    rw [← Nat.toList_repr, ← Nat.toList_repr, ← Nat.toString_eq_repr, ← Nat.toString_eq_repr, h]
  rw [← Nat.ofDigitChars_ten_toDigits (n := i), hdigits, Nat.ofDigitChars_ten_toDigits]

theorem localMember_name (i : Nat) : (localMember i).name = "member-" ++ toString i := rfl

/-- Local members are told apart by their names. -/
theorem localMember_injective {i j : Nat} (h : localMember i = localMember j) : i = j := by
  have hname : (localMember i).name = (localMember j).name := by rw [h]
  rw [localMember_name, localMember_name] at hname
  exact toString_injective ((String.append_right_inj _).1 hname)

/-- A character takes at most four octets. -/
theorem Text.length_toBytes_le (s : String) : (Text.toBytes s).length ≤ 4 * s.length := by
  have hencode : ∀ l : List Char, l.utf8Encode.size ≤ 4 * l.length := by
    intro l
    induction l with
    | nil => exact Nat.le_refl 0
    | cons c l ih =>
      have hc := c.utf8Size_le_four
      rw [List.utf8Encode_cons, List.utf8Encode_singleton, ByteArray.size_append,
        List.size_toByteArray, String.length_utf8EncodeChar, List.length_cons]
      omega
  have hs := hencode s.toList
  rw [String.length_toList] at hs
  simpa [Text.toBytes] using hs

theorem localMember_writable {i : Nat} (h : i < 18446744073709551616) :
    (localMember i).Writable := by
  refine ⟨by change (Text.toBytes "127.0.0.1").length ≤ 65535; decide, ?_⟩
  have hdigits : (Nat.repr i).length ≤ 20 :=
    (Nat.length_repr_le_iff (by decide)).2 (Nat.lt_of_lt_of_le h (by decide))
  have hname := Text.length_toBytes_le (localMember i).name
  rw [localMember_name, String.length_append] at hname
  change _ ≤ 4 * (7 + (Nat.repr i).length) at hname
  rw [localMember_name]
  omega

/-- A connection of a member that can be written has an identity, whether or not it is pinned. -/
theorem IdentityCache.connect_ok {c : Connection} (h : c.member.Writable) :
    ∃ bytes identity, c.member.essentialBytes .current = .ok bytes
      ∧ IdentityCache.connect {} c = (.ok (), identity)
      ∧ identity.membershipId (some c) = (.ok bytes, identity) := by
  obtain ⟨bytes, hbytes⟩ : ∃ bytes, c.member.essentialBytes .current = .ok bytes :=
    ⟨_, Member.essentialBytes_eq h .current⟩
  by_cases hport : c.member.port = 0
  · refine ⟨bytes, {}, hbytes, ?_, ?_⟩
    · simp only [connect, derive, hbytes, if_pos hport]
    · simp only [membershipId, membershipId.derived, derive, hbytes, if_pos hport]
  · refine ⟨bytes, { pinned := some (c.id, bytes) }, hbytes, ?_, ?_⟩
    · simp only [connect, derive, hbytes, if_neg hport]
    · simp only [membershipId, if_true]

/-! ## The local network -/

namespace Network

variable {n : Network} {count i j : Nat} {linked : Nat → Nat → Prop}

/-- Whether a network has the ports of local members, at which nothing has happened, and the links
that it is said to have. -/
def Fresh (n : Network) (count : Nat) (linked : Nat → Nat → Prop) : Prop :=
  ∀ i, i < count → ∃ p, n.get? i = some p ∧ p.member = localMember i ∧ p.inbox = []
    ∧ p.inlet = .waiting ∧ ∀ j, j < count → linked i j → p.links.get? (localMember j) = some j

theorem Fresh.mono {linked' : Nat → Nat → Prop} (h : n.Fresh count linked)
    (hle : ∀ i j, linked' i j → linked i j) : n.Fresh count linked' := by
  intro i hi
  obtain ⟨p, hp, hmember, hinbox, hinlet, hlinks⟩ := h i hi
  exact ⟨p, hp, hmember, hinbox, hinlet, fun j hj hij => hlinks j hj (hle i j hij)⟩

theorem Fresh.link (h : n.Fresh count linked) (hj : j < count) :
    (n.link i j).Fresh count fun a b => linked a b ∨ a = i ∧ b = j := by
  obtain ⟨q, hq, hmember, -⟩ := h j hj
  have hlink : n.link i j
      = n.modify i fun p => { p with links := p.links.insert (localMember j) j } := by
    rw [Network.link, hq]
    simp only [hmember]
  intro a ha
  obtain ⟨p, hp, hpm, hinbox, hinlet, hlinks⟩ := h a ha
  rw [hlink, Fabric.get?_modify, hp]
  by_cases hai : a = i
  · rw [if_pos hai, Option.map_some]
    refine ⟨_, rfl, hpm, hinbox, hinlet, fun b hb hab => ?_⟩
    dsimp only
    rw [OrdMap.get?_insert]
    split
    · next heq => rw [localMember_injective heq]
    · next hne =>
      rcases hab with hab | ⟨-, rfl⟩
      · exact hlinks b hb hab
      · exact absurd rfl hne
  · rw [if_neg hai]
    refine ⟨p, rfl, hpm, hinbox, hinlet, fun b hb hab => hlinks b hb ?_⟩
    exact hab.resolve_right fun heq => hai heq.1

theorem Fresh.foldl_connect (pairs : List (Nat × Nat))
    (hpairs : ∀ pair ∈ pairs, pair.1 < count ∧ pair.2 < count) (h : n.Fresh count linked) :
    (pairs.foldl (fun n pair => n.connect pair.1 pair.2) n).Fresh count
      fun i j => linked i j ∨ (i, j) ∈ pairs ∨ (j, i) ∈ pairs := by
  induction pairs generalizing n linked with
  | nil => exact h.mono fun i j hij => by simpa using hij
  | cons pair pairs ih =>
    obtain ⟨a, b⟩ := pair
    obtain ⟨ha, hb⟩ := hpairs (a, b) List.mem_cons_self
    have hboth : (n.connect a b).Fresh count _ := (h.link hb).link ha
    refine (ih (fun pair hpair => hpairs pair (List.mem_cons_of_mem _ hpair)) hboth).mono ?_
    intro i j hij
    simp only [List.mem_cons, Prod.mk.injEq] at hij
    rcases hij with hij | (hij | hij) | (hij | hij)
    · exact .inl (.inl (.inl hij))
    · exact .inl (.inl (.inr hij))
    · exact .inr (.inl hij)
    · exact .inl (.inr hij.symm)
    · exact .inr (.inr hij)

theorem mem_pairs : (i, j) ∈ pairs count ↔ i < j ∧ j < count := by
  simp only [pairs, List.mem_flatMap, List.mem_map, List.mem_filter, List.mem_range,
    decide_eq_true_eq, Prod.mk.injEq]
  constructor
  · rintro ⟨a, -, b, ⟨hb, hab⟩, rfl, rfl⟩
    exact ⟨hab, hb⟩
  · exact fun ⟨hij, hj⟩ => ⟨i, by omega, j, ⟨hj, hij⟩, rfl, rfl⟩

/-- Every place of the local network can reach every other one. -/
theorem fresh_localNetwork (count : Nat) : (localNetwork count).Fresh count fun i j => j ≠ i := by
  have hbare : Network.Fresh ⟨(List.range count).map fun i => ({ member := localMember i } : Port)⟩
      count fun _ _ => False := by
    intro i hi
    refine ⟨{ member := localMember i }, ?_, rfl, rfl, rfl, fun _ _ => False.elim⟩
    simp [Network.get?, hi]
  have hpairs : ∀ pair ∈ pairs count, pair.1 < count ∧ pair.2 < count := by
    rintro ⟨i, j⟩ hpair
    obtain ⟨hij, hj⟩ := mem_pairs.1 hpair
    exact ⟨Nat.lt_trans hij hj, hj⟩
  intro i hi
  obtain ⟨p, hp, hmember, hinbox, hinlet, hlinks⟩ := hbare.foldl_connect (pairs count) hpairs i hi
  refine ⟨p, hp, hmember, hinbox, hinlet, fun j hj hne => hlinks j hj (.inr ?_)⟩
  rcases Nat.lt_or_gt_of_ne hne with hlt | hlt
  · exact .inr (mem_pairs.2 ⟨hlt, hi⟩)
  · exact .inl (mem_pairs.2 ⟨hlt, hj⟩)

end Network

/-! ## The members one by one -/

namespace Fabric

variable {w : RegionFabric} {config : Config} {count k : Nat}

/-- Nobody listens yet, so a member that joins only comes into the membership. -/
theorem join_of_listeners (h : w.membership.listeners = []) (m : Member) :
    ∃ membership, w.join m = { w with membership } ∧ membership.listeners = []
      ∧ ∀ m', membership.contains m' ↔ w.membership.contains m' ∨ m' = m := by
  by_cases hm : w.membership.contains m
  · refine ⟨w.membership, ?_, h, fun m' => ⟨.inl, ?_⟩⟩
    · rw [join, Membership.join, if_pos hm]
      rfl
    · rintro (h | rfl)
      · exact h
      · exact hm
  · refine ⟨{ w.membership with members := w.membership.members.insert m, listeners := [] }, ?_,
      rfl, fun m' => ?_⟩
    · have hlive : w.membership.live = [] := by rw [Membership.live, h, List.filter_nil]
      rw [join, Membership.join, if_neg hm, Membership.notices, Membership.sweep, hlive]
      rfl
    · simp only [Membership.contains, OrdSet.contains_insert, Bool.or_eq_true, decide_eq_true_eq]
      exact Or.comm

theorem foldl_join (h : w.membership.listeners = []) (is : List Nat) :
    ∃ membership, is.foldl (fun w i => w.join (localMember i)) w = { w with membership }
      ∧ ∀ m, membership.contains m ↔ w.membership.contains m ∨ ∃ i ∈ is, localMember i = m := by
  induction is generalizing w with
  | nil => exact ⟨w.membership, rfl, fun m => by simp⟩
  | cons i is ih =>
    obtain ⟨g, hg, hlisteners, hcontains⟩ := join_of_listeners h (localMember i)
    obtain ⟨g', hg', hcontains'⟩ := ih (w := { w with membership := g }) hlisteners
    refine ⟨g', by rw [List.foldl_cons, hg, hg'], fun m => ?_⟩
    rw [hcontains', hcontains]
    simp only [List.mem_cons, exists_eq_or_imp, or_assoc, eq_comm (a := m)]

/-- The fabric of local members before the first of them takes part. -/
theorem ofCount_eq (count : Nat) :
    ∃ membership, (ofCount count : RegionFabric)
        = { network := Network.localNetwork count, membership }
      ∧ ∀ m, membership.contains m ↔ ∃ i, i < count ∧ localMember i = m := by
  obtain ⟨g, hg, hcontains⟩ :=
    foldl_join (w := { network := Network.localNetwork count }) rfl (List.range count)
  refine ⟨g, hg, fun m => (hcontains m).trans ?_⟩
  simp only [List.mem_range]
  exact or_iff_right nofun

/-! ## One more member -/

variable {i : Nat} {n : Node Update RegionState} {p : Port}

/-- A member that has an identity takes part. -/
theorem addNode_eq (config : Config) {m : Member} {identity : IdentityCache}
    (hmember : w.network.member? i = some m)
    (hconnect : IdentityCache.connect {} { id := w.connections + 1, member := m }
      = (.ok (), identity)) :
    ∃ membership nodes, w.addNode i config
        = (.ok (), { w with membership, nodes, connections := w.connections + 1 })
      ∧ membership.members = w.membership.members
      ∧ ∀ j, nodes.get? j = if j = i then
          some { member := m, config, connection := some { id := w.connections + 1, member := m }
                 identity, listener := w.membership.tokens }
        else w.node? j := by
  refine ⟨(w.membership.listen i).2, _, ?_, rfl, fun j => OrdMap.get?_insert w.nodes i j _⟩
  unfold addNode
  rw [hmember]
  simp only [newConnection, hconnect]
  rfl

/-- A node that a copy of the region is attached to reads updates. -/
theorem create_eq (hn : w.node? i = some n) :
    ∃ nodes, Region.create w i = ({ place := i, producer := { thread := w.threads.last + 1 } },
        { w with nodes, threads := { last := w.threads.last + 1 } })
      ∧ ∀ j, nodes.get? j = if j = i then
          some { n with
            registry := n.registry.register Update.messageKind Update.read, attached := some {} }
        else w.node? j := by
  rw [Region.create, learn, modify, hn, attach, modify, node?_setNode, if_pos rfl]
  refine ⟨_, rfl, fun j => ?_⟩
  change ((w.setNode i _).setNode i _).node? j = _
  rw [node?_setNode, node?_setNode]
  split <;> rfl

/-- A node begins to receive from a port that nobody has received from. -/
theorem start_eq (hn : w.node? i = some n) (hopen : n.isShutdown = false)
    (hp : w.network.get? i = some p) (hinlet : p.inlet = .waiting) :
    ∃ nodes, w.start i = (.ok (), { w with
        network := w.network.modify i fun p => { p with inlet := .taken }
        nodes, due := (Activity.work i).enqueue ((Activity.receive i).enqueue w.due) })
      ∧ ∀ j, nodes.get? j = if j = i then some { n with started := true } else w.node? j := by
  obtain ⟨member, links, inbox, inlet⟩ := p
  obtain rfl : inlet = .waiting := hinlet
  refine ⟨_, ?_, fun j => OrdMap.get?_insert w.nodes i j _⟩
  rw [Fabric.start, hn]
  simp only [hopen, Network.subscribe, hp, call_eq]
  rfl

theorem mem_enqueue {a b : Activity} {due : List Activity} :
    a ∈ b.enqueue due ↔ a ∈ due ∨ a = b := by
  unfold Activity.enqueue
  split
  · next hb => exact ⟨.inl, fun h => h.elim id fun heq => heq ▸ hb⟩
  · rw [List.mem_append, List.mem_singleton]

/-- A fabric in which the members of the first places take part. -/
structure Assembled (w : RegionFabric) (config : Config) (count k : Nat) : Prop where
  port : ∀ i, i < count → ∃ p, w.network.get? i = some p ∧ p.member = localMember i
    ∧ p.inbox = [] ∧ p.inlet = (if i < k then .taken else .waiting)
    ∧ ∀ j, j < count → j ≠ i → p.links.get? (localMember j) = some j
  node : ∀ i, i < k → ∃ n, w.node? i = some n ∧ n.IsAt config i {}
  membership : ∀ m, w.membership.contains m ↔ ∃ i, i < count ∧ localMember i = m
  threads : w.threads.last = Int64.ofNat k
  due : ∀ a ∈ w.due, ∃ i, i < k ∧ (a = .receive i ∨ a = .work i)

theorem assembled_ofCount (config : Config) (count : Nat) :
    (ofCount count : RegionFabric).Assembled config count 0 := by
  obtain ⟨g, hw, hg⟩ := ofCount_eq count
  rw [hw]
  refine ⟨fun i hi => ?_, nofun, hg, rfl, nofun⟩
  obtain ⟨p, hp, hmember, hinbox, hinlet, hlinks⟩ := Network.fresh_localNetwork count i hi
  exact ⟨p, hp, hmember, hinbox, hinlet, hlinks⟩

end Fabric

namespace Cluster

open Fabric

variable {c : Cluster} {config : Config} {count k i j : Nat}

/-- The member of a place before it writes. -/
def newMember (i : Nat) : ClusterMember :=
  { region := { place := i, producer := { thread := Int64.ofNat (i + 1) } } }

theorem get?_of_members (h : c.members = (List.range count).map newMember) :
    c.get? i = if i < count then some (newMember i) else none := by
  rw [get?, h, List.getElem?_map]
  split
  · next hi => rw [List.getElem?_range hi, Option.map_some]
  · next hi => rw [List.getElem?_eq_none (by rw [List.length_range]; omega), Option.map_none]

/-- No two members write under one thread id. -/
theorem thread_newMember_injective (hi : i < 18446744073709551616) (hj : j < 18446744073709551616)
    (h : (newMember i).region.producer.thread = (newMember j).region.producer.thread) : i = j := by
  have hbits := congrArg (fun v : Int64 => v.toBitVec.toNat) h
  change (BitVec.ofNat 64 (i + 1)).toNat = (BitVec.ofNat 64 (j + 1)).toNat at hbits
  rw [BitVec.toNat_ofNat, BitVec.toNat_ofNat] at hbits
  omega

/-- The member of the next place takes part. -/
theorem addMember_ok (h : c.fabric.Assembled config count k) (hk : k < count)
    (hcount : count ≤ 18446744073709551616) :
    ∃ c', c.addMember config k = .ok c' ∧ c'.fabric.Assembled config count (k + 1)
      ∧ c'.members = c.members ++ [newMember k] := by
  obtain ⟨w, members⟩ := c
  obtain ⟨p, hp, hmember, hinbox, hinlet, hlinks⟩ := h.port k hk
  rw [if_neg (Nat.lt_irrefl k)] at hinlet
  obtain ⟨bytes, identity, hbytes, hconnect, hid⟩ := IdentityCache.connect_ok
    (c := { id := w.connections + 1, member := localMember k })
    (localMember_writable (Nat.lt_of_lt_of_le hk hcount))
  -- The node gets an identity, then a copy of the region, and then it receives.
  obtain ⟨membership, nodes₁, hadd, hmembership, hnodes₁⟩ := addNode_eq config (i := k)
    (by rw [Network.member?, hp, Option.map_some, hmember]) hconnect
  obtain ⟨nodes₂, hcreate, hnodes₂⟩ := create_eq (i := k)
    (w := { w with membership, nodes := nodes₁, connections := w.connections + 1 })
    (by rw [node?, hnodes₁, if_pos rfl])
  obtain ⟨nodes₃, hstart, hnodes₃⟩ := start_eq (i := k)
    (w := { w with membership, nodes := nodes₂, connections := w.connections + 1
                   threads := { last := w.threads.last + 1 } })
    (by rw [node?, hnodes₂, if_pos rfl]) rfl hp hinlet
  have hthread : w.threads.last + 1 = Int64.ofNat (k + 1) := by
    rw [h.threads, Int64.ofNat_add]
    rfl
  refine ⟨⟨{ w with
      network := w.network.modify k fun p => { p with inlet := .taken }
      membership, nodes := nodes₃, connections := w.connections + 1
      due := (Activity.work k).enqueue ((Activity.receive k).enqueue w.due)
      threads := { last := w.threads.last + 1 } }, members ++ [newMember k]⟩, ?_,
    ⟨fun i hi => ?_, fun i hi => ?_, fun m => ?_, hthread, fun a ha => ?_⟩, rfl⟩
  · rw [addMember, hadd]
    simp only [hcreate, hstart, newMember, ← hthread]
  · obtain ⟨q, hq, hqmember, hqinbox, hqinlet, hqlinks⟩ := h.port i hi
    rw [get?_modify, hq]
    by_cases hik : i = k
    · rw [if_pos hik, if_pos (by omega)]
      exact ⟨_, rfl, hqmember, hqinbox, rfl, hqlinks⟩
    · have hiff : i < k + 1 ↔ i < k := by omega
      simp only [if_neg hik, hiff]
      exact ⟨q, rfl, hqmember, hqinbox, hqinlet, hqlinks⟩
  · by_cases hik : i = k
    · subst hik
      exact ⟨_, by rw [node?, hnodes₃, if_pos rfl], rfl, rfl, rfl, rfl, rfl, ⟨bytes, hbytes, hid⟩,
        rfl, rfl, rfl⟩
    · obtain ⟨n, hn, hat⟩ := h.node i (by omega)
      refine ⟨n, ?_, hat⟩
      rw [node?, hnodes₃, if_neg hik, node?, hnodes₂, if_neg hik, node?, hnodes₁, if_neg hik, hn]
  · rw [Membership.contains, hmembership]
    exact h.membership m
  · rcases mem_enqueue.1 ha with ha | rfl
    · rcases mem_enqueue.1 ha with ha | rfl
      · obtain ⟨i, hi, hplace⟩ := h.due a ha
        exact ⟨i, by omega, hplace⟩
      · exact ⟨k, by omega, .inl rfl⟩
    · exact ⟨k, by omega, .inr rfl⟩

/-- All members take part, one after another. -/
theorem foldlM_addMember (config : Config) (hcount : count ≤ 18446744073709551616) :
    ∀ k, k ≤ count → ∃ c, (List.range k).foldlM (addMember · config ·)
        { fabric := Fabric.ofCount count } = .ok c
      ∧ c.fabric.Assembled config count k ∧ c.members = (List.range k).map newMember
  | 0, _ => ⟨_, rfl, assembled_ofCount config count, rfl⟩
  | k + 1, hk => by
    obtain ⟨c, hc, hassembled, hmembers⟩ := foldlM_addMember config hcount k (by omega)
    obtain ⟨c', hc', hassembled', hmembers'⟩ := addMember_ok hassembled hk hcount
    refine ⟨c', ?_, hassembled', ?_⟩
    · rw [List.range_succ, List.foldlM_append, hc]
      exact congrArg (· >>= pure) hc'
    · rw [hmembers', hmembers, List.range_succ, List.map_append]
      rfl

end Cluster

/-! ## Nothing in flight -/

namespace Fabric

variable {w : RegionFabric} {config : Config} {live : Nat → Prop} {sites : Nat → Site} {i : Nat}

theorem Assembled.shows {count : Nat} (h : w.Assembled config count count) :
    w.Shows config (· < count) fun _ => {} where
  port := by
    intro i hi
    obtain ⟨p, hp, hmember, hinbox, hinlet, hlinks⟩ := h.port i hi
    exact ⟨p, hp, hmember, hinbox, by rw [hinlet, if_pos hi], hlinks⟩
  node := h.node
  membership := h.membership
  distinct := fun _ _ _ _ => localMember_injective

/-- A turn at a place where nothing waits changes nothing. -/
theorem Shows.act_idle (h : w.Shows config live sites) (hi : live i)
    (hinbox : (sites i).inbox = []) (hqueue : (sites i).queue = []) {a : Activity}
    {due : List Activity} (ha : a = .receive i ∨ a = .work i) (hdue : w.due = a :: due) :
    (w.act a).Shows config live sites ∧ (w.act a).due = due := by
  rcases ha with rfl | rfl
  · obtain ⟨hshow₁, hdue₁⟩ := h.takeIn_nil hi hinbox
    obtain ⟨hshow₂, hdue₂⟩ := hshow₁.takeIn_nil hi hinbox
    have hreceive : w.receive i = (w.takeIn i).takeIn i := by
      rw [Fabric.receive, if_pos (h.receives hi)]
    rw [← hreceive] at hshow₂ hdue₂
    exact Shows.act (a := .receive i) rfl hshow₂ (by rw [hdue₂, hdue₁, hdue])
  · obtain ⟨hshow, hsame⟩ := h.work_nil hi hqueue
    exact Shows.act (a := .work i) rfl hshow (hsame.trans hdue)

/-- Where nothing waits anywhere, everything settles as it is. -/
theorem Shows.settle_idle (h : w.Shows config live sites)
    (hidle : ∀ i, live i → (sites i).inbox = [] ∧ (sites i).queue = [])
    (hdue : ∀ a ∈ w.due, ∃ i, live i ∧ (a = .receive i ∨ a = .work i)) :
    w.settle.Shows config live sites ∧ w.settle.due = [] := by
  have hround : ∀ (due : List Activity) (w : RegionFabric), w.Shows config live sites →
      w.due = due → (∀ a ∈ due, ∃ i, live i ∧ (a = .receive i ∨ a = .work i)) →
      (due.foldl Fabric.act w).Shows config live sites ∧ (due.foldl Fabric.act w).due = [] := by
    intro due
    induction due with
    | nil => exact fun w h hdue _ => ⟨h, hdue⟩
    | cons a due ih =>
      intro w h hdue hall
      obtain ⟨i, hi, ha⟩ := hall a List.mem_cons_self
      obtain ⟨hshow, hrest⟩ := h.act_idle hi (hidle i hi).1 (hidle i hi).2 ha hdue
      exact ih _ hshow hrest fun b hb => hall b (List.mem_cons_of_mem a hb)
  obtain ⟨hshow, hnone⟩ := hround w.due w h rfl hdue
  have hlast : w.settle = w.round := by
    change w.round.round.round = _
    have hnone' : w.round.due = [] := hnone
    have hstill : w.round.round = w.round := by
      rw [Fabric.round, hnone']
      rfl
    rw [hstill, hstill]
  rw [hlast]
  exact ⟨hshow, hnone⟩

end Fabric

/-- **A cluster starts** with as many members as there are thread ids. All of them are connected
and empty, and nothing is in flight. -/
theorem Cluster.start_ok {count : Nat} (hcount : count ≤ 18446744073709551616) (config : Config) :
    ∃ c, Cluster.start count config = .ok c ∧ c.members = (List.range count).map newMember
      ∧ c.fabric.Shows config (· < count) (fun _ => {}) ∧ c.fabric.due = [] := by
  obtain ⟨c, hc, hassembled, hmembers⟩ := foldlM_addMember config hcount count (Nat.le_refl count)
  obtain ⟨hshow, hdue⟩ := hassembled.shows.settle_idle (fun _ _ => ⟨rfl, rfl⟩) hassembled.due
  refine ⟨{ c with fabric := c.fabric.settle }, ?_, hmembers, hshow, hdue⟩
  rw [start, hc]
  rfl

end DataGrid
