import DataGrid.Proofs.Event.Identity

/-!
# Pinned — what identity caches tell

A connection whose identity is pinned is told it (`IdentityCache.membershipId_of_pinned`), and any
other one has it derived (`IdentityCache.membershipId_of_not_pinned`). What a cache has pinned was
derived from one of the connections there are (`IdentityCache.Backed`), whatever it is asked for.
As no two connections have one id, it tells the identity of a connection whenever the member behind
it can be written (`IdentityCache.Backed.membershipId_fails_iff`), and never another one
(`IdentityCache.Backed.membershipId_fst`).
-/

namespace DataGrid

namespace IdentityCache

/-- Whether what a cache has pinned is the essential data behind one of the connections. -/
def Backed (cache : IdentityCache) (connections : List Connection) : Prop :=
  ∀ id bytes, cache.pinned = some (id, bytes) →
    ∃ c ∈ connections, c.id = id ∧ c.member.essentialBytes .current = .ok bytes

variable {cache : IdentityCache} {connections connections' : List Connection} {c : Connection}

/-! ## One call -/

theorem derive_fst : (cache.derive c).1 = c.member.essentialBytes .current := by
  rw [derive]
  split <;> simp [*]

theorem connect_eq : cache.connect c = ((cache.derive c).1.map fun _ => (), (cache.derive c).2) := by
  rw [connect]
  rcases cache.derive c with ⟨fault | bytes, cache⟩ <;> rfl

theorem connect_snd : (cache.connect c).2 = (cache.derive c).2 := by
  rw [connect_eq]

/-- A connection whose identity is pinned is told it, and the cache stays. -/
theorem membershipId_of_pinned (h : cache.isPinnedFor c) : ∃ bytes,
    cache.pinned = some (c.id, bytes) ∧ cache.membershipId (some c) = (.ok bytes, cache) := by
  rw [isPinnedFor] at h
  split at h
  · next id bytes hpinned =>
    obtain rfl := beq_iff_eq.1 h
    exact ⟨bytes, hpinned, by simp [membershipId, hpinned]⟩
  · cases h

/-- A connection whose identity is not pinned has it derived. -/
theorem membershipId_of_not_pinned (h : ¬cache.isPinnedFor c) :
    cache.membershipId (some c) = ((cache.derive c).1.mapError .wire, (cache.derive c).2) := by
  have hderived : membershipId.derived cache c
      = ((cache.derive c).1.mapError .wire, (cache.derive c).2) := by
    rw [membershipId.derived]
    rcases cache.derive c with ⟨fault | bytes, cache⟩ <;> rfl
  rw [← hderived, membershipId]
  split
  · next id bytes hpinned =>
    rw [isPinnedFor, hpinned, beq_iff_eq] at h
    rw [if_neg h]
  · rfl

/-! ## What is pinned -/

theorem backed_empty : Backed {} connections := nofun

theorem Backed.mono (h : cache.Backed connections) (hsub : connections ⊆ connections') :
    cache.Backed connections' := fun id bytes hpinned =>
  have ⟨c, hc, hid, hbytes⟩ := h id bytes hpinned
  ⟨c, hsub hc, hid, hbytes⟩

theorem Backed.derive (h : cache.Backed connections) (hc : c ∈ connections) :
    (cache.derive c).2.Backed connections := by
  rw [IdentityCache.derive]
  split
  · exact h
  · next bytes hbytes =>
    split
    · exact h
    · rintro id bytes' hpinned
      obtain ⟨rfl, rfl⟩ := Prod.mk.inj (Option.some.inj hpinned)
      exact ⟨c, hc, rfl, hbytes⟩

theorem Backed.membershipId (h : cache.Backed connections) (connection : Option Connection)
    (hconnection : ∀ c ∈ connection, c ∈ connections) :
    (cache.membershipId connection).2.Backed connections := by
  cases connection with
  | none => exact h
  | some c =>
    by_cases hpinned : cache.isPinnedFor c
    · obtain ⟨bytes, -, hanswer⟩ := membershipId_of_pinned hpinned
      rwa [hanswer]
    · rw [membershipId_of_not_pinned hpinned]
      exact h.derive (hconnection c rfl)

/-- **No cache tells an identity that deriving it anew would not give.** -/
theorem Backed.membershipId_fst (h : cache.Backed connections)
    (hids : ∀ c ∈ connections, ∀ c' ∈ connections, c.id = c'.id → c = c') (hc : c ∈ connections) :
    (cache.membershipId (some c)).1 = (c.member.essentialBytes .current).mapError .wire := by
  by_cases hpinned : cache.isPinnedFor c
  · obtain ⟨bytes, hbytes, hanswer⟩ := membershipId_of_pinned hpinned
    -- What is pinned under the connection's id was derived from it.
    obtain ⟨c', hc', hid, hderived⟩ := h c.id bytes hbytes
    obtain rfl := hids c' hc' c hc hid
    rw [hanswer, hderived]
    rfl
  · rw [membershipId_of_not_pinned hpinned, derive_fst]

/-- **A cache has no identity to tell without a connection, or for a member that cannot be
written**, and for no other reason. -/
theorem Backed.membershipId_fails_iff (h : cache.Backed connections)
    (hids : ∀ c ∈ connections, ∀ c' ∈ connections, c.id = c'.id → c = c')
    (connection : Option Connection) (hconnection : ∀ c ∈ connection, c ∈ connections) :
    (∃ e, (cache.membershipId connection).1 = .error e)
      ↔ ∀ c ∈ connection, ¬c.member.Writable := by
  cases connection with
  | none => exact iff_of_true ⟨_, rfl⟩ nofun
  | some c =>
    have hsome : (∀ c' ∈ some c, ¬c'.member.Writable) ↔ ¬c.member.Writable := by simp
    rw [hsome, h.membershipId_fst hids (hconnection c rfl)]
    constructor
    · rintro ⟨e, he⟩ hwritable
      rw [Member.essentialBytes_ok hwritable] at he
      cases he
    · intro hunwritable
      rcases hbytes : c.member.essentialBytes .current with fault | bytes
      · exact ⟨.wire fault, rfl⟩
      · exact absurd (Member.writable_of_essentialBytes hbytes) hunwritable

end IdentityCache

end DataGrid
