import DataGrid.Proofs.Event.Pinned
import DataGrid.Proofs.Event.Reserved

/-!
# Numbering — the event ids of one process

A process has any number of producers, connections and identity caches, and what its threads do
with them interleaves. Numbers are reserved one at a time or many at once, and event ids are minted
at a number of their own or at any of a range that was reserved. Minting looks the member up first
and reserves the number after that; anything may happen in between.

Each reservation begins where those before it of the same producer ended (`Reservation.Tiled`). So
no number is handed out twice and none is left out, and event ids that were minted at different
numbers, or by different producers, are never equal (`Process.run_distinct`).
-/

namespace DataGrid

/-- An event id, with the producer and the number that it was minted at. -/
structure Mint where
  producer : Nat
  number : Int
  id : EventId
  deriving DecidableEq, Repr

/-- An event id to be: the member has been looked up, and no number is reserved yet. -/
structure PendingMint where
  producer : Nat
  membership : Bytes
  deriving DecidableEq, Repr

/-- What mints event ids in one process, and what it handed out, the newest first. -/
structure Process where
  threads : ThreadIds := {}
  producers : List Producer := []
  connections : List Connection := []
  caches : List IdentityCache := []
  pending : List PendingMint := []
  reservations : List Reservation := []
  mints : List Mint := []
  deriving DecidableEq, Repr

/-- One step of one of the threads. Things are named by their places. -/
inductive ProcessStep where
  | newProducer
  | newConnection (m : Member)
  | newCache
  /-- A cache derives the identity of a connection. -/
  | connect (cache connection : Nat)
  /-- A cache forgets what is pinned. -/
  | disconnect (cache : Nat)
  | reserve (producer : Nat)
  | reserveRange (producer : Nat) (count : UInt32)
  /-- The first half of minting an id: the member is looked up. -/
  | lookUp (cache : Nat) (connection : Option Nat) (producer : Nat)
  /-- The second half: a number is reserved. -/
  | mint (pending : Nat)
  /-- An id is derived from one at the first number of a reservation, under any membership id. -/
  | derive (reservation : Nat) (offset : Int64) (membership : Bytes) (bucket : Int32)

namespace EventId

/-- An id for a producer whose member is known, at the next number. -/
def mint (membership : Bytes) (p : Producer) : EventId × Producer :=
  ({ membership, thread := p.thread, sequence := p.reserve.1 }, p.reserve.2)

/-- Minting an id is to look the member up and then to reserve a number. -/
theorem generate_eq (cache : IdentityCache) (connection : Option Connection) (p : Producer) :
    generate cache connection p = match cache.membershipId connection with
      | (.error e, cache) => (.error e, cache, p)
      | (.ok membership, cache) => (.ok (mint membership p).1, cache, (mint membership p).2) := rfl

/-- An id that was derived is of the same thread, and so many places further on. -/
theorem withOffset_eq_ok {id derived : EventId} {offset : Int64}
    (h : id.withOffset offset = .ok derived) :
    derived.thread = id.thread ∧ derived.sequence.toInt = id.sequence.toInt + offset.toInt := by
  rw [withOffset] at h
  split at h
  · next hrange =>
    obtain rfl := Except.ok.inj h
    exact ⟨rfl, Int64.toInt_ofInt_of_le hrange.1 (Int.lt_of_le_of_lt hrange.2 (by decide))⟩
  · cases h

end EventId

namespace Process

variable (s : Process)

/-- A producer hands out numbers. -/
def handOut (k count : Nat) (taken : Int64 × Producer) : Process :=
  { s with
    producers := s.producers.set k taken.2
    reservations := { producer := k, first := taken.1, count } :: s.reservations }

/-- A cache is asked for the identity behind a connection, for a producer. -/
def lookUp (i : Nat) (cache : IdentityCache) (connection : Option Connection) (k : Nat) : Process :=
  match cache.membershipId connection with
  | (.ok membership, cache) =>
    { s with
      caches := s.caches.set i cache
      pending := { producer := k, membership } :: s.pending }
  | (.error _, cache) => { s with caches := s.caches.set i cache }

/-- The pending id at a place is minted, at the next number of its producer. -/
def mint (j : Nat) (pending : PendingMint) (p : Producer) : Process :=
  let (id, p') := EventId.mint pending.membership p
  let s := s.handOut pending.producer 1 (p.reserve.1, p')
  { s with
    pending := s.pending.eraseIdx j
    mints := { producer := pending.producer, number := p.reserve.1.toInt, id } :: s.mints }

/-- An id is derived that is so far from the first number of a reservation. -/
def derive (r : Reservation) (p : Producer) (offset : Int64) (membership : Bytes)
    (bucket : Int32) : Process :=
  match EventId.withOffset { membership, thread := p.thread, sequence := r.first, bucket } offset with
  | .ok id =>
    { s with
      mints := { producer := r.producer, number := r.first.toInt + offset.toInt, id } :: s.mints }
  | .error _ => s

/-- The process after a step. A step about a thing that is not there does nothing, nor does a
derivation that leaves its reservation. -/
def step : ProcessStep → Process
  | .newProducer =>
    let (p, threads) := s.threads.newProducer
    { s with threads, producers := s.producers ++ [p] }
  | .newConnection member =>
    { s with connections := s.connections ++ [{ id := s.connections.length + 1, member }] }
  | .newCache => { s with caches := s.caches ++ [{}] }
  | .connect i c =>
    match s.caches[i]?, s.connections[c]? with
    | some cache, some connection =>
      { s with caches := s.caches.set i (cache.connect connection).2 }
    | _, _ => s
  | .disconnect i =>
    (s.caches[i]?).elim s fun cache => { s with caches := s.caches.set i cache.clear }
  | .reserve k => (s.producers[k]?).elim s fun p => s.handOut k 1 p.reserve
  | .reserveRange k count =>
    (s.producers[k]?).elim s fun p => s.handOut k count.toNat (p.reserveRange count)
  | .lookUp i c k =>
    match s.caches[i]?, s.producers[k]? with
    | some cache, some _ => s.lookUp i cache (c.bind fun c => s.connections[c]?) k
    | _, _ => s
  | .mint j =>
    (s.pending[j]?).elim s fun pending =>
      (s.producers[pending.producer]?).elim s fun p => s.mint j pending p
  | .derive i offset membership bucket =>
    match s.reservations[i]? with
    | some r =>
      if 0 ≤ offset.toInt ∧ offset.toInt < r.count then
        (s.producers[r.producer]?).elim s fun p => s.derive r p offset membership bucket
      else s
    | none => s

/-- The process after steps, one after another. -/
def run (steps : List ProcessStep) : Process := steps.foldl step s

end Process

/-! ## Steps -/

namespace Mint

/-- Whether an id was minted at a reserved number of its producer. -/
def Backed (x : Mint) (reservations : List Reservation) : Prop :=
  x.id.thread = Int64.ofNat (x.producer + 1) ∧ x.id.sequence.toInt = x.number
    ∧ ∃ r ∈ reservations, r.Covers x.producer x.number

theorem Backed.cons {x : Mint} {reservations : List Reservation} (h : x.Backed reservations)
    (r : Reservation) : x.Backed (r :: reservations) :=
  have ⟨hthread, hsequence, r', hr', hcovers⟩ := h
  ⟨hthread, hsequence, r', List.mem_cons_of_mem r hr', hcovers⟩

end Mint

namespace Process

open Reservation (taken Tiled)

variable {s s' : Process} {k : Nat} {p : Producer}

/-- What is always so about the numbers of a process. The counters are 64-bit. -/
structure Numbered (s : Process) : Prop where
  threads : s.threads.last = Int64.ofNat s.producers.length
  producers : ∀ k p, s.producers[k]? = some p →
    p.thread = Int64.ofNat (k + 1) ∧ p.next = Int64.ofNat (taken s.reservations k)
  known : ∀ r ∈ s.reservations, r.producer < s.producers.length
  tiled : Tiled s.reservations
  mints : ∀ x ∈ s.mints, x.Backed s.reservations

/-- What is always so about the identities of a process. -/
structure Identified (s : Process) : Prop where
  connections : ∀ i c, s.connections[i]? = some c → c.id = i + 1
  caches : ∀ cache ∈ s.caches, cache.Backed s.connections

/-- What a step comes to. -/
inductive Moves (s : Process) : Process → Prop where
  | stays : s.Moves s
  | newProducer : s.Moves (s.step .newProducer)
  | newConnection (m : Member) : s.Moves (s.step (.newConnection m))
  | newCache : s.Moves (s.step .newCache)
  | connect (i : Nat) {cache : IdentityCache} {c : Connection} (hcache : cache ∈ s.caches)
      (hconnection : c ∈ s.connections) :
      s.Moves { s with caches := s.caches.set i (cache.connect c).2 }
  | disconnect (i : Nat) (cache : IdentityCache) :
      s.Moves { s with caches := s.caches.set i cache.clear }
  | handOut {k : Nat} {p : Producer} (hp : s.producers[k]? = some p) (count : Nat) :
      s.Moves (s.handOut k count (p.next, { p with next := p.next + Int64.ofNat count }))
  | lookUp (i : Nat) {cache : IdentityCache} (hcache : cache ∈ s.caches) (c : Option Nat) (k : Nat) :
      s.Moves (s.lookUp i cache (c.bind fun c => s.connections[c]?) k)
  | mint {pending : PendingMint} {p : Producer} (hp : s.producers[pending.producer]? = some p)
      (j : Nat) : s.Moves (s.mint j pending p)
  | derive {r : Reservation} {p : Producer} {offset : Int64} (hr : r ∈ s.reservations)
      (hp : s.producers[r.producer]? = some p) (hoffset : 0 ≤ offset.toInt)
      (hlt : offset.toInt < r.count) (membership : Bytes) (bucket : Int32) :
      s.Moves (s.derive r p offset membership bucket)

theorem moves_step (s : Process) (a : ProcessStep) : s.Moves (s.step a) := by
  cases a with
  | newProducer => exact .newProducer
  | newConnection m => exact .newConnection m
  | newCache => exact .newCache
  | connect i c =>
    rw [step]
    split
    · next hcache hconnection =>
      exact .connect i (List.mem_of_getElem? hcache) (List.mem_of_getElem? hconnection)
    · exact .stays
  | disconnect i =>
    rw [step]
    cases s.caches[i]? with
    | none => exact .stays
    | some cache => exact .disconnect i cache
  | reserve k =>
    rw [step]
    cases hp : s.producers[k]? with
    | none => exact .stays
    | some p => exact .handOut hp 1
  | reserveRange k count =>
    rw [step]
    cases hp : s.producers[k]? with
    | none => exact .stays
    | some p => exact .handOut hp count.toNat
  | lookUp i c k =>
    rw [step]
    split
    · next hcache _ => exact .lookUp i (List.mem_of_getElem? hcache) c k
    · exact .stays
  | mint j =>
    rw [step]
    cases s.pending[j]? with
    | none => exact .stays
    | some pending =>
      rw [Option.elim_some]
      cases hp : s.producers[pending.producer]? with
      | none => exact .stays
      | some p => exact .mint hp j
  | derive i offset membership bucket =>
    rw [step]
    split
    · next r hr =>
      split
      · next hwithin =>
        cases hp : s.producers[r.producer]? with
        | none => exact .stays
        | some p => exact .derive (List.mem_of_getElem? hr) hp hwithin.1 hwithin.2 _ _
      · exact .stays
    · exact .stays

/-- What is found in a list with one more. -/
theorem eq_some_of_concat {α : Type} {l : List α} {a b : α} {i : Nat}
    (h : (l ++ [a])[i]? = some b) : l[i]? = some b ∨ i = l.length ∧ a = b := by
  rw [List.getElem?_append] at h
  split at h
  · exact .inl h
  · rw [List.getElem?_singleton] at h
    split at h
    · exact .inr ⟨by omega, Option.some.inj h⟩
    · cases h

theorem mem_of_bind_getElem? {connections : List Connection} (c : Option Nat) :
    ∀ connection ∈ c.bind fun c => connections[c]?, connection ∈ connections := by
  intro connection h
  obtain ⟨i, -, hi⟩ := Option.bind_eq_some_iff.1 h
  exact List.mem_of_getElem? hi

/-! ### Numbers -/

/-- Connections, caches and ids to be have no numbers. -/
theorem Numbered.other (h : s.Numbered) (connections : List Connection)
    (caches : List IdentityCache) (pending : List PendingMint) :
    Numbered { s with connections, caches, pending } :=
  ⟨h.threads, h.producers, h.known, h.tiled, h.mints⟩

theorem Numbered.minted (h : s.Numbered) {x : Mint} (hx : x.Backed s.reservations) :
    Numbered { s with mints := x :: s.mints } :=
  ⟨h.threads, h.producers, h.known, h.tiled, List.forall_mem_cons.2 ⟨hx, h.mints⟩⟩

theorem Numbered.newProducer (h : s.Numbered) : (s.step .newProducer).Numbered where
  threads := by
    change s.threads.last + 1 = Int64.ofNat (s.producers ++ [_]).length
    rw [h.threads, List.length_append, Int64.ofNat_add]
    rfl
  producers k p hp := by
    rcases eq_some_of_concat hp with hp | ⟨rfl, rfl⟩
    · exact h.producers k p hp
    · -- No number of a new producer is reserved yet.
      have hnone : taken s.reservations s.producers.length = 0 :=
        Reservation.taken_eq_zero fun r hr => Nat.ne_of_lt (h.known r hr)
      refine ⟨?_, congrArg Int64.ofNat hnone.symm⟩
      change s.threads.last + 1 = _
      rw [h.threads, Int64.ofNat_add]
      rfl
  known r hr := Nat.lt_of_lt_of_le (h.known r hr) (by simp [step])
  tiled := h.tiled
  mints := h.mints

/-- **A reservation begins where those before it ended**, and the producer's count goes up by it. -/
theorem Numbered.handOut (h : s.Numbered) (hp : s.producers[k]? = some p) (count : Nat) :
    (s.handOut k count (p.next, { p with next := p.next + Int64.ofNat count })).Numbered where
  threads := by
    rw [Process.handOut, List.length_set]
    exact h.threads
  producers k' p' hp' := by
    rw [Process.handOut, List.getElem?_set] at hp'
    split at hp'
    · next heq =>
      subst heq
      obtain ⟨hlt, -⟩ := List.getElem?_eq_some_iff.1 hp
      rw [if_pos hlt] at hp'
      obtain rfl := Option.some.inj hp'
      obtain ⟨hthread, hnext⟩ := h.producers k p hp
      refine ⟨hthread, ?_⟩
      rw [Process.handOut, Reservation.taken_cons_self, Int64.ofNat_add, ← hnext]
    · next hne =>
      rw [Process.handOut, Reservation.taken_cons_of_ne hne]
      exact h.producers k' p' hp'
  known := by
    rw [Process.handOut, List.length_set]
    exact List.forall_mem_cons.2 ⟨(List.getElem?_eq_some_iff.1 hp).1, h.known⟩
  tiled := ⟨(h.producers k p hp).2, h.tiled⟩
  mints x hx := (h.mints x hx).cons _

theorem Numbered.mint (h : s.Numbered) {pending : PendingMint}
    (hp : s.producers[pending.producer]? = some p) (j : Nat) : (s.mint j pending p).Numbered := by
  have hbacked : Mint.Backed
      { producer := pending.producer, number := p.next.toInt
        id := (EventId.mint pending.membership p).1 }
      (s.handOut pending.producer 1 p.reserve).reservations :=
    ⟨(h.producers _ p hp).1, rfl, _, List.mem_cons_self, rfl, Int.le_refl _, Int.lt_succ _⟩
  exact ((h.handOut hp 1).other s.connections s.caches (s.pending.eraseIdx j)).minted hbacked

theorem Numbered.derive (h : s.Numbered) {r : Reservation} (hr : r ∈ s.reservations)
    (hp : s.producers[r.producer]? = some p) {offset : Int64} (hoffset : 0 ≤ offset.toInt)
    (hlt : offset.toInt < r.count) (membership : Bytes) (bucket : Int32) :
    (s.derive r p offset membership bucket).Numbered := by
  rw [Process.derive]
  split
  · next id hid =>
    obtain ⟨hthread, hsequence⟩ := EventId.withOffset_eq_ok hid
    exact h.minted ⟨hthread.trans (h.producers _ p hp).1, hsequence, r, hr, rfl,
      Int.le_add_of_nonneg_right hoffset, Int.add_lt_add_left hlt _⟩
  · exact h

/-- **What is so about the numbers of a process stays so**, whatever it does. -/
theorem Numbered.moves (h : s.Numbered) (hmoves : s.Moves s') : s'.Numbered := by
  cases hmoves with
  | stays => exact h
  | newProducer => exact h.newProducer
  | newConnection m => exact h.other _ _ _
  | newCache => exact h.other _ _ _
  | connect i hcache hconnection => exact h.other _ _ _
  | disconnect i cache => exact h.other _ _ _
  | handOut hp count => exact h.handOut hp count
  | lookUp i hcache c k =>
    rw [lookUp]
    split
    · exact h.other _ _ _
    · exact h.other _ _ _
  | mint hp j => exact h.mint hp j
  | derive hr hp hoffset hlt membership bucket => exact h.derive hr hp hoffset hlt membership bucket

/-! ### Identities -/

/-- Producers, and what they handed out, have no identities. -/
theorem Identified.other (h : s.Identified) (threads : ThreadIds) (producers : List Producer)
    (pending : List PendingMint) (reservations : List Reservation) (mints : List Mint) :
    Identified { s with threads, producers, pending, reservations, mints } :=
  ⟨h.connections, h.caches⟩

theorem Identified.setCache (h : s.Identified) {cache : IdentityCache}
    (hcache : cache.Backed s.connections) (i : Nat) :
    Identified { s with caches := s.caches.set i cache } where
  connections := h.connections
  caches cache' hcache' := by
    rcases List.mem_or_eq_of_mem_set hcache' with hold | rfl
    · exact h.caches cache' hold
    · exact hcache

theorem Identified.newConnection (h : s.Identified) (m : Member) :
    (s.step (.newConnection m)).Identified where
  connections i c hc := by
    rcases eq_some_of_concat hc with hc | ⟨rfl, rfl⟩
    · exact h.connections i c hc
    · rfl
  caches cache hcache := (h.caches cache hcache).mono (List.subset_append_left _ _)

theorem Identified.newCache (h : s.Identified) : (s.step .newCache).Identified where
  connections := h.connections
  caches := List.forall_mem_append.2
    ⟨h.caches, List.forall_mem_singleton.2 IdentityCache.backed_empty⟩

theorem Identified.lookUp (h : s.Identified) {cache : IdentityCache} (hcache : cache ∈ s.caches)
    (c : Option Nat) (i k : Nat) :
    (s.lookUp i cache (c.bind fun c => s.connections[c]?) k).Identified := by
  have hbacked := (h.caches cache hcache).membershipId _ (mem_of_bind_getElem? c)
  rw [Process.lookUp]
  split
  · next hresult =>
    rw [hresult] at hbacked
    exact (h.setCache hbacked i).other s.threads s.producers _ s.reservations s.mints
  · next hresult =>
    rw [hresult] at hbacked
    exact h.setCache hbacked i

/-- **What is so about the identities of a process stays so**, whatever it does. -/
theorem Identified.moves (h : s.Identified) (hmoves : s.Moves s') : s'.Identified := by
  cases hmoves with
  | stays => exact h
  | newProducer => exact h.other _ _ _ _ _
  | newConnection m => exact h.newConnection m
  | newCache => exact h.newCache
  | connect i hcache hconnection =>
    refine h.setCache ?_ i
    rw [IdentityCache.connect_snd]
    exact (h.caches _ hcache).derive hconnection
  | disconnect i cache => exact h.setCache IdentityCache.backed_empty i
  | handOut hp count => exact h.other _ _ _ _ _
  | lookUp i hcache c k => exact h.lookUp hcache c i k
  | mint hp j => exact h.other _ _ _ _ _
  | derive hr hp hoffset hlt membership bucket =>
    rw [derive]
    split
    · exact h.other _ _ _ _ _
    · exact h

/-! ## Runs -/

theorem numbered_empty : Numbered {} where
  threads := rfl
  producers := nofun
  known := nofun
  tiled := trivial
  mints := nofun

theorem identified_empty : Identified {} where
  connections := nofun
  caches := nofun

/-- What holds after every step holds after any run. -/
theorem run_induction {P : Process → Prop} (hmoves : ∀ s s', P s → s.Moves s' → P s')
    (steps : List ProcessStep) (s : Process) (h : P s) : P (s.run steps) := by
  induction steps generalizing s with
  | nil => exact h
  | cons a steps ih => exact ih _ (hmoves s _ h (s.moves_step a))

theorem numbered_run (steps : List ProcessStep) : (run {} steps).Numbered :=
  run_induction (fun _ _ h hmoves => h.moves hmoves) steps {} numbered_empty

theorem identified_run (steps : List ProcessStep) : (run {} steps).Identified :=
  run_induction (fun _ _ h hmoves => h.moves hmoves) steps {} identified_empty

/-- Whether no counter passed `2 ^ 63`. -/
def InRange (s : Process) : Prop :=
  s.producers.length ≤ 9223372036854775808
    ∧ ∀ k < s.producers.length, taken s.reservations k ≤ 9223372036854775808

instance (s : Process) : Decidable s.InRange := inferInstanceAs (Decidable (_ ∧ _))

theorem Numbered.taken_le (h : s.Numbered) (hrange : s.InRange) (k : Nat) :
    taken s.reservations k ≤ 9223372036854775808 := by
  by_cases hk : k < s.producers.length
  · exact hrange.2 k hk
  · have hnone : taken s.reservations k = 0 := Reservation.taken_eq_zero fun r hr heq => by
      subst heq
      exact hk (h.known r hr)
    omega

/-- The producer that an id was minted by, and the number that it was minted at, can be told from
the id. -/
theorem Numbered.eq_of_id (h : s.Numbered) (hrange : s.InRange) {x y : Mint} (hx : x ∈ s.mints)
    (hy : y ∈ s.mints) (hthread : x.id.thread = y.id.thread)
    (hsequence : x.id.sequence = y.id.sequence) :
    x.producer = y.producer ∧ x.number = y.number := by
  obtain ⟨hxthread, hxsequence, r, hr, hxcovers⟩ := h.mints x hx
  obtain ⟨hythread, hysequence, r', hr', hycovers⟩ := h.mints y hy
  have hxknown : x.producer < s.producers.length := hxcovers.1 ▸ h.known r hr
  have hyknown : y.producer < s.producers.length := hycovers.1 ▸ h.known r' hr'
  refine ⟨?_, by rw [← hxsequence, ← hysequence, hsequence]⟩
  have hcounts : Int64.ofNat (x.producer + 1) = Int64.ofNat (y.producer + 1) := by
    rw [← hxthread, ← hythread, hthread]
  have hmod := congrArg (fun v : Int64 => v.toBitVec.toNat) hcounts
  simp only [Int64.ofNat, Int64.toBitVec, BitVec.toNat_ofNat] at hmod
  have hroom := hrange.1
  omega

/-- **What a process hands out is never handed out again.** -/
structure Distinct (s : Process) : Prop where
  /-- No number is reserved twice. -/
  disjoint : s.reservations.Pairwise fun r r' => ∀ k n, ¬(r.Covers k n ∧ r'.Covers k n)
  /-- Together, the numbers reserved are all those below the next one. -/
  exhaustive : ∀ k p, s.producers[k]? = some p →
    (∀ n, (∃ r ∈ s.reservations, r.Covers k n) ↔ 0 ≤ n ∧ n < taken s.reservations k)
    ∧ (taken s.reservations k < 9223372036854775808 → p.next.toInt = (taken s.reservations k : Int))
  /-- Minting an id fails without a connection, or if the member cannot be written, and for no other
  reason. -/
  failing : ∀ cache ∈ s.caches, ∀ (c : Option Nat) p,
    (∃ e, (EventId.generate cache (c.bind fun c => s.connections[c]?) p).1 = .error e)
      ↔ ∀ connection ∈ c.bind fun c => s.connections[c]?, ¬connection.member.Writable
  /-- To mint an id is to look the member up and then to reserve the next number. If it fails there
  is nothing to reserve. -/
  minting : ∀ i cache c k p, s.caches[i]? = some cache → s.producers[k]? = some p →
    match EventId.generate cache (c.bind fun c => s.connections[c]?) p with
    | (.error _, cache, p') =>
      p' = p ∧ s.step (.lookUp i c k) = { s with caches := s.caches.set i cache }
    | (.ok id, cache, p') =>
      (s.step (.lookUp i c k)).step (.mint 0) = { s.handOut k 1 (p.next, p') with
        caches := s.caches.set i cache
        mints := { producer := k, number := p.next.toInt, id } :: s.mints }
  /-- Within a reservation, ids can be derived. -/
  derived : ∀ r ∈ s.reservations, ∀ p, s.producers[r.producer]? = some p → ∀ offset : Int64,
    0 ≤ offset.toInt → offset.toInt < r.count → ∀ membership bucket, ∃ id,
      EventId.withOffset { membership, thread := p.thread, sequence := r.first, bucket } offset
        = .ok id
      ∧ s.derive r p offset membership bucket = { s with mints :=
        { producer := r.producer, number := r.first.toInt + offset.toInt, id } :: s.mints }
  /-- An id has the thread id of its producer and the number that it was minted at, which was
  reserved. -/
  minted : ∀ x ∈ s.mints, (∃ p, s.producers[x.producer]? = some p ∧ x.id.thread = p.thread)
    ∧ x.id.sequence.toInt = x.number ∧ ∃ r ∈ s.reservations, r.Covers x.producer x.number
  /-- Ids that were minted at different numbers, or by different producers, are not equal, nor is
  anything that is equal to one of them to what is equal to the other. -/
  unequal : ∀ x ∈ s.mints, ∀ y ∈ s.mints, (x.producer, x.number) ≠ (y.producer, y.number) →
    ∀ a b : EventId, a.same x.id → b.same y.id → ¬a.same b

theorem Identified.eq_of_id (h : s.Identified) :
    ∀ c ∈ s.connections, ∀ c' ∈ s.connections, c.id = c'.id → c = c' := by
  intro c hc c' hc' heq
  obtain ⟨i, hi⟩ := List.mem_iff_getElem?.1 hc
  obtain ⟨j, hj⟩ := List.mem_iff_getElem?.1 hc'
  rw [h.connections i c hi, h.connections j c' hj] at heq
  obtain rfl := Nat.succ.inj heq
  exact Option.some.inj (hi.symm.trans hj)

/-- Minting an id fails if there is no identity to mint it under. -/
theorem generate_fails_iff (cache : IdentityCache) (connection : Option Connection) (p : Producer) :
    (∃ e, (EventId.generate cache connection p).1 = .error e)
      ↔ ∃ e, (cache.membershipId connection).1 = .error e := by
  rw [EventId.generate_eq]
  split <;> simp [*]

/-- An id that is not minted reserves nothing. -/
theorem lookUp_of_generate_error {i k : Nat} {cache cache' : IdentityCache}
    {connection : Option Connection} {p p' : Producer} {e : EventError}
    (h : EventId.generate cache connection p = (.error e, cache', p')) :
    p' = p ∧ s.lookUp i cache connection k = { s with caches := s.caches.set i cache' } := by
  rw [EventId.generate_eq] at h
  rw [lookUp]
  split at h
  · next hresult =>
    obtain ⟨-, rfl, rfl⟩ : _ = _ ∧ _ = cache' ∧ p = p' := by simpa using h
    rw [hresult]
    exact ⟨rfl, rfl⟩
  · simp at h

/-- **An id that is minted takes the next number**: looking the member up and then reserving it is
to generate the id. -/
theorem mint_of_generate_ok {i k : Nat} {cache cache' : IdentityCache}
    {connection : Option Connection} {p p' : Producer} {id : EventId}
    (hp : s.producers[k]? = some p)
    (h : EventId.generate cache connection p = (.ok id, cache', p')) :
    (s.lookUp i cache connection k).step (.mint 0)
      = { s.handOut k 1 (p.next, p') with
          caches := s.caches.set i cache'
          mints := { producer := k, number := p.next.toInt, id } :: s.mints } := by
  rw [EventId.generate_eq] at h
  rw [lookUp]
  split at h
  · simp at h
  · next hresult =>
    obtain ⟨rfl, rfl, rfl⟩ : _ = id ∧ _ = cache' ∧ _ = p' := by simpa using h
    rw [hresult]
    simp only [step, List.getElem?_cons_zero, Option.elim_some, hp]
    rfl

/-- Within a reservation whose numbers last, an id can be derived. -/
theorem Numbered.exists_withOffset (h : s.Numbered) (hrange : s.InRange) {r : Reservation}
    (hr : r ∈ s.reservations) {offset : Int64} (hoffset : 0 ≤ offset.toInt)
    (hlt : offset.toInt < r.count) (thread : Int64) (membership : Bytes) (bucket : Int32) :
    ∃ id, EventId.withOffset { membership, thread, sequence := r.first, bucket } offset
      = .ok id := by
  obtain ⟨t, hfirst, hroom⟩ := h.tiled.exists_first (h.taken_le hrange r.producer) hr
  have hmin : Int64.minValue.toInt = -9223372036854775808 := rfl
  have hmax : Int64.maxValue.toInt = 9223372036854775807 := rfl
  have hstart : r.first.toInt = t := by rw [hfirst, Int64.toInt_ofNat_of_lt (by omega)]
  have hsum : Int64.minValue.toInt ≤ r.first.toInt + offset.toInt
      ∧ r.first.toInt + offset.toInt ≤ Int64.maxValue.toInt := by omega
  exact ⟨_, if_pos hsum⟩

/-- **Whatever the threads of a process do, and in whatever order, as long as no counter passes
`2 ^ 63`**: the numbers that a producer handed out, one at a time or many at once, are all those
below its next one, and none of them was handed out twice. An id that cannot be minted reserves no
number. And event ids that were minted or derived at different numbers, or by different producers,
are not equal. -/
theorem run_distinct (steps : List ProcessStep) (hrange : (run {} steps).InRange) :
    (run {} steps).Distinct := by
  have hnumbered := numbered_run steps
  have hidentified := identified_run steps
  generalize run {} steps = s at *
  have hroom := hnumbered.taken_le hrange
  constructor
  case disjoint => exact hnumbered.tiled.pairwise hroom
  case exhaustive =>
    intro k p hp
    refine ⟨fun n => hnumbered.tiled.exists_covers_iff (hroom k), fun hlt => ?_⟩
    rw [(hnumbered.producers k p hp).2, Int64.toInt_ofNat_of_lt hlt]
  case failing =>
    intro cache hcache c p
    rw [generate_fails_iff]
    exact (hidentified.caches cache hcache).membershipId_fails_iff hidentified.eq_of_id _
      (mem_of_bind_getElem? c)
  case minting =>
    intro i cache c k p hcache hp
    have hstep : s.step (.lookUp i c k)
        = s.lookUp i cache (c.bind fun c => s.connections[c]?) k := by
      simp only [step, hcache, hp]
    rw [hstep]
    split
    · next hfails => exact lookUp_of_generate_error hfails
    · next hmints => exact mint_of_generate_ok hp hmints
  case derived =>
    intro r hr p hp offset hoffset hlt membership bucket
    obtain ⟨id, hid⟩ :=
      hnumbered.exists_withOffset hrange hr hoffset hlt p.thread membership bucket
    refine ⟨id, hid, ?_⟩
    rw [derive, hid]
  case minted =>
    intro x hx
    obtain ⟨hthread, hsequence, r, hr, hcovers⟩ := hnumbered.mints x hx
    have hknown : x.producer < s.producers.length := hcovers.1 ▸ hnumbered.known r hr
    have hp := List.getElem?_eq_getElem hknown
    exact ⟨⟨_, hp, hthread.trans (hnumbered.producers _ _ hp).1.symm⟩, hsequence, r, hr, hcovers⟩
  case unequal =>
    intro x hx y hy hne a b hax hby hab
    obtain ⟨haxthread, haxsequence, -⟩ := EventId.same_iff.1 hax
    obtain ⟨hbythread, hbysequence, -⟩ := EventId.same_iff.1 hby
    obtain ⟨habthread, habsequence, -⟩ := EventId.same_iff.1 hab
    obtain ⟨hproducer, hnumber⟩ := hnumbered.eq_of_id hrange hx hy
      (haxthread.symm.trans (habthread.trans hbythread))
      (haxsequence.symm.trans (habsequence.trans hbysequence))
    exact hne (Prod.ext hproducer hnumber)

/-- Two producers, a range that is reserved between the two halves of minting, and an attempt
without a connection. -/
theorem run_distinct_interleaved :
    let s := run {} [.newProducer, .newConnection { host := "h", port := 1 }, .newProducer,
      .newCache, .lookUp 0 (some 0) 0, .lookUp 0 (some 0) 1, .reserveRange 1 3, .mint 1, .mint 0,
      .derive 2 0 [] 5, .derive 2 2 [] 5, .lookUp 0 none 0, .reserve 0]
    s.InRange
      ∧ s.mints.map (fun x => (x.producer, x.number)) = [(1, 2), (1, 0), (1, 3), (0, 0)]
      ∧ s.reservations.map (fun r => (r.producer, r.first.toInt, r.count))
        = [(0, 1, 1), (1, 3, 1), (0, 0, 1), (1, 0, 3)]
      ∧ s.mints.Pairwise fun x y => ¬x.id.same y.id := by
  intro s
  have hrange : s.InRange := by decide +kernel
  have hmints : s.mints.map (fun x => (x.producer, x.number))
      = [(1, 2), (1, 0), (1, 3), (0, 0)] := by decide +kernel
  have hpositions : s.mints.Pairwise fun x y => (x.producer, x.number) ≠ (y.producer, y.number) :=
    List.pairwise_map.1 (hmints ▸ by decide)
  have hdistinct : s.Distinct := run_distinct _ hrange
  refine ⟨hrange, hmints, by decide +kernel, hpositions.imp_of_mem fun {x y} hx hy hne => ?_⟩
  exact hdistinct.unequal x hx y hy hne x.id y.id
    (EventId.same_iff.2 ⟨rfl, rfl, MembershipId.same_refl _⟩)
    (EventId.same_iff.2 ⟨rfl, rfl, MembershipId.same_refl _⟩)

end Process

end DataGrid
