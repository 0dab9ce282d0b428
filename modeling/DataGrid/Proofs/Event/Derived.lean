import DataGrid.Proofs.Event.Pinned

/-!
# Derived — what an identity cache answers over its whole life

Connections come and go under one cache, under the same member or another one, and the cache is
asked for any of them at any time. It derives what it has not pinned (`IdentityCall.derived`), and
what it has pinned is what it derived last, of those derivations that gave the identity of a member
with a port (`IdentityCache.Follows`). What is pinned was derived from its own connection, so no
answer tells whether anything is pinned: each one is what deriving the identity anew would give
(`IdentityCache.answerAll_plain`).
-/

namespace DataGrid

/-- What an identity cache is asked. -/
inductive IdentityCall where
  /-- To derive and pin the identity of a new connection. -/
  | connect (c : Connection)
  /-- To forget what is pinned. -/
  | clear
  /-- For the identity behind a connection, if there is one. -/
  | ask (connection : Option Connection)

/-- Whether the identity of a connection is one to pin: it can be written, and the member has a
port. -/
def Connection.completes (c : Connection) : Bool :=
  (c.member.essentialBytes .current).isOk && c.member.port != 0

namespace IdentityCall

/-- The connection that a call is about. -/
def connection? : IdentityCall → Option Connection
  | .connect c => some c
  | .clear => none
  | .ask connection => connection

/-- **What a call is answered where nothing is ever pinned.** Only who asks for an identity is told
its octets. -/
def plain : IdentityCall → Except EventError (Option Bytes)
  | .connect c => ((c.member.essentialBytes .current).map fun _ => none).mapError .wire
  | .clear => .ok none
  | .ask none => .error .notConnected
  | .ask (some c) => ((c.member.essentialBytes .current).mapError .wire).map some

/-- The connections whose identities a cache has derived since it was cleared, the latest first,
after a call. A connection whose identity is pinned has it told and not derived. -/
def derived (cache : IdentityCache) (past : List Connection) : IdentityCall → List Connection
  | .connect c => c :: past
  | .clear => []
  | .ask none => past
  | .ask (some c) => if cache.isPinnedFor c then past else c :: past

/-- A connection that a call about it fails for is one of a member that cannot be written. -/
theorem exists_fault (call : IdentityCall) {e : EventError} (h : call.plain = .error e) :
    ∀ c ∈ call.connection?, ∃ fault, c.member.essentialBytes .current = .error fault := by
  intro c hc
  rcases hbytes : c.member.essentialBytes .current with fault | bytes
  · exact ⟨fault, rfl⟩
  · cases call with
    | connect c' =>
      obtain rfl := Option.some.inj hc
      rw [plain, hbytes] at h
      cases h
    | clear => cases hc
    | ask connection =>
      obtain rfl : connection = some c := hc
      rw [plain, hbytes] at h
      cases h

end IdentityCall

namespace IdentityCache

/-- The answer to a call, and the cache after it. -/
def answer (cache : IdentityCache) : IdentityCall → Except EventError (Option Bytes) × IdentityCache
  | .connect c => (((cache.connect c).1.map fun _ => none).mapError .wire, (cache.connect c).2)
  | .clear => (.ok none, cache.clear)
  | .ask connection =>
    ((cache.membershipId connection).1.map some, (cache.membershipId connection).2)

/-- The answers to calls, one after another, and the cache after them. -/
def answerAll (cache : IdentityCache) :
    List IdentityCall → List (Except EventError (Option Bytes)) × IdentityCache
  | [] => ([], cache)
  | call :: rest =>
    let (first, cache) := cache.answer call
    let (answers, cache) := cache.answerAll rest
    (first :: answers, cache)

/-- The connections whose identities were derived since the cache was last cleared, the latest
first, after calls. -/
def derivations (cache : IdentityCache) (past : List Connection) :
    List IdentityCall → List Connection
  | [] => past
  | call :: rest => derivations (cache.answer call).2 (call.derived cache past) rest

variable {cache : IdentityCache} {connections past : List Connection} {c : Connection}
variable {call : IdentityCall} {calls : List IdentityCall}

/-! ## Answers -/

theorem answer_connect (cache : IdentityCache) (c : Connection) :
    cache.answer (.connect c) = (IdentityCall.plain (.connect c), (cache.derive c).2) := by
  rw [answer, connect_eq, derive_fst, IdentityCall.plain]
  cases c.member.essentialBytes .current <;> rfl

theorem answer_ask_of_not_pinned (h : ¬cache.isPinnedFor c) :
    cache.answer (.ask (some c)) = (IdentityCall.plain (.ask (some c)), (cache.derive c).2) := by
  rw [answer, membershipId_of_not_pinned h, derive_fst, IdentityCall.plain]

theorem answer_ask_of_pinned (h : cache.isPinnedFor c) :
    ∃ bytes, cache.answer (.ask (some c)) = (.ok (some bytes), cache) := by
  obtain ⟨bytes, -, hanswer⟩ := membershipId_of_pinned h
  exact ⟨bytes, by rw [answer, hanswer]; rfl⟩

theorem Backed.answer (h : cache.Backed connections)
    (hcall : ∀ c ∈ call.connection?, c ∈ connections) : (cache.answer call).2.Backed connections := by
  cases call with
  | connect c =>
    rw [answer_connect]
    exact h.derive (hcall c rfl)
  | clear => exact backed_empty
  | ask connection => exact h.membershipId connection hcall

/-- **A call is answered as if nothing were pinned.** -/
theorem Backed.answer_fst (h : cache.Backed connections)
    (hids : ∀ c ∈ connections, ∀ c' ∈ connections, c.id = c'.id → c = c')
    (hcall : ∀ c ∈ call.connection?, c ∈ connections) : (cache.answer call).1 = call.plain := by
  cases call with
  | connect c => rw [answer_connect]
  | clear => rfl
  | ask connection =>
    cases connection with
    | none => rfl
    | some c => rw [IdentityCache.answer, h.membershipId_fst hids (hcall c rfl), IdentityCall.plain]

/-- Nothing is pinned of a member that cannot be written. -/
theorem derive_snd_of_error (h : ∃ fault, c.member.essentialBytes .current = .error fault) :
    (cache.derive c).2 = cache := by
  obtain ⟨fault, hfault⟩ := h
  rw [derive, hfault]

/-- **A call that fails leaves the cache as it was.** -/
theorem answer_snd_of_error {e : EventError} (h : (cache.answer call).1 = .error e) :
    (cache.answer call).2 = cache := by
  cases call with
  | connect c =>
    rw [answer_connect] at h ⊢
    exact derive_snd_of_error (IdentityCall.exists_fault (.connect c) h c rfl)
  | clear => cases h
  | ask connection =>
    cases connection with
    | none => rfl
    | some c =>
      by_cases hpinned : cache.isPinnedFor c
      · obtain ⟨bytes, hanswer⟩ := answer_ask_of_pinned hpinned
        rw [hanswer]
      · rw [answer_ask_of_not_pinned hpinned] at h ⊢
        exact derive_snd_of_error (IdentityCall.exists_fault (.ask (some c)) h c rfl)

/-! ## Derivations -/

/-- **Whether what is pinned is what was derived last**, of the identities that are to be pinned. -/
def Follows (cache : IdentityCache) (past : List Connection) : Prop :=
  cache.pinned.map Prod.fst = (past.find? Connection.completes).map Connection.id

theorem isPinnedFor_iff : cache.isPinnedFor c ↔ cache.pinned.map Prod.fst = some c.id := by
  rw [isPinnedFor]
  split <;> simp [*]

theorem Follows.derive (h : cache.Follows past) (c : Connection) :
    (cache.derive c).2.Follows (c :: past) := by
  -- A derivation that pins nothing is passed over on both sides.
  have hstays : c.completes = false → (cache.derive c).2 = cache →
      (cache.derive c).2.Follows (c :: past) := by
    intro hcompletes hcache
    rw [hcache, Follows, List.find?_cons, hcompletes]
    exact h
  rcases hbytes : c.member.essentialBytes .current with fault | bytes
  · exact hstays (by simp [Connection.completes, hbytes, Except.isOk, Except.toBool])
      (derive_snd_of_error ⟨fault, hbytes⟩)
  · by_cases hport : c.member.port = 0
    · exact hstays (by simp [Connection.completes, hport])
        (by simp [IdentityCache.derive, hbytes, hport])
    · have hcompletes : c.completes = true := by
        simp [Connection.completes, hbytes, hport, Except.isOk, Except.toBool]
      have hcache : (cache.derive c).2 = { pinned := some (c.id, bytes) } := by
        simp [IdentityCache.derive, hbytes, hport]
      rw [hcache, Follows, List.find?_cons, hcompletes]
      rfl

theorem Follows.answer (h : cache.Follows past) (call : IdentityCall) :
    (cache.answer call).2.Follows (call.derived cache past) := by
  cases call with
  | connect c =>
    rw [answer_connect]
    exact h.derive c
  | clear => rfl
  | ask connection =>
    cases connection with
    | none => exact h
    | some c =>
      rw [IdentityCall.derived]
      split
      · next hpinned =>
        obtain ⟨bytes, hanswer⟩ := answer_ask_of_pinned hpinned
        rwa [hanswer]
      · next hpinned =>
        rw [answer_ask_of_not_pinned hpinned]
        exact h.derive c

/-! ## Runs -/

theorem Follows.answerAll (h : cache.Follows past) (calls : List IdentityCall) :
    (cache.answerAll calls).2.Follows (cache.derivations past calls) := by
  induction calls generalizing cache past with
  | nil => exact h
  | cons call rest ih => exact ih (h.answer call)

theorem Backed.answerAll_fst (h : cache.Backed connections)
    (hids : ∀ c ∈ connections, ∀ c' ∈ connections, c.id = c'.id → c = c')
    (hcalls : ∀ call ∈ calls, ∀ c ∈ call.connection?, c ∈ connections) :
    (cache.answerAll calls).1 = calls.map IdentityCall.plain := by
  induction calls generalizing cache with
  | nil => rfl
  | cons call rest ih =>
    obtain ⟨hcall, hrest⟩ := List.forall_mem_cons.1 hcalls
    rw [List.map_cons, ← h.answer_fst hids hcall, ← ih (h.answer hcall) hrest]
    rfl

/-- **An identity cache is not noticed.** Of connections of which no two have one id, whatever a new
cache is asked about them and in whatever order, every answer is what it would be if nothing were
ever pinned: who asks for the identity behind a connection is told what writing its member gives, the
same octets or the same fault. After any calls, a call that fails leaves the cache as it is, and so
does asking for no connection. And what is pinned is the identity of a connection just if that was
the last one derived since the cache was cleared, of those that could be written of a member with a
port. -/
theorem answerAll_plain (hids : ∀ c ∈ connections, ∀ c' ∈ connections, c.id = c'.id → c = c')
    (hcalls : ∀ call ∈ calls, ∀ c ∈ call.connection?, c ∈ connections) :
    let cache := (answerAll {} calls).2
    (answerAll {} calls).1 = calls.map IdentityCall.plain
    ∧ (∀ call e, (cache.answer call).1 = .error e → (cache.answer call).2 = cache)
    ∧ (cache.answer (.ask none)).2 = cache
    ∧ ∀ c : Connection, cache.isPinnedFor c
        ↔ ((derivations {} [] calls).find? Connection.completes).map Connection.id = some c.id := by
  intro cache
  have hempty : Follows {} [] := rfl
  have hfollows : cache.Follows (derivations {} [] calls) := hempty.answerAll calls
  refine ⟨backed_empty.answerAll_fst hids hcalls, fun call e => answer_snd_of_error, rfl, fun c => ?_⟩
  rw [isPinnedFor_iff, hfollows]

/-- A reconnect under the same member, and a member without a port that is asked for in between. -/
theorem answerAll_plain_reconnected :
    let first : Connection := { id := 1, member := { host := "h", port := 4000 } }
    let joining : Connection := { id := 2, member := { host := "j", port := 0 } }
    let again : Connection := { first with id := 3 }
    let calls : List IdentityCall :=
      [.connect first, .ask (some again), .ask (some joining), .ask none, .ask (some again)]
    let cache := (answerAll {} calls).2
    (∀ c ∈ [first, joining, again], ∀ c' ∈ [first, joining, again], c.id = c'.id → c = c')
      ∧ (∀ call ∈ calls, ∀ c ∈ call.connection?, c ∈ [first, joining, again])
      ∧ (answerAll {} calls).1 = calls.map IdentityCall.plain
      ∧ derivations {} [] calls = [joining, again, first]
      ∧ cache.isPinnedFor again ∧ ¬cache.isPinnedFor first ∧ ¬cache.isPinnedFor joining := by
  intro first joining again calls cache
  have hids : ∀ c ∈ [first, joining, again], ∀ c' ∈ [first, joining, again],
      c.id = c'.id → c = c' := by decide
  have hcalls : ∀ call ∈ calls, ∀ c ∈ call.connection?, c ∈ [first, joining, again] := by decide
  obtain ⟨hanswers, -, -, hpinned⟩ := answerAll_plain hids hcalls
  have hderived : derivations {} [] calls = [joining, again, first] := by decide +kernel
  have hlatest : ([joining, again, first].find? Connection.completes).map Connection.id = some 3 := by
    decide +kernel
  simp only [hderived, hlatest] at hpinned
  have hother : ∀ c : Connection, c.id ≠ 3 → ¬cache.isPinnedFor c := fun c hne h =>
    hne (Option.some.inj ((hpinned c).1 h)).symm
  exact ⟨hids, hcalls, hanswers, hderived, (hpinned again).2 rfl, hother first (by decide),
    hother joining (by decide)⟩

end IdentityCache

end DataGrid
