import DataGrid.Proofs.Cluster.Repair

/-!
# Doubt — what a write that failed leaves behind

A write changes the writer's copy before the others are told, and telling them may fail: a frame
may be too long, or an answer may not come. From then on what the others hold under the key is in
doubt. A later write that succeeds lifts the doubt if it ships a whole value, or if nobody takes
its delta, for then everybody ends up with the writer's entry (`Payload.settles`). As long as a key
is not in doubt, the live members agree under it (`Cluster.run_agrees_undoubted`).

A delta that somebody takes does not lift the doubt. Whether a copy takes a delta other than an
append depends on the kind of its entity alone (`Payload.rejectedBy_eq_of_kind`). Appends are
numbered, but replacements are not, so who has missed a replacement takes the append that follows
it. The write succeeds, and the copies stay apart (`Cluster.Written.apart_of_append`).
-/

namespace DataGrid

/-! ## What a delta tells of a copy -/

namespace Payload

variable {p : Payload} {copy own : Option Entity}

/-- Whether whoever is told of a payload ends up with the writer's entry, whatever it had: the
payload is no delta, or the copy does not take it. -/
def settles (p : Payload) (copy : Option Entity) : Bool := !p.isDelta || p.rejectedBy copy

theorem mended_of_settles (h : p.settles copy) : p.mended copy own = own := by
  rw [settles, Bool.or_eq_true, Bool.not_eq_true'] at h
  rcases h with hwhole | hrejected
  · cases p with
    | full | destroy => rfl
    | delta => cases hwhole
  · exact mended_of_rejectedBy hrejected

/-- **The kind of entity alone decides who takes a delta other than an append**, so a copy of the
writer's kind takes it, however stale it is. -/
theorem rejectedBy_eq_of_kind {octets : Bytes} {d : Delta} (hread : Delta.ofBytes octets = .ok d)
    (hd : d.kind ≠ .append) {e e' : Entity} (hkind : e.kind = e'.kind) :
    (Payload.delta octets).rejectedBy (some e) = (Payload.delta octets).rejectedBy (some e') := by
  obtain ⟨content, expiration, staged⟩ := e
  obtain ⟨content', expiration', staged'⟩ := e'
  simp only [rejectedBy, Entity.applyBytes_eq hread]
  cases d with
  | timestamp => rfl
  | append => exact absurd rfl hd
  | adds | rems | zadds => cases content <;> cases content' <;> first | rfl | cases hkind

end Payload

/-- A string takes the append that comes next, and the one that came last. -/
theorem Entity.applyBytes_append {e : Entity} {s : StringValue} (he : e.content = .string s)
    (sequence : Int32) {octets : Bytes} (h : Encode.Fits octets) :
    e.applyBytes (Delta.append sequence octets).encode
      = if sequence = s.sequence + 1 then
          (.ok (), { e with content := .string { octets := s.octets ++ octets, sequence } })
        else if sequence = s.sequence then (.ok (), e)
        else (.error (.refused (.outOfSequence sequence (s.sequence + 1))), e) := by
  obtain ⟨content, expiration, staged⟩ := e
  obtain rfl : content = .string s := he
  have hfits : (Delta.append sequence octets).Fits := h
  rw [Entity.applyBytes_eq (Delta.ofBytes_encode hfits)]
  simp only [Entity.apply, Content.apply, Content.applyAppend]
  by_cases hnext : sequence = s.sequence + 1
  · rw [if_pos hnext, if_pos hnext]
    rfl
  · rw [if_neg hnext, if_neg hnext]
    by_cases hlast : sequence = s.sequence
    · rw [if_pos hlast, if_pos hlast]
      rfl
    · rw [if_neg hlast, if_neg hlast]
      rfl

/-- A copy takes an append that is the next one to it, whatever its string is. -/
theorem Payload.mended_append {e : Entity} {s : StringValue} (he : e.content = .string s)
    {octets : Bytes} (h : Encode.Fits octets) (own : Option Entity) :
    (Payload.delta (Delta.append (s.sequence + 1) octets).encode).mended (some e) own
      = some { e with content := .string (s.append octets).1 } := by
  have happly := Entity.applyBytes_append he (s.sequence + 1) h
  rw [if_pos rfl] at happly
  simp only [Payload.mended, happly]
  rfl

/-- An append to a string that is there ships its octets, with the next number. -/
theorem Entries.run_append_string {entries : Entries} (htidy : entries.Tidy) {key : Bytes}
    {e : Entity} {s : StringValue} (he : entries.get? key = some e) (hs : e.content = .string s)
    (octets : Bytes) :
    entries.run key (.append octets)
      = (.ok (.count (s.append octets).1.octets.length,
            some (.delta (Delta.append (s.sequence + 1) octets).encode)),
          entries.set key (some { e with content := .string (s.append octets).1 })) := by
  have hmutate : (Command.append octets).mutate (entries.get? key)
      = .ok (.count (s.append octets).1.octets.length,
          .delta (.append (s.sequence + 1) octets),
          some { e with content := .string (s.append octets).1 }) := by
    rw [he]
    simp only [Command.mutate, Command.onString, Option.map_some, Option.getD_some, hs]
    rfl
  obtain ⟨-, hrun⟩ := htidy.run_ok hmutate
  rw [hrun, he]
  rfl

/-- What a payload makes of a copy is alike to what it tells of, if the copy was alike before. -/
theorem Payload.Carries.rel_mended {p : Payload} {key : Bytes} {before own : Option Entity}
    (h : p.Carries key before own) {copies : Entries}
    (hbefore : Option.Rel Entity.Alike before (copies.get? key))
    (hwhole : p.isDelta = false → p = .whole own)
    (hown : ∀ e, own = some e → e.isEmpty = false ∧ e.staged = none)
    (hshort : p.octets.length < 2147483648) :
    Option.Rel Entity.Alike own (p.mended (copies.get? key) own) := by
  obtain ⟨copy', happly, hafter, -, -⟩ := h copies hbefore
  have hok : ∀ why, (copies.applyPayload key p).1 ≠ .error why := by
    rw [happly]
    exact fun why => nofun
  rcases Entries.applyPayload_mends hwhole hown hshort hok with ⟨-, why, hrejected⟩ | ⟨-, -, hentry⟩
  · rw [happly] at hrejected
    cases hrejected
  · rw [happly] at hentry
    rwa [← hentry]

namespace Cluster

/-! ## Agreement under one key -/

/-- **Whether the live members agree under a key**: they hold alike entities there, or all of them
none. -/
def AgreeAt (c : Cluster) (key : Bytes) : Prop :=
  ∀ i j, c.IsLive i → c.IsLive j → (c.entriesAt i).AlikeAt key (c.entriesAt j)

/-- The payload that a write is to ship, if there is one. -/
def payload? (c : Cluster) (i : Nat) (key : Bytes) (command : Command) : Option Payload :=
  ((c.entriesAt i).run key command).1.toOption.bind (·.2)

/-- Whether a key is in doubt after a step, if it was before or was not. A write that is to ship a
payload and fails puts its key in doubt; one that succeeds lifts the doubt if the payload settles
what every other live member holds. -/
def doubtAfter (c : Cluster) (key : Bytes) (doubt : Bool) : Step → Bool
  | .crash _ => doubt
  | .write i k command =>
    if k = key ∧ (c.get? i).any (!·.crashed) then
      match c.payload? i k command with
      | none => doubt
      | some payload =>
        if (c.write i k command).1.any (·.isOk) then
          doubt && !(c.peersOf i).all fun j => payload.settles ((c.entriesAt j).get? k)
        else true
    else doubt

/-- Whether a key is in doubt after steps, one after another. -/
def inDoubt (key : Bytes) : Cluster → Bool → List Step → Bool
  | _, doubt, [] => doubt
  | c, doubt, s :: steps => inDoubt key (c.step s) (c.doubtAfter key doubt s) steps

variable {c c' : Cluster} {config : Config} {left : Nat → Nat} {sites : Nat → Site} {i : Nat}
variable {key : Bytes} {command : Command} {payload : Payload}

/-- Members agree if the others agree with one of them. -/
theorem agreeAt_of_peers
    (h : ∀ j, c.IsLive j → j ≠ i → (c.entriesAt i).AlikeAt key (c.entriesAt j)) :
    c.AgreeAt key := by
  have hall : ∀ j, c.IsLive j → (c.entriesAt i).AlikeAt key (c.entriesAt j) := fun j hj => by
    by_cases hji : j = i
    · exact hji ▸ .refl key _
    · exact h j hj hji
  exact fun j k hj hk => (hall j hj).symm.trans (hall k hk)

/-- Members agree where their entries are those of before. -/
theorem AgreeAt.of_same (h : c.AgreeAt key) (hsame : ∀ j, c'.IsLive j →
      c.IsLive j ∧ (c'.entriesAt j).get? key = (c.entriesAt j).get? key) : c'.AgreeAt key := by
  intro j k hj hk
  obtain ⟨hj, hjsame⟩ := hsame j hj
  obtain ⟨hk, hksame⟩ := hsame k hk
  rw [Entries.AlikeAt, hjsame, hksame]
  exact h j k hj hk

/-- Who agrees with somebody that holds a string holds it, too. -/
theorem string_of_alikeAt {a b : Entries} (h : a.AlikeAt key b) {s : StringValue}
    (ha : (a.get? key).map (·.content) = some (.string s)) :
    (b.get? key).map (·.content) = some (.string s) := by
  obtain ⟨e, he, hs⟩ := Option.map_eq_some_iff.1 ha
  rw [Entries.AlikeAt, he] at h
  obtain ⟨e', he', ⟨hcontent, -⟩⟩ := eq_some_of_rel h
  rw [hs] at hcontent
  rw [he', Option.map_some]
  cases hs' : e'.content with
  | string s' =>
    rw [hs'] at hcontent
    exact congrArg (fun s => some (Content.string s)) (Eq.symm hcontent)
  | set | sortedSet =>
    rw [hs'] at hcontent
    exact hcontent.elim

theorem payload?_eq_some : c.payload? i key command = some payload ↔
    ∃ answer entries, (c.entriesAt i).run key command = (.ok (answer, some payload), entries) := by
  unfold payload?
  constructor
  · intro h
    rcases hrun : (c.entriesAt i).run key command with ⟨_ | ⟨answer, shipped⟩, entries⟩
    · rw [hrun] at h
      cases h
    · rw [hrun] at h
      obtain rfl : shipped = some payload := h
      exact ⟨answer, entries, rfl⟩
  · rintro ⟨answer, entries, hrun⟩
    rw [hrun]
    rfl

/-! ## A write -/

/-- **What a live member's write comes to** at the copies of the live members. -/
structure Written (c c' : Cluster) (i : Nat) (key : Bytes) (command : Command)
    (result : Except RegionError Answer) : Prop where
  live : c'.IsLive = c.IsLive
  others : ∀ j, c.IsLive j → ∀ k, k ≠ key → (c'.entriesAt j).get? k = (c.entriesAt j).get? k
  own : c'.entriesAt i = ((c.entriesAt i).run key command).2
  kept : c.payload? i key command = none → ∀ j, c.IsLive j → j ≠ i →
    c'.entriesAt j = c.entriesAt j
  mended : ∀ payload, c.payload? i key command = some payload → result.isOk → ∀ j, c.IsLive j →
    j ≠ i → payload.octets.length < 2147483648
      ∧ (c'.entriesAt j).get? key
        = payload.mended ((c.entriesAt j).get? key) ((c'.entriesAt i).get? key)

/-- A live member of a steady cluster writes. -/
theorem Steady.written (h : c.Steady config left sites) (hmax : config.maxFrame < 2147483648)
    (hi : c.IsLive i) (hleft : 2 ≤ left i) (key : Bytes) (command : Command) :
    ∃ result c', c.write i key command = (some result, c')
      ∧ Written c c' i key command result := by
  obtain ⟨m, hm, hopen⟩ := hi
  have hi : c.IsLive i := ⟨m, hm, hopen⟩
  obtain rfl := h.place i m hm
  obtain ⟨result, r', w', sites', hregion, hpushes, hentries, hnothing, js, -, hmem, hmends⟩ :=
    h.rests.write hmax hi (h.tidy _ hi) key command
  have hlive := isLive_setRegion c m.region.place r' w'
  have hbefore : ∀ j, c.IsLive j → c.entriesAt j = (sites j).state.entries := fun j hj =>
    entriesAt_of_shows h.rests.shows hj
  have hafter : ∀ j, c.IsLive j →
      (c.setRegion m.region.place r' w').entriesAt j = (sites' j).state.entries := fun j hj =>
    entriesAt_of_shows hpushes.rests.shows hj
  have hown : m.region.entries c.fabric = c.entriesAt m.region.place :=
    (h.rests.shows.entries hi).trans (hbefore _ hi).symm
  rw [hown] at hentries hnothing hmends
  refine ⟨result, _, write_of_region hm hregion, hlive, fun j hj k hk => ?_,
    (hafter _ hi).trans hentries, fun hnone j hj hji => ?_, fun payload hpayload hok j hj hji => ?_⟩
  · rw [hafter j hj, hbefore j hj]
    exact hpushes.pushed.entries j k hk
  · rw [hafter j hj, hbefore j hj, hnothing (fun answer payload entries hrun => ?_) j hji]
    rw [payload?_eq_some.2 ⟨answer, entries, hrun⟩] at hnone
    cases hnone
  · obtain ⟨answer, entries, hrun⟩ := payload?_eq_some.1 hpayload
    obtain ⟨answer', rfl⟩ : ∃ answer', result = .ok answer' := by
      cases result with
      | error => cases hok
      | ok answer' => exact ⟨answer', rfl⟩
    have hj' : j ∈ js := (hmem j).2 ⟨hj, hji⟩
    obtain ⟨hentry, -, hshort⟩ := hmends answer answer' payload entries hrun rfl
      ((h.room _ m hm hopen).mono hleft) fun k hk =>
        h.unseen _ k m hm hopen ((hmem k).1 hk).1 ((hmem k).1 hk).2 (by omega)
    refine ⟨hshort (List.ne_nil_of_mem hj'), ?_⟩
    rw [hafter j hj, hafter _ hi, hentries, hrun, hbefore j hj]
    exact hentry j hj'

section Written

variable {result : Except RegionError Answer} (h : Written c c' i key command result)

include h

/-- Under another key nothing happens. -/
theorem Written.agreeAt_other {k : Bytes} (hk : k ≠ key) (hagree : c.AgreeAt k) : c'.AgreeAt k :=
  hagree.of_same fun j hj => ⟨h.live ▸ hj, h.others j (h.live ▸ hj) k hk⟩

variable (htidy : (c.entriesAt i).Tidy)

include htidy

/-- A write without a payload leaves members in agreement. -/
theorem Written.agreeAt_kept (hnone : c.payload? i key command = none) (hi : c.IsLive i)
    (hagree : c.AgreeAt key) : c'.AgreeAt key := by
  refine agreeAt_of_peers (i := i) fun j hj hji => ?_
  rw [h.live] at hj
  obtain ⟨entries, hentries, -, -, htells⟩ := Entries.run_replicates htidy key command
  rw [h.own, hentries, h.kept hnone j hj hji]
  rcases hrun : (c.entriesAt i).run key command with ⟨_ | ⟨answer, _ | payload⟩, entries'⟩
  · rw [hrun] at htells
    obtain rfl : entries = c.entriesAt i := htells
    exact hagree i j hi hj
  · rw [hrun] at htells
    exact Entries.AlikeAt.trans (rel_symm (fun _ _ => Entity.Alike.symm) htells) (hagree i j hi hj)
  · rw [payload?_eq_some.2 ⟨answer, entries', hrun⟩] at hnone
    cases hnone

/-- **After a write that succeeds, members agree** if they did before, or if the payload settles
what every other one holds. -/
theorem Written.agreeAt_mended (hpayload : c.payload? i key command = some payload)
    (hok : result.isOk) (hi : c.IsLive i)
    (hagree : c.AgreeAt key
      ∨ ∀ j, c.IsLive j → j ≠ i → payload.settles ((c.entriesAt j).get? key) = true) :
    c'.AgreeAt key := by
  refine agreeAt_of_peers (i := i) fun j hj hji => ?_
  rw [h.live] at hj
  obtain ⟨hshort, hentry⟩ := h.mended payload hpayload hok j hj hji
  rw [Entries.AlikeAt, hentry]
  rcases hagree with hagree | hsettles
  · obtain ⟨answer, entries, hrun⟩ := payload?_eq_some.1 hpayload
    obtain ⟨entries', hentries, htidy', -, htells⟩ := Entries.run_replicates htidy key command
    rw [hrun] at htells
    rw [h.own, hentries]
    exact (htells hshort).rel_mended (hagree i j hi hj)
      (Entries.run_ships_whole htidy (hrun.trans (by rw [← hentries, hrun]))) (htidy' key) hshort
  · rw [Payload.mended_of_settles (hsettles j hj hji)]
    exact rel_refl Entity.Alike.refl _

/-- **An append does not find out that a replacement was missed.** A string keeps its number when
it is replaced, so the writer and who has missed it are at one number. An append that succeeds
leaves their strings apart. -/
theorem Written.apart_of_append {octets : Bytes} (hcommand : command = .append octets)
    (hok : result.isOk) (hi : c.IsLive i) {j : Nat} (hj : c.IsLive j) (hji : j ≠ i)
    {e e' : Entity} {s s' : StringValue} (he : (c.entriesAt i).get? key = some e)
    (hs : e.content = .string s) (he' : (c.entriesAt j).get? key = some e')
    (hs' : e'.content = .string s') (hnumber : s'.sequence = s.sequence)
    (hapart : s'.octets ≠ s.octets) : ¬c'.AgreeAt key := by
  subst hcommand
  have hrun := Entries.run_append_string htidy he hs octets
  obtain ⟨hshort, hpeer⟩ := h.mended _ (payload?_eq_some.2 ⟨_, _, hrun⟩) hok j hj hji
  -- The append is the next one to the peer, too.
  rw [← hnumber, he', Payload.mended_append hs' (Delta.fits_of_short hshort)] at hpeer
  have hwriter : (c'.entriesAt i).get? key
      = some { e with content := .string (s.append octets).1 } := by
    rw [h.own, hrun, OrdMap.get?_set, if_pos rfl]
  intro hagree
  have hsame := string_of_alikeAt (hagree i j (h.live ▸ hi) (h.live ▸ hj)) (by rw [hwriter]; rfl)
  rw [hpeer, Option.map_some] at hsame
  have hoctets : s'.octets ++ octets = s.octets ++ octets :=
    congrArg StringValue.octets (Content.string.inj (Option.some.inj hsame))
  exact hapart (List.append_cancel_right hoctets)

end Written

/-! ## Steps -/

/-- Whoever is live after a crash was live before. -/
theorem isLive_of_crash {j : Nat} (h : (c.crash i).IsLive j) : c.IsLive j := by
  obtain ⟨b, hb, hlive⟩ := h
  unfold Cluster.crash at hb
  split at hb
  · next m member hm hmember =>
    split at hb
    · exact ⟨b, hb, hlive⟩
    · rw [get?, List.getElem?_modify] at hb
      obtain ⟨a, ha, rfl⟩ := Option.map_eq_some_iff.1 hb
      refine ⟨a, ha, ?_⟩
      by_cases hij : i = j
      · simp [hij] at hlive
      · simpa [hij] using hlive
  · exact ⟨b, hb, hlive⟩

/-- Nothing happens to the live members when one crashes. -/
theorem Steady.agreeAt_crash (h : c.Steady config left sites) (hagree : c.AgreeAt key) :
    (c.crash i).AgreeAt key := by
  refine hagree.of_same fun j hj => ⟨isLive_of_crash hj, ?_⟩
  rw [entriesAt_of_shows (h.crash i).rests.shows hj,
    entriesAt_of_shows h.rests.shows (isLive_of_crash hj)]

/-- Nothing happens to the live members when another one writes. -/
theorem Steady.agreeAt_aside (h : c.Steady config left sites) (hi : ¬c.IsLive i) (k : Bytes)
    (command : Command) (hagree : c.AgreeAt key) : (c.write i k command).2.AgreeAt key := by
  rcases hm : c.get? i with _ | m
  · rw [Cluster.write, hm]
    exact hagree
  obtain rfl := h.place i m hm
  have hcrashed : m.crashed = true := Bool.eq_true_of_not_eq_false fun hopen => hi ⟨m, hm, hopen⟩
  have hsteady := h.write_crashed hm hcrashed k command fun j => Nat.le_refl (left j)
  have hlive : (c.write m.region.place k command).2.IsLive = c.IsLive := by
    rw [Cluster.write, hm]
    exact isLive_setRegion c _ _ _
  refine hagree.of_same fun j hj => ⟨hlive ▸ hj, ?_⟩
  rw [entriesAt_of_shows hsteady.rests.shows hj,
    entriesAt_of_shows h.rests.shows (hlive ▸ hj : c.IsLive j)]

/-- **After a live member's write, members agree under its key** if it is not in doubt, and if they
did before unless it was. -/
theorem Steady.agreeAt_write (h : c.Steady config left sites) (hmax : config.maxFrame < 2147483648)
    (hi : c.IsLive i) (hleft : 2 ≤ left i) (command : Command) {doubt : Bool}
    (hagree : doubt = false → c.AgreeAt key)
    (hdoubt : c.doubtAfter key doubt (.write i key command) = false) :
    (c.write i key command).2.AgreeAt key := by
  obtain ⟨result, c', hwrite, hwritten⟩ := h.written hmax hi hleft key command
  have htidy : (c.entriesAt i).Tidy := by
    rw [entriesAt_of_shows h.rests.shows hi]
    exact h.tidy i hi
  rw [doubtAfter, if_pos ⟨rfl, isLive_iff.1 hi⟩, hwrite] at hdoubt
  rw [hwrite]
  cases hpayload : c.payload? i key command with
  | none =>
    rw [hpayload] at hdoubt
    exact hwritten.agreeAt_kept htidy hpayload hi (hagree hdoubt)
  | some payload =>
    simp only [hpayload, Option.any_some] at hdoubt
    split at hdoubt
    · next hok =>
      rw [Bool.and_eq_false_iff, Bool.not_eq_false', List.all_eq_true] at hdoubt
      exact hwritten.agreeAt_mended htidy hpayload hok hi
        (hdoubt.imp hagree fun hsettles j hj hji => hsettles j (mem_peersOf.2 ⟨hj, hji⟩))
    · cases hdoubt

/-- **After a step, members agree under a key that is not in doubt**, if they did before unless it
was. -/
theorem Steady.agreeAt_step (h : c.Steady config left sites) (hmax : config.maxFrame < 2147483648)
    (s : Step) (hleft : ∀ i, s.writesAt i → 2 ≤ left i) {doubt : Bool}
    (hagree : doubt = false → c.AgreeAt key) (hdoubt : c.doubtAfter key doubt s = false) :
    (c.step s).AgreeAt key := by
  cases s with
  | crash i => exact h.agreeAt_crash (hagree hdoubt)
  | write i k command =>
    have htwo : 2 ≤ left i := hleft i (beq_iff_eq.2 rfl)
    by_cases hi : c.IsLive i
    · by_cases hk : k = key
      · subst hk
        exact h.agreeAt_write hmax hi htwo command hagree hdoubt
      · rw [doubtAfter, if_neg fun hboth => hk hboth.1] at hdoubt
        obtain ⟨result, c', hwrite, hwritten⟩ := h.written hmax hi htwo k command
        rw [Cluster.step, hwrite]
        exact hwritten.agreeAt_other (Ne.symm hk) (hagree hdoubt)
    · rw [doubtAfter, if_neg fun hboth => hi (isLive_iff.2 hboth.2)] at hdoubt
      exact h.agreeAt_aside hi k command (hagree hdoubt)

/-! ## Runs -/

/-- **As long as a key is not in doubt, steps leave members in agreement** under it. -/
theorem Steady.agreeAt_run (hmax : config.maxFrame < 2147483648) (steps : List Step) {c : Cluster}
    {sites : Nat → Site} (h : c.Steady config (fun j => 2 * steps.countP (Step.writesAt j)) sites)
    {doubt : Bool} (hagree : doubt = false → c.AgreeAt key)
    (hdoubt : inDoubt key c doubt steps = false) : (c.run steps).AgreeAt key := by
  -- The numbers that are left to the members are counted off the steps that are still to come.
  induction steps generalizing c sites doubt with
  | nil => exact hagree hdoubt
  | cons s steps ih =>
    have hwrites : ∀ j, Step.writesAt j s → 2 * steps.countP (Step.writesAt j) + 2
        ≤ 2 * (s :: steps).countP (Step.writesAt j) := fun j hj => by
      rw [List.countP_cons, if_pos hj]
      omega
    obtain ⟨sites', hsteady⟩ := h.step hmax s
      (fun j => Nat.mul_le_mul_left 2 (List.sublist_cons_self s steps).countP_le)
      fun j hj => .inr (hwrites j hj)
    exact ih hsteady (h.agreeAt_step hmax s (fun j hj => by have := hwrites j hj; omega) hagree)
      hdoubt

/-- **Members agree under every key that is not in doubt.** In a cluster of as many members as the
ports suffice for, whatever its members write, whichever of them crash and whatever comes of that,
one step after another: if no write under the key has failed to be told, or a later one has settled
it, then the copies of the live members are alike under the key. No frame is to be longer than the
lengths in it can say, and no member writes so often that its event numbers begin anew. -/
theorem run_agrees_undoubted {count : Nat} (hcount : count ≤ 25136) {config : Config}
    (hmax : config.maxFrame < 2147483648) :
    ∃ c₀, Cluster.start count config = .ok c₀ ∧ ∀ steps : List Step,
      (∀ i, steps.countP (Step.writesAt i) ≤ 4611686018427387904) →
      ∀ key, inDoubt key c₀ false steps = false → (c₀.run steps).AgreeAt key := by
  have hthreads : count ≤ 18446744073709551616 := by omega
  obtain ⟨c₀, hc₀, hmembers, hshow, hdue⟩ := start_ok hthreads config
  refine ⟨c₀, hc₀, fun steps hwrites key hdoubt => ?_⟩
  have hstart : c₀.Steady config (fun j => 2 * steps.countP (Step.writesAt j)) fun _ => {} :=
    steady_of_started hthreads hmembers hshow hdue fun j => by have := hwrites j; omega
  refine hstart.agreeAt_run hmax steps (fun _ i j hi hj => ?_) hdoubt
  rw [entriesAt_of_shows hstart.rests.shows hi, entriesAt_of_shows hstart.rests.shows hj]
  exact .refl key _

/-- A frame of a replacement is too long, which puts the key in doubt, and another replacement
lifts the doubt again. -/
theorem run_agrees_replaced_again : ∃ (c₀ : Cluster) (steps : List Step),
    Cluster.start 2 { maxFrame := 128 } = .ok c₀ ∧ inDoubt [107] c₀ false (steps.take 2) = true
      ∧ inDoubt [107] c₀ false steps = false ∧ (c₀.run steps).AgreeAt [107] := by
  let steps : List Step := [.write 0 [107] (.set [97]),
    .write 0 [107] (.set (List.replicate 90 98)), .write 0 [107] (.set [99])]
  obtain ⟨c₀, hc₀, hagrees⟩ := run_agrees_undoubted (by decide : 2 ≤ 25136)
    (by decide : ({ maxFrame := 128 } : Config).maxFrame < 2147483648)
  have hrun : (Cluster.start 2 { maxFrame := 128 }).toOption.any (fun c₀ =>
      inDoubt [107] c₀ false (steps.take 2) && !inDoubt [107] c₀ false steps) = true := by
    decide +kernel
  rw [hc₀] at hrun
  simp only [Except.toOption, Option.any_some, Bool.and_eq_true, Bool.not_eq_true'] at hrun
  exact ⟨c₀, steps, hc₀, hrun.1, hrun.2, hagrees steps
    (fun i => Nat.le_trans List.countP_le_length (by decide)) [107] hrun.2⟩

/-- The name of the error that a write failed with, if it failed. -/
def failure? : Option (Except RegionError Answer) → Option String
  | some (.error e) => some e.name
  | _ => none

theorem write_eq_of_answer {answer : Answer}
    (h : (c.write i key command).1.bind (·.toOption) = some answer) :
    c.write i key command = (some (.ok answer), (c.write i key command).2) := by
  rcases hwrite : c.write i key command with ⟨_ | _ | answer', c'⟩
  · rw [hwrite] at h
    cases h
  · rw [hwrite] at h
    cases h
  · rw [hwrite] at h
    rw [Option.some.inj h]

/-- **Copies can stay apart behind a write that succeeds.** The frame of a replacement is too long,
and the other member misses it. It takes the append that follows. That write succeeds, both members
are live and have answered, and their strings differ. -/
theorem run_acknowledged_apart : ∃ (c₀ c' : Cluster) (payload : Payload),
    Cluster.start 2 { maxFrame := 128 } = .ok c₀
      ∧ let c₁ := c₀.step (.write 0 [107] (.set [97]))
        let c₂ := c₁.step (.write 0 [107] (.set (List.replicate 90 98)))
        failure? (c₁.write 0 [107] (.set (List.replicate 90 98))).1 = some "FrameTooLarge"
          ∧ c₂.payload? 0 [107] (.append [99]) = some payload
          ∧ c₂.write 0 [107] (.append [99]) = (some (.ok (.count 91)), c')
          ∧ c'.IsLive 0 ∧ c'.IsLive 1 ∧ ¬c'.AgreeAt [107] := by
  have hrun : (Cluster.start 2 { maxFrame := 128 }).toOption.any (fun c₀ =>
      let c₁ := c₀.step (.write 0 [107] (.set [97]))
      let c₂ := c₁.step (.write 0 [107] (.set (List.replicate 90 98)))
      let c' := (c₂.write 0 [107] (.append [99])).2
      failure? (c₁.write 0 [107] (.set (List.replicate 90 98))).1 == some "FrameTooLarge"
        && (c₂.payload? 0 [107] (.append [99])).isSome
        && (c₂.write 0 [107] (.append [99])).1.bind (·.toOption) == some (.count 91)
        && (c'.get? 0).any (!·.crashed) && (c'.get? 1).any (!·.crashed)
        && ((c'.entriesAt 1).get? [107]).map (·.content)
          == some (.string { octets := [97, 99], sequence := 1 })
        && ((c'.entriesAt 0).get? [107]).map (·.content)
          != some (.string { octets := [97, 99], sequence := 1 })) = true := by
    decide +kernel
  rcases hc₀ : Cluster.start 2 { maxFrame := 128 } with _ | c₀
  · rw [hc₀] at hrun
    cases hrun
  rw [hc₀] at hrun
  simp only [-List.reduceReplicate, Except.toOption, Option.any_some, Bool.and_eq_true, beq_iff_eq,
    bne_iff_ne] at hrun
  obtain ⟨⟨⟨⟨⟨⟨hfails, hships⟩, hwrites⟩, hwriter⟩, hpeer⟩, hstale⟩, hown⟩ := hrun
  obtain ⟨payload, hpayload⟩ := Option.isSome_iff_exists.1 hships
  rw [← isLive_iff] at hwriter hpeer
  exact ⟨c₀, _, payload, rfl, hfails, hpayload, write_eq_of_answer hwrites, hwriter, hpeer,
    fun hagree => hown (string_of_alikeAt (hagree 1 0 hpeer hwriter) hstale)⟩

end Cluster

end DataGrid
