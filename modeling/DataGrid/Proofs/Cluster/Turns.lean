import DataGrid.Proofs.Cluster.Exchange
import DataGrid.Proofs.Reply.Holding

/-!
# Turns — an update is received, worked off and answered

Behind the beginning of a round the recipients that were reached are due to receive, and nothing
else. In the first round of turns each of them queues the update (`Fabric.Hosts.round_receive`), in
the second each lets its copy make of it what it makes of it and says what it has to say
(`Fabric.Hosts.round_work`), and in the third the sender takes in what has arrived. Then nothing is
in flight (`Fabric.Hosts.settle`).
-/

namespace DataGrid

/-- An update that a party sent to places, by the frame that carries it. -/
structure Shipment where
  sender : Nat
  places : List Nat
  frame : Bytes
  update : Update

namespace Shipment

variable (x : Shipment) (ps : Parties) (sites : Nat → Site)

/-- What a place says. -/
def voice (j : Nat) : Option Reply :=
  (sites j).state.voice (ps.config j) (ps.member j) x.update

/-- Whether every place can send its answer. -/
def Heard : Prop :=
  ∀ j ∈ x.places, x.voice ps sites j = some ((sites j).state.answer (ps.member j) x.update)

/-- What places say, as it arrives. -/
def arrivals (places : List Nat) : List Arrival :=
  places.filterMap fun j =>
    (x.voice ps sites j).map fun r => (ps.member j, r.frame (ps.config j).version)

/-- What places say, by who says it. -/
def answers (places : List Nat) : List (Member × Reply) :=
  places.filterMap fun j => (x.voice ps sites j).map (ps.member j, ·)

/-- **Whether every frame that a shipment causes is within the limits** of who sends and who reads
it, and the first one carries the update. -/
structure Fits : Prop where
  decode : Frame.decode Update.registry x.frame = .ok (.app x.update)
  processor : x.update.processor ≠ 0
  reads : ∀ j ∈ x.places, x.frame.length ≤ (ps.config j).maxFrame
  answers : ∀ j ∈ x.places, ∀ r, x.voice ps sites j = some r →
    (r.frame (ps.config j).version).length ≤ (ps.config x.sender).maxFrame
      ∧ (r.frame (ps.config j).version).length < 2147483648

/-- Whether a shipment goes from a party to others, each named once, that can answer. -/
structure Travels : Prop where
  here : ps.here x.sender
  nodup : x.places.Nodup
  linked : ∀ j ∈ x.places, ps.here j ∧ ps.member j ≠ ps.member x.sender
    ∧ ps.target j (ps.member x.sender) = some x.sender

/-- The sites when places have queued the update. -/
def queued (places : List Nat) (j : Nat) : Site :=
  if j ∈ places then { sites j with
    inbox := [], queue := [{ sender := ps.member x.sender, message := .app x.update }] }
  else sites j

/-- What a place keeps that has worked the update off. -/
def served (s : Site) : Site :=
  { s with inbox := [], queue := [], state := (s.state.applyUpdate x.update).2 }

/-- The sites when places have worked the update off, of those that have queued it: their answers
have arrived at the sender. -/
def answered (done places : List Nat) (j : Nat) : Site :=
  if j ∈ done then x.served (sites j)
  else Function.update (x.queued ps sites places) x.sender
    { sites x.sender with inbox := x.arrivals ps sites done } j

/-- The sites when the sender has taken the answers in. -/
def settled (j : Nat) : Site :=
  if j ∈ x.places then x.served (sites j)
  else Function.update sites x.sender { sites x.sender with
    keeper := (sites x.sender).keeper.takeIn (x.answers ps sites x.places) } j

variable {x : Shipment} {ps : Parties} {sites sites' : Nat → Site}

/-- What is said depends on the copies alone. -/
theorem voice_congr {j : Nat} (h : (sites' j).state = (sites j).state) :
    x.voice ps sites' j = x.voice ps sites j := by rw [voice, voice, h]

theorem answers_congr (h : ∀ j ∈ x.places, (sites' j).state = (sites j).state) :
    x.answers ps sites' x.places = x.answers ps sites x.places :=
  List.filterMap_congr fun j hj => by rw [voice_congr (h j hj)]

theorem arrivals_congr (h : ∀ j ∈ x.places, (sites' j).state = (sites j).state) :
    x.arrivals ps sites' x.places = x.arrivals ps sites x.places :=
  List.filterMap_congr fun j hj => by rw [voice_congr (h j hj)]

section

variable {f : Nat → Reply} (h : ∀ j ∈ x.places, x.voice ps sites j = some (f j))

include h

/-- Where everybody speaks, there is one answer of each. -/
theorem answers_eq_map :
    x.answers ps sites x.places = x.places.map fun j => (ps.member j, f j) := by
  rw [← List.filterMap_eq_map]
  exact List.filterMap_congr fun j hj => by rw [h j hj]; rfl

theorem arrivals_eq_map : x.arrivals ps sites x.places
    = x.places.map fun j => (ps.member j, (f j).frame (ps.config j).version) := by
  rw [← List.filterMap_eq_map]
  exact List.filterMap_congr fun j hj => by rw [h j hj]; rfl

end

/-- Whatever is said names the processor that the update names. -/
theorem answers_processor :
    ∀ answer ∈ x.answers ps sites x.places, answer.2.processor = x.update.processor := by
  intro answer hanswer
  obtain ⟨j, -, hvoice⟩ := List.mem_filterMap.1 hanswer
  obtain ⟨r, hr, rfl⟩ := Option.map_eq_some_iff.1 hvoice
  exact RegionState.voice_processor hr

/-- Who speaks is heard behind those who have spoken. -/
theorem arrivals_concat_some {done : List Nat} {j : Nat} {r : Reply}
    (h : x.voice ps sites j = some r) : x.arrivals ps sites (done ++ [j])
      = x.arrivals ps sites done ++ [(ps.member j, r.frame (ps.config j).version)] := by
  rw [arrivals, List.filterMap_append, List.filterMap_cons_some (by rw [h]; rfl)]
  rfl

theorem arrivals_concat_none {done : List Nat} {j : Nat} (h : x.voice ps sites j = none) :
    x.arrivals ps sites (done ++ [j]) = x.arrivals ps sites done := by
  rw [arrivals, List.filterMap_append, List.filterMap_cons_none (by rw [h]; rfl),
    List.filterMap_nil, List.append_nil]
  rfl

theorem Fits.congr (hfits : x.Fits ps sites)
    (h : ∀ j ∈ x.places, (sites' j).state = (sites j).state) : x.Fits ps sites' where
  decode := hfits.decode
  processor := hfits.processor
  reads := hfits.reads
  answers j hj := by
    rw [voice_congr (h j hj)]
    exact hfits.answers j hj

theorem Travels.ne (h : x.Travels ps) {j : Nat} (hj : j ∈ x.places) : j ≠ x.sender := by
  rintro rfl
  exact (h.linked _ hj).2.1 rfl

end Shipment

namespace Fabric

variable {w : RegionFabric} {ps : Parties} {sites : Nat → Site} {i : Nat} {x : Shipment}

/-! ## Taking in -/

/-- The arrivals of a party are taken. -/
theorem Hosts.takeAll (h : w.Hosts ps sites) (hi : ps.here i) :
    ∃ network, w.network.takeAll i = ((sites i).inbox, network)
      ∧ Hosts { w with network } ps (Function.update sites i { sites i with inbox := [] }) := by
  obtain ⟨p, hp, hat⟩ := h.port i hi
  have hset := h.setInbox hi [] (f := fun p => { p with inbox := [] }) fun _ _ => rfl
  refine ⟨_, ?_, hset⟩
  obtain ⟨member, links, inbox, inlet⟩ := p
  obtain rfl : inlet = .taken := hat.inlet
  obtain rfl : inbox = (sites i).inbox := hat.inbox
  rw [Network.takeAll, hp]

/-- A party where nothing has arrived takes nothing in. -/
theorem Hosts.takeIn_nil (h : w.Hosts ps sites) (hi : ps.here i) (hinbox : (sites i).inbox = []) :
    (w.takeIn i).Hosts ps sites ∧ (w.takeIn i).due = w.due := by
  obtain ⟨network, htake, hhosts⟩ := h.takeAll hi
  have heq : w.takeIn i = { w with network } := by
    rw [takeIn, htake, hinbox]
    rfl
  rw [heq]
  refine ⟨hhosts.of_forall_eq fun k => ?_, rfl⟩
  by_cases hk : k = i
  · subst hk
    rw [Function.update_self, ← hinbox]
  · rw [Function.update_of_ne hk]

/-- A party takes in the one update that has arrived. -/
theorem Hosts.receive_update (h : w.Hosts ps sites) (hi : ps.here i) (sender : Member)
    {frame : Bytes} {u : Update} (hinbox : (sites i).inbox = [(sender, frame)])
    (hqueue : (sites i).queue = [])
    (hdecode : Frame.decode Update.registry frame = .ok (.app u))
    (hfits : frame.length ≤ (ps.config i).maxFrame) :
    (w.receive i).Hosts ps (Function.update sites i
        { sites i with inbox := [], queue := [{ sender, message := .app u }] })
      ∧ (w.receive i).due = (Activity.work i).enqueue w.due := by
  obtain ⟨network, htake, hhosts⟩ := h.takeAll hi
  have heq : w.takeIn i = dispatch { w with network } i (sender, frame) := by
    rw [takeIn, htake, hinbox]
    rfl
  obtain ⟨hhosts₁, hdue₁⟩ := hhosts.dispatch_update hi sender hdecode hfits
  rw [← heq, Function.update_idem, Function.update_self, hqueue] at hhosts₁
  rw [← heq] at hdue₁
  obtain ⟨hhosts₂, hdue₂⟩ := hhosts₁.takeIn_nil hi (by rw [Function.update_self])
  rw [Fabric.receive, if_pos (h.receives hi)]
  exact ⟨hhosts₂, hdue₂.trans hdue₁⟩

/-- The sender hands the answers that have arrived to its keeper, in turn. -/
theorem Hosts.dispatch_answers {sites₀ : Nat → Site} (hfits : x.Fits ps sites₀)
    (hi : ps.here x.sender) (js : List Nat) (hjs : ∀ j ∈ js, j ∈ x.places) {w : RegionFabric}
    {sites : Nat → Site} (h : w.Hosts ps sites) :
    ∃ w', (x.arrivals ps sites₀ js).foldl (fun w arrival => w.dispatch x.sender arrival) w = w'
      ∧ w'.Hosts ps (Function.update sites x.sender { sites x.sender with
          keeper := (sites x.sender).keeper.takeIn (x.answers ps sites₀ js) })
      ∧ w'.due = w.due := by
  induction js generalizing w sites with
  | nil =>
    refine ⟨w, rfl, ?_, rfl⟩
    rwa [Shipment.answers, List.filterMap_nil, Keeper.takeIn, List.foldl_nil,
      Function.update_eq_self]
  | cons j js ih =>
    have hrest : ∀ k ∈ js, k ∈ x.places := fun k hk => hjs k (List.mem_cons_of_mem j hk)
    cases hvoice : x.voice ps sites₀ j with
    | none =>
      have harrivals : x.arrivals ps sites₀ (j :: js) = x.arrivals ps sites₀ js :=
        List.filterMap_cons_none (by rw [hvoice]; rfl)
      have hanswers : x.answers ps sites₀ (j :: js) = x.answers ps sites₀ js :=
        List.filterMap_cons_none (by rw [hvoice]; rfl)
      rw [harrivals, hanswers]
      exact ih hrest h
    | some r =>
      have harrivals : x.arrivals ps sites₀ (j :: js)
          = (ps.member j, r.frame (ps.config j).version) :: x.arrivals ps sites₀ js :=
        List.filterMap_cons_some (by rw [hvoice]; rfl)
      have hanswers : x.answers ps sites₀ (j :: js)
          = (ps.member j, r) :: x.answers ps sites₀ js :=
        List.filterMap_cons_some (by rw [hvoice]; rfl)
      obtain ⟨hsender, hshort⟩ := hfits.answers j (hjs j List.mem_cons_self) r hvoice
      obtain ⟨hhosts, hdue⟩ := h.dispatch_reply hi (ps.member j)
        (RegionState.decode_voice hvoice hshort) hsender
      obtain ⟨w', hw', hhosts', hdue'⟩ := ih hrest hhosts
      rw [harrivals, hanswers]
      refine ⟨w', hw', ?_, hdue'.trans hdue⟩
      rw [Function.update_idem, Function.update_self] at hhosts'
      exact hhosts'

/-! ## Turns -/

/-- An activity that was due first is due no longer. -/
theorem Hosts.act {a : Activity} {w' : RegionFabric} {due : List Activity}
    (hact : (match a with | .receive i => w.receive i | .work i => w.work i) = w')
    (hhosts : w'.Hosts ps sites) (hdue : w'.due = a :: due) :
    (w.act a).Hosts ps sites ∧ (w.act a).due = due := by
  have heq : w.act a = { w' with due := w'.due.erase a } := by
    subst hact
    rfl
  rw [heq]
  refine ⟨hhosts.congr rfl rfl rfl, ?_⟩
  change w'.due.erase a = due
  rw [hdue, List.erase_cons_head]

/-- The turns of the first round: every recipient queues the update, and is due to work it off. -/
theorem Hosts.foldl_receive (hfits : x.Fits ps sites) (htravels : x.Travels ps)
    (hready : ∀ j ∈ x.places, (sites j).inbox = [(ps.member x.sender, x.frame)]
      ∧ (sites j).queue = [])
    (done rest : List Nat) (hall : done ++ rest = x.places) {w : RegionFabric}
    (h : w.Hosts ps (x.queued ps sites done)) (hdue : w.due = rest.map .receive ++ done.map .work) :
    ((rest.map Activity.receive).foldl Fabric.act w).Hosts ps (x.queued ps sites x.places)
      ∧ ((rest.map Activity.receive).foldl Fabric.act w).due = x.places.map .work := by
  -- The recipients that have had their turn are `done`, and their work falls due behind the rest.
  induction rest generalizing w done with
  | nil =>
    rw [List.append_nil] at hall
    subst hall
    exact ⟨h, hdue⟩
  | cons j rest ih =>
    have hmem : j ∈ x.places := by simp [← hall]
    have hj : j ∉ done := fun hd =>
      (List.nodup_append.1 (hall ▸ htravels.nodup)).2.2 j hd j List.mem_cons_self rfl
    have hsite : x.queued ps sites done j = sites j := if_neg hj
    obtain ⟨hinbox, hqueue⟩ := hready j hmem
    obtain ⟨hhosts, hdue'⟩ := h.receive_update (htravels.linked j hmem).1 (ps.member x.sender)
      (by rw [hsite, hinbox]) (by rw [hsite, hqueue]) hfits.decode (hfits.reads j hmem)
    have hnew : (w.receive j).due
        = .receive j :: (rest.map .receive ++ (done ++ [j]).map .work) := by
      have hnot : Activity.work j ∉ w.due := by
        rw [hdue]
        simpa using hj
      rw [hdue', Activity.enqueue, if_neg hnot, hdue]
      simp
    have hnext : (w.receive j).Hosts ps (x.queued ps sites (done ++ [j])) :=
      hhosts.of_forall_eq fun k => by
        by_cases hk : k = j
        · subst hk
          simp [Shipment.queued, hj]
        · simp [Shipment.queued, hk]
    obtain ⟨hact, hdueAct⟩ := Hosts.act (a := .receive j) rfl hnext hnew
    exact ih _ (by rw [← hall]; simp) hact hdueAct

/-- The receiver of answers falls due with the first one that arrives. -/
def awaited (i : Nat) (arrivals : List Arrival) : List Activity :=
  if arrivals = [] then [] else [.receive i]

theorem enqueue_awaited (i : Nat) (arrivals : List Arrival) (arrival : Arrival) (js : List Nat) :
    (Activity.receive i).enqueue (js.map .work ++ awaited i arrivals)
      = js.map .work ++ awaited i (arrivals ++ [arrival]) := by
  by_cases h : arrivals = []
  · simp [awaited, Activity.enqueue, h]
  · simp [awaited, Activity.enqueue, h]

/-- One place works the update off and says what it has to say. -/
theorem Hosts.work_next (hfits : x.Fits ps sites) (htravels : x.Travels ps) {done rest : List Nat}
    {j : Nat} (hall : done ++ j :: rest = x.places) {w : RegionFabric}
    (h : w.Hosts ps (x.answered ps sites done x.places))
    (hdue : w.due = (j :: rest).map .work ++ awaited x.sender (x.arrivals ps sites done)) :
    (w.work j).Hosts ps (x.answered ps sites (done ++ [j]) x.places)
      ∧ (w.work j).due = (j :: rest).map .work
          ++ awaited x.sender (x.arrivals ps sites (done ++ [j])) := by
  have hmem : j ∈ x.places := by simp [← hall]
  have hself : x.sender ∉ done := fun hd =>
    htravels.ne (hall ▸ List.mem_append_left _ hd) rfl
  have hj : j ∉ done := fun hd =>
    (List.nodup_append.1 (hall ▸ htravels.nodup)).2.2 j hd j List.mem_cons_self rfl
  have hne : j ≠ x.sender := htravels.ne hmem
  have hsite : x.answered ps sites done x.places j = { sites j with
      inbox := [], queue := [{ sender := ps.member x.sender, message := .app x.update }] } := by
    rw [Shipment.answered, if_neg hj, Function.update_of_ne hne, Shipment.queued, if_pos hmem]
  obtain ⟨hhere, hmember, hback⟩ := htravels.linked j hmem
  cases hvoice : x.voice ps sites j with
  | none =>
    obtain ⟨hhosts, hdue'⟩ := h.work_silent hhere (by rw [hsite]) hfits.processor
      (by rw [hsite]; exact hvoice)
    refine ⟨hhosts.of_forall_eq fun k => ?_, ?_⟩
    · rw [hsite]
      by_cases hk : k = j
      · subst hk
        simp [Shipment.answered, Shipment.served]
      · by_cases hki : k = x.sender
        · subst hki
          simp [Shipment.answered, Shipment.arrivals_concat_none hvoice, hk, hself]
        · simp [Shipment.answered, hk, hki]
    · rw [hdue', hdue, Shipment.arrivals_concat_none hvoice]
  | some r =>
    obtain ⟨hhosts, hdue'⟩ := h.work_update hhere htravels.here hne.symm hmember.symm hback
      (by rw [hsite]) hfits.processor (by rw [hsite]; exact hvoice)
    refine ⟨hhosts.of_forall_eq fun k => ?_, ?_⟩
    · rw [hsite]
      by_cases hk : k = j
      · subst hk
        simp [Shipment.answered, Shipment.served, hne]
      · by_cases hki : k = x.sender
        · subst hki
          simp [Shipment.answered, Shipment.arrivals_concat_some hvoice, Site.arrive, hk, hself]
        · simp [Shipment.answered, hk, hki]
    · rw [hdue', hdue, enqueue_awaited, Shipment.arrivals_concat_some hvoice]

/-- The turns of the second round: every recipient works the update off and says what it has to
say, and the sender is due to take in what has arrived. -/
theorem Hosts.foldl_work (hfits : x.Fits ps sites) (htravels : x.Travels ps)
    (done rest : List Nat) (hall : done ++ rest = x.places) {w : RegionFabric}
    (h : w.Hosts ps (x.answered ps sites done x.places))
    (hdue : w.due = rest.map .work ++ awaited x.sender (x.arrivals ps sites done)) :
    ((rest.map Activity.work).foldl Fabric.act w).Hosts ps
        (x.answered ps sites x.places x.places)
      ∧ ((rest.map Activity.work).foldl Fabric.act w).due
        = awaited x.sender (x.arrivals ps sites x.places) := by
  -- The sender falls due with the first arrival, and later ones find it due already.
  induction rest generalizing w done with
  | nil =>
    rw [List.append_nil] at hall
    subst hall
    exact ⟨h, hdue⟩
  | cons j rest ih =>
    obtain ⟨hnext, hnew⟩ := Hosts.work_next hfits htravels hall h hdue
    obtain ⟨hact, hdueAct⟩ := Hosts.act (a := .work j) rfl hnext hnew
    exact ih _ (by rw [← hall]; simp) hact hdueAct

/-! ## Three rounds of turns -/

/-- **Every recipient has queued the update after the first round of turns.** -/
theorem Hosts.round_receive (h : w.Hosts ps sites) (hfits : x.Fits ps sites)
    (htravels : x.Travels ps)
    (hready : ∀ j ∈ x.places, (sites j).inbox = [(ps.member x.sender, x.frame)]
      ∧ (sites j).queue = [])
    (hdue : w.due = x.places.map .receive) :
    w.round.Hosts ps (x.queued ps sites x.places) ∧ w.round.due = x.places.map .work := by
  have hround := Hosts.foldl_receive (w := w) hfits htravels hready [] x.places rfl
    (h.of_forall_eq fun j => (if_neg List.not_mem_nil).symm) (by rw [hdue]; simp)
  rwa [← hdue] at hround

/-- **Every recipient has worked the update off and answered after the second one.** -/
theorem Hosts.round_work (h : w.Hosts ps (x.queued ps sites x.places)) (hfits : x.Fits ps sites)
    (htravels : x.Travels ps) (hinbox : (sites x.sender).inbox = [])
    (hdue : w.due = x.places.map .work) :
    w.round.Hosts ps (x.answered ps sites x.places x.places)
      ∧ w.round.due = awaited x.sender (x.arrivals ps sites x.places) := by
  have hself : x.sender ∉ x.places := fun hmem => htravels.ne hmem rfl
  have hstart : w.Hosts ps (x.answered ps sites [] x.places) := h.of_forall_eq fun k => by
    rw [Shipment.answered, if_neg List.not_mem_nil]
    by_cases hk : k = x.sender
    · subst hk
      rw [Function.update_self, Shipment.queued, if_neg hself, Shipment.arrivals,
        List.filterMap_nil, ← hinbox]
    · rw [Function.update_of_ne hk]
  have hround := Hosts.foldl_work (w := w) hfits htravels [] x.places rfl hstart
    (by rw [hdue]; simp [awaited, Shipment.arrivals])
  rwa [← hdue] at hround

/-- The sender has taken every answer in after the third one. -/
theorem Hosts.round_answers (h : w.Hosts ps (x.answered ps sites x.places x.places))
    (hfits : x.Fits ps sites) (htravels : x.Travels ps) (hinbox : (sites x.sender).inbox = [])
    (hdue : w.due = awaited x.sender (x.arrivals ps sites x.places)) :
    w.round.Hosts ps (x.settled ps sites) ∧ w.round.due = [] := by
  have hself : x.sender ∉ x.places := fun hmem => htravels.ne hmem rfl
  have hsender : x.answered ps sites x.places x.places x.sender
      = { sites x.sender with inbox := x.arrivals ps sites x.places } := by
    rw [Shipment.answered, if_neg hself, Function.update_self]
  by_cases hempty : x.arrivals ps sites x.places = []
  · -- Nobody has said anything, so nothing is due.
    have hanswers : x.answers ps sites x.places = [] := by
      rw [Shipment.arrivals, List.filterMap_eq_nil_iff] at hempty
      rw [Shipment.answers, List.filterMap_eq_nil_iff]
      exact fun j hj => Option.map_eq_none_iff.2 (Option.map_eq_none_iff.1 (hempty j hj))
    have hround : w.round = w := by
      rw [Fabric.round, hdue, awaited, if_pos hempty]
      rfl
    rw [hround]
    refine ⟨h.of_forall_eq fun k => ?_, by rw [hdue, awaited, if_pos hempty]⟩
    by_cases hk : k = x.sender
    · subst hk
      rw [hsender, hempty]
      simp [Shipment.settled, hself, hanswers, Keeper.takeIn, hinbox]
    · by_cases hmem : k ∈ x.places
      · simp [Shipment.answered, Shipment.settled, hmem]
      · simp [Shipment.answered, Shipment.settled, Shipment.queued, hmem, hk]
  · obtain ⟨network, htake, hhosts⟩ := h.takeAll htravels.here
    obtain ⟨w₁, heq, hhosts₁, hdue₁⟩ := Hosts.dispatch_answers hfits htravels.here x.places
      (fun _ hj => hj) hhosts
    rw [hsender] at htake hhosts₁
    rw [Function.update_idem, Function.update_self] at hhosts₁
    have htakeIn : w.takeIn x.sender = w₁ := by
      rw [takeIn, htake]
      exact heq
    obtain ⟨hhosts₂, hdue₂⟩ := hhosts₁.takeIn_nil htravels.here (by rw [Function.update_self])
    have hreceive : w.receive x.sender = w₁.takeIn x.sender := by
      rw [Fabric.receive, if_pos (h.receives htravels.here), htakeIn]
    have hlast : (w₁.takeIn x.sender).due = [.receive x.sender] := by
      rw [hdue₂, hdue₁]
      exact hdue.trans (if_neg hempty)
    obtain ⟨hact, hdueAct⟩ := Hosts.act (a := .receive x.sender) hreceive hhosts₂ hlast
    have hround : w.round = w.act (.receive x.sender) := by
      rw [Fabric.round, hdue, awaited, if_neg hempty]
      rfl
    rw [hround]
    refine ⟨hact.of_forall_eq fun k => ?_, hdueAct⟩
    by_cases hk : k = x.sender
    · subst hk
      simp [Shipment.settled, hself, hinbox]
    · by_cases hmem : k ∈ x.places
      · simp [Shipment.answered, Shipment.settled, hk, hmem]
      · simp [Shipment.answered, Shipment.settled, Shipment.queued, hk, hmem]

/-- **An update settles.** Every place that it was sent to has worked it off once, and the sender
has every answer. -/
theorem Hosts.settle (h : w.Hosts ps sites) (hfits : x.Fits ps sites) (htravels : x.Travels ps)
    (hready : ∀ j ∈ x.places, (sites j).inbox = [(ps.member x.sender, x.frame)]
      ∧ (sites j).queue = [])
    (hinbox : (sites x.sender).inbox = []) (hdue : w.due = x.places.map .receive) :
    w.round.Hosts ps (x.queued ps sites x.places)
      ∧ w.round.round.Hosts ps (x.answered ps sites x.places x.places)
      ∧ w.settle.Hosts ps (x.settled ps sites) ∧ w.settle.due = [] := by
  obtain ⟨h₁, hdue₁⟩ := h.round_receive hfits htravels hready hdue
  obtain ⟨h₂, hdue₂⟩ := h₁.round_work hfits htravels hinbox hdue₁
  obtain ⟨h₃, hdue₃⟩ := h₂.round_answers hfits htravels hinbox hdue₂
  exact ⟨h₁, h₂, h₃, hdue₃⟩

end Fabric

end DataGrid
