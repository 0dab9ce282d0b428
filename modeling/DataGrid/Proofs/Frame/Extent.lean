import DataGrid.Proofs.Region.Passage
import DataGrid.Proofs.Reply.Passage
import DataGrid.Proofs.Wire.Incremental

/-!
# Extent — where a frame ends

A frame does not say how long it is. Its body is read from the front, by readers that never ask how
much is left, and the octets of a reply or an update are all needed and all taken. So the frame of
one of them says by itself where it ends: what is less is cut short, what is more has octets too
many, and nothing that is accepted begins with the frame or is the beginning of it, but the frame
(`Frame.ends`).
-/

namespace DataGrid

open Reader

/-! ## Readers of bodies -/

theorem EventId.incremental_read : EventId.read.Incremental :=
  incremental_bytes.bind fun _ => incremental_bytes.bind fun _ =>
    (incremental_ofExcept _).bind fun _ => incremental_i32.bind fun _ => incremental_u8.map _

theorem Payload.incremental_read : Payload.read.Incremental := by
  refine incremental_u8.bind fun tag => ?_
  split
  · exact incremental_bytes.map full
  split
  · exact incremental_bytes.map delta
  split
  · exact incremental_pure destroy
  · exact incremental_fail _

theorem Update.incremental_read : Update.read.Incremental :=
  incremental_i32.bind fun _ => EventId.incremental_read.bind fun _ =>
    incremental_bytes.bind fun _ => Payload.incremental_read.map _

theorem Reply.incremental_readValue (status : UInt8) : (readValue status).Incremental := by
  rw [readValue_eq]
  split
  · exact incremental_bytes.bind fun octets => incremental_ofExcept _
  · exact incremental_pure _

theorem Reply.incremental_read : Reply.read.Incremental := by
  refine incremental_u8.bind fun status => ?_
  split
  · exact incremental_i32.bind fun _ => (incremental_readValue status).map _
  · exact (incremental_pure 0).bind fun _ => (incremental_readValue status).map _

/-! ## Frames by their bodies -/

namespace Frame

theorem incremental_readVersion : readVersion.Incremental := by
  refine incremental_u16.bind fun ordinal => ?_
  split
  · exact incremental_pure _
  · exact incremental_fail _

variable {μ : Type} [AppMessage μ] {registry : Registry μ} {m : Message μ} {version : Version}
  {body frame : Bytes} {result : Except Fault (Message μ)}

theorem eq_of_body (hbody : m.body version = .ok body) (h : Frame.encode m version = .ok frame) :
    frame = Encode.u16 version.ordinal ++ (Encode.u16 m.kind ++ body) := by
  rw [Frame.encode, hbody] at h
  rw [← Except.ok.inj h, List.append_assoc]

/-- **A frame needs all of its octets** if its body does. -/
theorem needs_frame (hbody : m.body version = .ok body)
    (hframe : Frame.encode m version = .ok frame)
    (hneeds : (registry.bodyReader m.kind).Needs body) : (Frame.read registry).Needs frame := by
  have hversion := incremental_readVersion.needs (reads_version version)
  have hkind := incremental_u16.needs (reads_u16 m.kind)
  rw [eq_of_body hbody hframe]
  -- The reader of a frame asks what is left behind the body, so it is taken up to there.
  exact hversion.bind (reads_version version)
    (hkind.bind (reads_u16 m.kind) (hneeds.then _))

/-- What is found in a frame with more behind it is what its body is read as, or that there is more
behind it. -/
theorem decode_append (hbody : m.body version = .ok body)
    (hframe : Frame.encode m version = .ok frame)
    (hconsumes : (registry.bodyReader m.kind).Consumes body result) (more : Bytes) :
    Frame.decode registry (frame ++ more) = match result with
      | .error fault => .error fault
      | .ok m' =>
        if more.length = 0 then .ok m'
        else .error (.malformed (.trailing more.length m.kind)) := by
  rw [eq_of_body hbody hframe, Frame.decode, Reader.parse, Frame.read, List.append_assoc,
    (reads_version version).bind_apply, List.append_assoc, (reads_u16 m.kind).bind_apply]
  cases result with
  | error fault => rw [bind_of_error (hconsumes more)]
  | ok m' =>
    rw [bind_of_ok (hconsumes more)]
    rcases more with _ | ⟨octet, more⟩ <;> rfl

end Frame

/-! ## Replies and updates -/

/-- Whether the lengths of the arrays in a message of a region can be written. -/
def Message.Fits : Message Update → Prop
  | .reply r => Encode.Fits r.payloadOctets
  | .app u => Encode.Fits u.event.membership ∧ Encode.Fits u.key ∧ Encode.Fits u.payload.octets

/-- Whether a receiver reads replies and updates. It may read other kinds too. -/
structure Registry.KnowsRegions (registry : Registry Update) : Prop where
  reply : registry.bodyReader Reply.messageKind = do return .reply (← Reply.read)
  update : registry.bodyReader Update.messageKind = do return .app (← Update.read)

theorem Update.registry_knowsRegions : Update.registry.KnowsRegions := ⟨rfl, rfl⟩

/-- What a body may turn out to be when it is read: a message, or malformed. -/
inductive BodyResult {α : Type} : Except Fault α → Prop where
  | message (a : α) : BodyResult (.ok a)
  | malformed (what : Malformation) : BodyResult (.error (.malformed what))

namespace Message

variable {registry : Registry Update} {m : Message Update} {version : Version} {body : Bytes}

theorem incremental_body (hknows : registry.KnowsRegions) (m : Message Update) :
    (registry.bodyReader m.kind).Incremental := by
  cases m with
  | reply r =>
    change (registry.bodyReader Reply.messageKind).Incremental
    rw [hknows.reply]
    exact Reply.incremental_read.map _
  | app u =>
    change (registry.bodyReader Update.messageKind).Incremental
    rw [hknows.update]
    exact Update.incremental_read.map _

/-- A reply's body is read to its end, though its value may be too deep. -/
theorem consumes_reply (hknows : registry.KnowsRegions) {r : Reply}
    (h : Encode.Fits r.payloadOctets) :
    ∃ result, (registry.bodyReader Reply.messageKind).Consumes r.encode result
      ∧ BodyResult result := by
  rw [hknows.reply]
  by_cases hshallow : r.Shallow
  · have hsendable : r.Sendable := ⟨hshallow, fun flag payload hp => by
      rwa [Reply.payloadOctets, hp] at h⟩
    exact ⟨_, (Reply.reads_encode hsendable).map Message.reply, .message _⟩
  · exact ⟨_, fun rest => bind_of_error (Reply.read_refuses h hshallow rest) _,
      .malformed .replyPayload⟩

/-- An update's body is read to its end, as an update. -/
theorem consumes_update (hknows : registry.KnowsRegions) {u : Update}
    (hfits : (Message.app u).Fits) (hbody : u.encode version = .ok body) :
    ∃ result, (registry.bodyReader Update.messageKind).Consumes body result
      ∧ BodyResult result := by
  obtain ⟨hmembership, hkey, hpayload⟩ := hfits
  rw [hknows.update]
  rcases hm : u.event.membershipAt version with fault | membership
  · rw [Update.encode, EventId.encode_of_fault hm] at hbody
    cases hbody
  · obtain ⟨-, hshort, -⟩ := EventId.passes_membershipAt hmembership hm
    obtain ⟨body', hbody', -, -, -, hread⟩ := Update.exists_body hm hshort
    obtain rfl := Except.ok.inj (hbody.symm.trans hbody')
    exact ⟨_, (hread hkey hpayload).map Message.app, .message _⟩

/-- **The body of a message is read to its end**, and if no message is found in it, it is
malformed. -/
theorem consumes_body (hknows : registry.KnowsRegions) (hfits : m.Fits)
    (hbody : m.body version = .ok body) :
    ∃ result, (registry.bodyReader m.kind).Consumes body result ∧ BodyResult result := by
  cases m with
  | reply r =>
    obtain rfl := Except.ok.inj hbody
    exact consumes_reply hknows hfits
  | app u => exact consumes_update hknows hfits hbody

end Message

namespace Frame

variable {registry : Registry Update} {m : Message Update} {version : Version} {front frame : Bytes}

/-- A message that has a frame has a body. -/
theorem exists_body {μ : Type} [AppMessage μ] {m : Message μ}
    (h : Frame.encode m version = .ok frame) : ∃ body, m.body version = .ok body := by
  rcases hbody : m.body version with fault | body
  · rw [encode_eq_error_iff.2 hbody] at h
    cases h
  · exact ⟨body, rfl⟩

/-- A frame that is cut is found to be cut. -/
theorem decode_cut (hknows : registry.KnowsRegions) (hfits : m.Fits)
    (hframe : Frame.encode m version = .ok frame) (hfront : front <+: frame) (hne : front ≠ frame) :
    ∃ needed remaining, remaining < needed
      ∧ Frame.decode registry front = .error (.truncated needed remaining) := by
  obtain ⟨body, hbody⟩ := exists_body hframe
  obtain ⟨result, hconsumes, -⟩ := Message.consumes_body hknows hfits hbody
  have hneeds := (Message.incremental_body hknows m).needs hconsumes
  obtain ⟨needed, remaining, rest, hlt, hread⟩ :=
    needs_frame hbody hframe hneeds front hfront hne
  exact ⟨needed, remaining, hlt, congrArg Prod.fst hread⟩

/-- A frame that is padded is malformed, if by nothing else then by the octets that follow. -/
theorem decode_padded (hknows : registry.KnowsRegions) (hfits : m.Fits)
    (hframe : Frame.encode m version = .ok frame) {more : Bytes} (hmore : more ≠ []) :
    ∃ what, Frame.decode registry (frame ++ more) = .error (.malformed what)
      ∧ ((∃ m', Frame.decode registry frame = .ok m') → what = .trailing more.length m.kind) := by
  obtain ⟨body, hbody⟩ := exists_body hframe
  obtain ⟨result, hconsumes, hresult⟩ := Message.consumes_body hknows hfits hbody
  have hdecode := decode_append hbody hframe hconsumes
  rw [hdecode more]
  cases hresult with
  | message m' => exact ⟨_, if_neg (mt List.length_eq_zero_iff.1 hmore), fun _ => rfl⟩
  | malformed what =>
    refine ⟨what, rfl, fun ⟨m', hm'⟩ => ?_⟩
    have hself := hdecode []
    rw [List.append_nil, hm'] at hself
    cases hself

/-- **The frame of a reply or of an update says where it ends.** Whatever is less is cut short. With
anything behind it, it is malformed: because of just that, if the frame is accepted. And what is
accepted, of any kind that the receiver knows, neither begins with the frame nor is its beginning,
unless it is the frame. -/
theorem self_delimiting (registry : Registry Update) (hknows : registry.KnowsRegions)
    (m : Message Update) (version : Version) (hfits : m.Fits) {frame : Bytes}
    (hframe : Frame.encode m version = .ok frame) :
    (∀ front, front <+: frame → front ≠ frame → ∃ needed remaining, remaining < needed
      ∧ Frame.decode registry front = .error (.truncated needed remaining))
    ∧ (∀ more, more ≠ [] → ∃ what, Frame.decode registry (frame ++ more) = .error (.malformed what)
      ∧ ((∃ m', Frame.decode registry frame = .ok m') → what = .trailing more.length m.kind))
    ∧ ∀ octets m', Frame.decode registry octets = .ok m' →
        (octets <+: frame ∨ frame <+: octets) → octets = frame := by
  refine ⟨fun front => decode_cut hknows hfits hframe,
    fun more => decode_padded hknows hfits hframe,
    fun octets m' haccepted hprefix => by_contra fun hne => ?_⟩
  rcases hprefix with hfront | ⟨more, rfl⟩
  · obtain ⟨needed, remaining, -, hfault⟩ := decode_cut hknows hfits hframe hfront hne
    cases haccepted.symm.trans hfault
  · have hmore : more ≠ [] := fun hnil => hne (by rw [hnil, List.append_nil])
    obtain ⟨what, hfault, -⟩ := decode_padded hknows hfits hframe hmore
    cases haccepted.symm.trans hfault

/-- An update for a version that pads the member of its event, cut inside the padding, and with one
more octet. -/
theorem self_delimiting_padded :
    let u : Update := {
      processor := 42
      event := {
        membership := [0, 1, 104, 0, 0, 0, 7, 0, 0, 0, 0, 0, 0]
        thread := 3
        sequence := 70000
        bucket := 12
        breadcrumbs := 1 }
      key := [107]
      payload := .delta [0, 5] }
    let frame : Bytes := [0, 100, 3, 233, 0, 0, 0, 42, 30, 0, 1, 104, 0, 0, 0, 7, 0, 0, 0, 0, 0, 0,
      0, 0, 0, 0, 0, 0, 0, 0, 0, 0, 0, 0, 0, 0, 0, 0, 0, 7, 0, 3, 2, 0, 1, 17, 112, 0, 0, 0, 12, 1,
      1, 107, 1, 2, 0, 5]
    Update.registry.KnowsRegions ∧ (Message.app u).Fits
      ∧ Frame.encode (.app u : Message Update) .v1_0 = .ok frame
      ∧ (∃ needed remaining, remaining < needed
        ∧ Frame.decode Update.registry (frame.take 25) = .error (.truncated needed remaining))
      ∧ Frame.decode Update.registry (frame ++ [0]) = .error (.malformed (.trailing 1 1001)) := by
  intro u frame
  have hfits : (Message.app u).Fits := ⟨by decide, by decide, by decide⟩
  have hframe : Frame.encode (.app u : Message Update) .v1_0 = .ok frame := by decide +kernel
  obtain ⟨hcut, hpadded, -⟩ :=
    self_delimiting Update.registry Update.registry_knowsRegions (.app u) .v1_0 hfits hframe
  obtain ⟨what, hfault, htrailing⟩ := hpadded [0] nofun
  have hok : (Frame.decode Update.registry frame).isOk := by decide +kernel
  have haccepted : ∃ m', Frame.decode Update.registry frame = .ok m' := by
    cases hdecode : Frame.decode Update.registry frame with
    | error fault =>
      rw [hdecode] at hok
      cases hok
    | ok m' => exact ⟨m', rfl⟩
  rw [htrailing haccepted] at hfault
  exact ⟨Update.registry_knowsRegions, hfits, hframe,
    hcut (frame.take 25) (List.take_prefix 25 frame) (by decide), hfault⟩

end Frame

end DataGrid
