import DataGrid.Proofs.Event.Passage
import DataGrid.Proofs.Region.Wire

/-!
# Passage — updates through every version

The event of an update decides whether the update has a frame at a version: everything else can
always be written. A receiver that knows updates finds in the frame what was sent, with the event
as it passes through the version (`Update.frame_passes`).
-/

namespace DataGrid

namespace Frame

variable {μ : Type} [AppMessage μ]

/-- A message whose body cannot be written has no frame, and nothing else keeps it from one. -/
theorem encode_eq_error_iff {m : Message μ} {version : Version} {fault : Fault} :
    Frame.encode m version = .error fault ↔ m.body version = .error fault := by
  rw [Frame.encode]
  cases m.body version with
  | error fault' => rfl
  | ok body => constructor <;> intro h <;> cases h

end Frame

namespace Update

variable {u : Update} {version : Version}

/-- An update cannot be written just if its event cannot. -/
theorem exists_fault_iff : (∃ fault, u.encode version = .error fault)
    ↔ ∃ fault, u.event.encode version = .error fault := by
  rw [Update.encode]
  cases u.event.encode version with
  | error fault => rfl
  | ok event => constructor <;> rintro ⟨_, h⟩ <;> cases h

/-- **Updates pass through every version.** An update has no frame at a version just if the version
is an older one and the octets of the event's membership id name no member. Otherwise every member
that knows updates accepts the frame, and finds in it the processor, the key and the payload that
were sent, and an event that is equal to the one that was sent, with its bucket and breadcrumbs. -/
theorem frame_passes (registry : Registry Update)
    (hknown : registry.bodyReader messageKind = do return .app (← Update.read))
    (u : Update) (version : Version) (hmembership : Encode.Fits u.event.membership)
    (hkey : Encode.Fits u.key) (hpayload : Encode.Fits u.payload.octets) :
    ((∃ fault, Frame.encode (.app u) version = .error fault)
        ↔ version.isOlderThan .v1_1 ∧ ∀ m, u.event.member ≠ .ok m)
    ∧ ∀ frame, Frame.encode (.app u) version = .ok frame →
        ∃ arrived, Frame.decode registry frame = .ok (.app arrived)
          ∧ arrived.processor = u.processor ∧ arrived.key = u.key ∧ arrived.payload = u.payload
          ∧ u.event.Passes version arrived.event := by
  refine ⟨?_, fun frame hframe => ?_⟩
  · simp only [Frame.encode_eq_error_iff]
    exact exists_fault_iff.trans EventId.exists_fault_iff
  · rcases hm : u.event.membershipAt version with fault | membership
    · have hfault : Frame.encode (.app u) version = .error fault := by
        rw [Frame.encode_eq_error_iff]
        change u.encode version = _
        rw [Update.encode, EventId.encode_of_fault hm]
        rfl
      rw [hfault] at hframe
      cases hframe
    · obtain ⟨hpasses, hfits, -⟩ := EventId.passes_membershipAt hmembership hm
      obtain ⟨body, hbody, -, -, -, hread⟩ := exists_body hm hfits
      obtain ⟨frame', hframe', -, hdecode⟩ := Frame.exists_frame registry
        (.app { u with event := { u.event with membership } }) (m := .app u) hbody
      obtain rfl := Except.ok.inj (hframe.symm.trans hframe')
      have hreads : (registry.bodyReader messageKind).Reads body
          (.app { u with event := { u.event with membership } }) := by
        rw [hknown]
        exact (hread hkey hpayload).map Message.app
      exact ⟨_, hdecode hreads, rfl, rfl, rfl, hpasses⟩

/-- An update of a member that carries no uuid, at a version that pads the member. -/
theorem frame_passes_padded :
    let u : Update := {
      processor := 42
      event := {
        membership := [0, 1, 104, 0, 0, 0, 7, 0, 0, 0, 0, 0, 0]
        thread := 3
        sequence := 70000
        bucket := 12
        breadcrumbs := 1 }
      key := [107]
      payload := .delta [0, 5] }
    Update.registry.bodyReader messageKind = (do return .app (← Update.read))
      ∧ Encode.Fits u.event.membership ∧ Encode.Fits u.key ∧ Encode.Fits u.payload.octets
      ∧ ∃ frame, Frame.encode (.app u) .v1_0 = .ok frame
        ∧ ∃ arrived, Frame.decode Update.registry frame = .ok (.app arrived)
          ∧ arrived.processor = u.processor ∧ arrived.key = u.key ∧ arrived.payload = u.payload
          ∧ u.event.Passes .v1_0 arrived.event := by
  intro u
  have hknown : Update.registry.bodyReader messageKind = (do return .app (← Update.read)) := rfl
  have hmembership : Encode.Fits u.event.membership := by decide
  have hkey : Encode.Fits u.key := by decide
  have hpayload : Encode.Fits u.payload.octets := by decide
  obtain ⟨hfault, hpasses⟩ :=
    frame_passes Update.registry hknown u .v1_0 hmembership hkey hpayload
  have hmember : u.event.member = .ok (Member.toldAt { host := "h", port := 7 } .v1_14) :=
    Member.ofEssentialBytes_of_essentialBytes (by rfl)
  refine ⟨hknown, hmembership, hkey, hpayload, ?_⟩
  rcases h : Frame.encode (.app u) .v1_0 with fault | frame
  · exact absurd hmember ((hfault.1 ⟨fault, h⟩).2 _)
  · exact ⟨frame, rfl, hpasses frame h⟩

end Update

end DataGrid
