import DataGrid.Frame.Basic
import DataGrid.Proofs.Entity.Wire
import DataGrid.Proofs.Event.Wire
import DataGrid.Proofs.Reply.Wire
import DataGrid.Region.Update

/-!
# Frames of a region

Members of a region read updates and replies (`Update.registry`). An update whose producer can be
named at a version has a frame at that version, and a short frame is read as the update that was
sent, up to the form of the producer's membership id (`Update.exists_frame`). A reply that says
nothing but whom it answers has one too (`Reply.exists_frame`).
-/

namespace DataGrid

open Reader

/-! ## Frames -/

namespace Frame

variable {μ : Type}

theorem reads_version (version : Version) :
    readVersion.Reads (Encode.u16 version.ordinal) version := by
  refine (reads_u16 version.ordinal).bind_nil ?_
  rw [Version.ofOrdinal?_ordinal]
  exact reads_pure version

/-- The message of a frame is what its body is read as, with nothing after it. -/
def readBody (registry : Registry μ) (kind : UInt16) : Reader (Message μ) := do
  let message ← registry.bodyReader kind
  let left ← remaining
  if left = 0 then return message else .fail (.malformed (.trailing left kind))

variable {registry : Registry μ} {kind : UInt16} {body : Bytes}

/-- A body holds a message just if it is read as the message to its end. -/
theorem readBody_eq_ok_iff {m : Message μ} : (readBody registry kind).parse body = .ok m
    ↔ registry.bodyReader kind body = (.ok m, []) := by
  constructor
  · intro h
    obtain ⟨message, left, hread, hlast⟩ := exists_of_parse_bind h
    rcases left with _ | ⟨octet, left⟩
    · cases hlast
      exact hread
    · cases hlast
  · intro h
    rw [readBody, Reader.parse, bind_of_ok h]
    rfl

theorem readBody_of_reads {m : Message μ} (h : (registry.bodyReader kind).Reads body m) :
    (readBody registry kind).parse body = .ok m := by
  have hread := h []
  rw [List.append_nil] at hread
  exact readBody_eq_ok_iff.2 hread

variable [AppMessage μ]

/-- A message whose body can be written has a frame, and what the frame holds is up to the body. -/
theorem exists_frame_of_body (registry : Registry μ) {m : Message μ} {version : Version}
    (hbody : m.body version = .ok body) :
    ∃ frame, Frame.encode m version = .ok frame ∧ frame.length = 4 + body.length
      ∧ Frame.decode registry frame = (readBody registry m.kind).parse body := by
  refine ⟨Encode.u16 version.ordinal ++ Encode.u16 m.kind ++ body, ?_, ?_, ?_⟩
  · rw [Frame.encode, hbody]
    rfl
  · simp only [Encode.u16, List.length_append, BigEndian.length_ofNat]
  · rw [Frame.decode, Reader.parse, Frame.read, List.append_assoc,
      (reads_version version).bind_apply, (reads_u16 m.kind).bind_apply]
    rfl

/-- A message whose body can be written has a frame, which holds what the body is read as. -/
theorem exists_frame (registry : Registry μ) {m : Message μ} (m' : Message μ) {version : Version}
    (hbody : m.body version = .ok body) :
    ∃ frame, Frame.encode m version = .ok frame ∧ frame.length = 4 + body.length
      ∧ ((registry.bodyReader m.kind).Reads body m' → Frame.decode registry frame = .ok m') := by
  obtain ⟨frame, hframe, hlength, hdecode⟩ := exists_frame_of_body registry hbody
  exact ⟨frame, hframe, hlength, fun hreads => hdecode.trans (readBody_of_reads hreads)⟩

end Frame

/-! ## Updates -/

namespace Payload

/-- The octets that a payload ships. -/
def octets : Payload → Bytes
  | .full snapshot => snapshot
  | .delta octets => octets
  | .destroy => []

theorem length_octets_lt (p : Payload) : p.octets.length < p.encode.length := by
  cases p with
  | full snapshot =>
    have h := Encode.length_lt_length_bytes snapshot
    simp only [octets, encode, List.length_append]
    omega
  | delta octets =>
    have h := Encode.length_lt_length_bytes octets
    simp only [Payload.octets, encode, List.length_append]
    omega
  | destroy => decide

theorem reads_encode {p : Payload} (h : p.octets.length < 2147483648) :
    Payload.read.Reads p.encode p := by
  cases p with
  | full snapshot => exact (reads_u8 0).bind ((reads_bytes h).map full)
  | delta octets => exact (reads_u8 1).bind ((reads_bytes h).map delta)
  | destroy => exact (reads_u8 2).bind_nil (reads_pure destroy)

end Payload

namespace Update

/-- What the members of a region read. -/
def registry : Registry Update := Registry.standard.register messageKind read

variable {u : Update} {version : Version} {membership : Bytes}

/-- An update is written at each version that its producer can be named at, and read back, with the
membership id in the form of the version, if its lengths can be written. -/
theorem exists_body (hevent : u.event.membershipAt version = .ok membership)
    (hmembership : Encode.Fits membership) :
    ∃ body, u.encode version = .ok body ∧ 5 ≤ body.length ∧ u.key.length < body.length
      ∧ u.payload.octets.length < body.length
      ∧ (Encode.Fits u.key → Encode.Fits u.payload.octets →
          Update.read.Reads body { u with event := { u.event with membership } }) := by
  obtain ⟨event, hencode, hread⟩ := EventId.reads_encode hevent hmembership
  have hbody : u.encode version
      = .ok (Encode.i32 u.processor ++ (event ++ (Encode.bytes u.key ++ u.payload.encode))) := by
    rw [Update.encode, hencode, ← List.append_assoc, ← List.append_assoc]
    rfl
  have hpayload := u.payload.length_octets_lt
  have hkey := Encode.length_lt_length_bytes u.key
  have hprocessor : (Encode.i32 u.processor).length = 4 := BigEndian.length_ofNat 4 _
  refine ⟨_, hbody, ?_, ?_, ?_, fun hkeyfits hfits => ?_⟩
  iterate 3
    simp only [List.length_append]
    omega
  exact (reads_i32 u.processor).bind (hread.bind ((reads_bytes hkeyfits).bind
    ((Payload.reads_encode hfits).map fun payload =>
      Update.mk u.processor { u.event with membership } u.key payload)))

/-- **An update has a frame at each version that its producer can be named at.** A frame of fewer
than `2 ^ 31` octets holds the update, with the membership id in the form of the version. -/
theorem exists_frame (hevent : u.event.membershipAt version = .ok membership)
    (hmembership : membership.length < 2147483648) :
    ∃ frame, Frame.encode (.app u) version = .ok frame ∧ 9 ≤ frame.length
      ∧ u.payload.octets.length < frame.length
      ∧ (frame.length < 2147483648 → Frame.decode registry frame
          = .ok (.app { u with event := { u.event with membership } })) := by
  obtain ⟨body, hbody, hfive, hkey, hpayload, hread⟩ := exists_body hevent hmembership
  obtain ⟨frame, hframe, hlength, hdecode⟩ := Frame.exists_frame registry
    (.app { u with event := { u.event with membership } }) (m := .app u) hbody
  refine ⟨frame, hframe, by omega, by omega, fun hshort => hdecode ?_⟩
  exact (hread (show _ < _ by omega) (show _ < _ by omega)).map Message.app

end Update

/-! ## Replies -/

namespace Reply

theorem length_plain_le (processor : Int32) : (Reply.encode { processor }).length ≤ 5 := by
  have hi32 : (Encode.i32 processor).length = 4 := BigEndian.length_ofNat 4 _
  have hu8 : ∀ v, (Encode.u8 v).length = 1 := fun v => BigEndian.length_ofNat 1 _
  simp only [encode, payload?, List.length_append, hu8, List.length_nil]
  split
  · omega
  · simp

/-- **A plain reply has a frame of nine octets at most, which holds it.** -/
theorem exists_frame (processor : Int32) (version : Version) :
    ∃ frame, Frame.encode (μ := Update) (.reply { processor }) version = .ok frame
      ∧ frame.length ≤ 9 ∧ Frame.decode Update.registry frame = .ok (.reply { processor }) := by
  have hencode : (Message.reply (μ := Update) { processor }).body version
      = .ok (Reply.encode { processor }) := rfl
  obtain ⟨frame, hframe, hlength, hdecode⟩ :=
    Frame.exists_frame Update.registry (.reply { processor }) hencode
  have hbody := length_plain_le processor
  exact ⟨frame, hframe, by omega, hdecode ((reads_plain processor).map Message.reply)⟩

end Reply

end DataGrid
