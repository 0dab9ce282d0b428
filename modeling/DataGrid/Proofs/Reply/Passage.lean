import DataGrid.Proofs.Region.Wire
import DataGrid.Proofs.Wire.Forms

/-!
# Passage — replies from a member to another one

The body of a reply can always be written. What the reader makes of it is the reply, with an
exception in place of an object that has no JSON form, and the status names the fields that are
there (`Reply.body_passes`).

That needs a payload that can be carried. The writer does not look at the depth of a value nor at
the length of a payload, and the reader does: so the frames that are accepted are those of replies
whose payload can be carried, and the others are written and lost (`Reply.frame_accepted_iff`).
-/

namespace DataGrid

open Reader

/-! ## Bodies -/

/-- What arrives of what a reply carries: a value as itself, and an exception in place of an object
without a JSON form. -/
inductive ReplyValue.Arrives : ReplyValue → ReplyValue → Prop where
  | none : Arrives .none .none
  | json (v : Json) : Arrives (.json v) (.json v)
  | object (v : Json) : Arrives (.object (.ok v)) (.json v)
  | unserializable (why : ObjectError) : Arrives (.object (.error why))
      (.exception {
        kind := .serialization
        message := "Unable to serialize reply payload: " ++ why.message })
  | exception (e : ReplyException) : Arrives (.exception e) (.exception e)

namespace Reply

variable {r : Reply}

/-- A value that is read back as it was arrives as it was. -/
theorem arrives_sent (h : ∀ v, r.value? = some v → v.Exact) : r.value.Arrives r.sent.value := by
  rw [sent]
  rw [value?] at h
  generalize r.value = value at h ⊢
  rcases value with _ | (why | v) | v | e
  · exact .none
  · exact .unserializable why
  · rw [ReplyValue.sent, (h v rfl).readBack_eq]
    exact .object v
  · rw [ReplyValue.sent, (h v rfl).readBack_eq]
    exact .json v
  · exact .exception e

/-- The flag of a payload is that of what arrives. -/
theorem payloadFlag_sent (r : Reply) : (r.payloadFlag == exceptionFlag) = r.sent.isException
    ∧ (r.payloadFlag == objectFlag) = r.sent.value?.isSome := by
  rw [payloadFlag, payload?, isException, exception?, value?, sent]
  generalize r.value = value
  rcases value with _ | (why | v) | v | e <;> exact ⟨rfl, rfl⟩

/-- The octets of a reply's payload. -/
def payloadOctets (r : Reply) : Bytes := (r.payload?.map (·.2)).getD []

/-- A reply is laid out as its status says. -/
theorem encode_layout (r : Reply) : r.encode = Encode.u8 r.status
    ++ (if testFlag r.status processorFlag then Encode.i32 r.processor else [])
    ++ (if testFlag r.status exceptionFlag || testFlag r.status objectFlag then
        Encode.bytes r.payloadOctets else []) := by
  obtain ⟨hprocessor, -, hexception, -, hobject, -⟩ := r.status_says
  have hpayload : (if (r.payloadFlag == exceptionFlag) || (r.payloadFlag == objectFlag) then
      Encode.bytes r.payloadOctets else []) = (r.payload?.map (Encode.bytes ·.2)).getD [] := by
    rw [payloadFlag, payloadOctets, payload?]
    generalize r.value = value
    rcases value with _ | (why | v) | v | e <;> rfl
  rw [hprocessor, hexception, hobject, hpayload, encode_eq, List.append_assoc]
  simp only [decide_eq_true_eq]

/-- **A reply's body is read as the reply, whatever follows it.** The body can always be written:
an object without a JSON form arrives as an exception, and nothing else of the reply changes. The
status says whom the reply answers, and whether an exception or a value follows. -/
theorem body_passes {μ : Type} [AppMessage μ] (r : Reply) (version : Version)
    (hvalue : ∀ v, r.value? = some v → v.Exact ∧ v.depth ≤ 126)
    (hpayload : Encode.Fits r.payloadOctets) (rest : Bytes) :
    (Message.reply (μ := μ) r).body version = .ok r.encode
    ∧ (∃ arrived, Reply.read (r.encode ++ rest) = (.ok arrived, rest)
      ∧ arrived.processor = r.processor ∧ arrived.ignored = r.ignored
      ∧ arrived.closed = r.closed ∧ arrived.internal = r.internal
      ∧ arrived.reserved = r.reserved &&& reservedFlags ∧ r.value.Arrives arrived.value
      ∧ testFlag r.status exceptionFlag = arrived.isException
      ∧ testFlag r.status objectFlag = arrived.value?.isSome)
    ∧ testFlag r.status processorFlag = decide (r.processor ≠ 0)
    ∧ ¬ (testFlag r.status exceptionFlag ∧ testFlag r.status objectFlag)
    ∧ r.encode = Encode.u8 r.status
      ++ (if testFlag r.status processorFlag then Encode.i32 r.processor else [])
      ++ (if testFlag r.status exceptionFlag || testFlag r.status objectFlag then
          Encode.bytes r.payloadOctets else []) := by
  have hsendable : r.Sendable := by
    refine ⟨fun v hv => Nat.lt_of_le_of_lt (hvalue v hv).2 (by decide), fun flag payload hp => ?_⟩
    rwa [payloadOctets, hp] at hpayload
  obtain ⟨hprocessor, -, hexception, -, hobject, -⟩ := r.status_says
  obtain ⟨hsentException, hsentObject⟩ := r.payloadFlag_sent
  refine ⟨rfl, ⟨r.sent, reads_encode hsendable rest, rfl, rfl, rfl, rfl, rfl,
    arrives_sent fun v hv => (hvalue v hv).1, hexception.trans hsentException,
    hobject.trans hsentObject⟩, hprocessor, ?_, r.encode_layout⟩
  rw [hexception, hobject]
  rintro ⟨hflag, hother⟩
  rw [beq_iff_eq] at hflag hother
  rw [hflag] at hother
  cases hother

/-- A reply with an object, in front of one more octet. -/
theorem body_passes_object :
    let r : Reply := {
      processor := 7
      closed := true
      value := .object (.ok (.object [("at", .number (.natural 5)), ("of", .list [.null])]))
      reserved := 0x30 }
    (∀ v, r.value? = some v → v.Exact ∧ v.depth ≤ 126) ∧ Encode.Fits r.payloadOctets
      ∧ ∃ arrived, Reply.read (r.encode ++ [9]) = (.ok arrived, [9])
        ∧ arrived.processor = 7 ∧ arrived.closed ∧ arrived.reserved = 0x30
        ∧ arrived.value
          = .json (.object [("at", .number (.natural 5)), ("of", .list [.null])]) := by
  intro r
  have hexact : Json.Exact (.object [("at", .number (.natural 5)), ("of", .list [.null])]) := by
    refine .object (by decide) fun field hfield => ?_
    simp only [List.mem_cons, List.not_mem_nil, or_false] at hfield
    rcases hfield with rfl | rfl
    · exact .natural 5
    · exact .list fun item hitem => List.mem_singleton.1 hitem ▸ .null
  have hvalue : ∀ v, r.value? = some v → v.Exact ∧ v.depth ≤ 126 := by
    rintro _ ⟨⟩
    exact ⟨hexact, by decide⟩
  have hpayload : Encode.Fits r.payloadOctets := by decide +kernel
  obtain ⟨-, ⟨arrived, hread, hprocessor, -, hclosed, -, hreserved, harrives, -⟩, -⟩ :=
    body_passes (μ := Update) r .current hvalue hpayload [9]
  have hkept : (0x30 : UInt8) &&& reservedFlags = 0x30 := by decide
  refine ⟨hvalue, hpayload, arrived, hread, hprocessor, hclosed, hreserved.trans hkept, ?_⟩
  generalize arrived.value = value at harrives ⊢
  cases harrives
  rfl

/-! ## Frames -/

theorem sendable_iff : r.Sendable
    ↔ (∀ v, r.value? = some v → v.depth ≤ 126) ∧ Encode.Fits r.payloadOctets := by
  constructor
  · rintro ⟨hshallow, hfits⟩
    refine ⟨fun v hv => Nat.le_of_lt_succ (hshallow v hv), ?_⟩
    rw [payloadOctets]
    cases hp : r.payload? with
    | none => exact (by decide : Encode.Fits ([] : Bytes))
    | some payload => exact hfits _ _ hp
  · rintro ⟨hdepth, hfits⟩
    refine ⟨fun v hv => Nat.lt_succ_of_le (hdepth v hv), fun flag payload hp => ?_⟩
    rwa [payloadOctets, hp] at hfits

/-- A reply is only read to its end if its payload can be carried. -/
theorem sendable_of_read {arrived : Reply} (h : Reply.read r.encode = (.ok arrived, [])) :
    r.Sendable := by
  have hread := r.read_encode []
  rw [List.append_nil, List.append_nil, h] at hread
  obtain ⟨value, left, hvalue, hlast⟩ := exists_of_bind hread.symm
  obtain ⟨-, rfl⟩ := eq_of_pure hlast
  rw [readValue_status] at hvalue
  rcases hp : r.payload? with _ | ⟨flag, payload⟩
  · refine ⟨fun v hv => ?_, fun _ _ hp' => absurd (hp.symm.trans hp') nofun⟩
    rw [value?, payload?_eq_none hp] at hv
    cases hv
  · rw [hp] at hvalue
    obtain ⟨octets, left, hbytes, hstands⟩ := exists_of_bind hvalue
    obtain ⟨hstands, rfl⟩ := ofExcept_eq_ok hstands
    obtain ⟨rfl, hfits⟩ := bytes_encode_eq_ok hbytes
    refine ⟨?_, fun flag' payload' hp' => ?_⟩
    · obtain ⟨-, hshallow⟩ | ⟨hrefused, -⟩ := payloadValue_payload hp
      · exact hshallow
      · rw [hrefused] at hstands
        cases hstands
    · cases hp.symm.trans hp'
      exact hfits

/-- A reply whose value is too deep is refused at its payload. -/
theorem read_refuses (hfits : Encode.Fits r.payloadOctets) (hdeep : ¬ r.Shallow) (rest : Bytes) :
    Reply.read (r.encode ++ rest) = (.error (.malformed .replyPayload), rest) := by
  rw [read_encode, readValue_status]
  rcases hp : r.payload? with _ | ⟨flag, payload⟩
  · refine absurd (fun v hv => ?_) hdeep
    rw [value?, payload?_eq_none hp] at hv
    cases hv
  · rw [payloadOctets, hp] at hfits
    obtain ⟨-, hshallow⟩ | ⟨hrefused, -⟩ := payloadValue_payload hp
    · exact absurd hshallow hdeep
    · refine bind_of_error ((reads_bytes hfits).bind_apply _ rest |>.trans ?_) _
      change ofExcept (payloadValue r.status payload) rest = _
      rw [hrefused]
      rfl

section Frames

variable {μ : Type} {registry : Registry μ}

/-- A member that knows replies only accepts the body of one whose payload can be carried. -/
theorem sendable_of_readBody
    (hknown : registry.bodyReader messageKind = do return .reply (← Reply.read)) {m : Message μ}
    (h : (Frame.readBody registry messageKind).parse r.encode = .ok m) : r.Sendable := by
  rw [Frame.readBody_eq_ok_iff, hknown] at h
  obtain ⟨arrived, left, harrived, hpure⟩ := exists_of_bind h
  obtain ⟨-, rfl⟩ := eq_of_pure hpure
  exact sendable_of_read harrived

theorem readBody_accepts
    (hknown : registry.bodyReader messageKind = do return .reply (← Reply.read)) (h : r.Sendable) :
    (Frame.readBody registry messageKind).parse r.encode = .ok (.reply r.sent) := by
  refine Frame.readBody_of_reads ?_
  rw [hknown]
  exact (reads_encode h).map Message.reply

theorem readBody_refuses
    (hknown : registry.bodyReader messageKind = do return .reply (← Reply.read))
    (hfits : Encode.Fits r.payloadOctets) {v : Json} (hv : r.value? = some v)
    (hdeep : 126 < v.depth) :
    (Frame.readBody registry messageKind).parse r.encode = .error (.malformed .replyPayload) := by
  have hrefused := read_refuses hfits (fun hshallow => (hshallow v hv).not_ge hdeep) []
  rw [List.append_nil] at hrefused
  rw [Frame.readBody, Reader.parse, hknown, bind_of_error (bind_of_error hrefused _) _]

/-- **A member accepts the frame of a reply just if the reply's value is not too deep and its
payload is not too long**, and then it finds in the frame what was sent. Every reply has a frame:
one whose value is too deep is written nonetheless, and refused as malformed. -/
theorem frame_accepted_iff [AppMessage μ] (registry : Registry μ)
    (hknown : registry.bodyReader messageKind = do return .reply (← Reply.read)) (r : Reply)
    (version : Version) :
    ∃ frame, Frame.encode (.reply r : Message μ) version = .ok frame
      ∧ ((∃ m, Frame.decode registry frame = .ok m)
        ↔ (∀ v, r.value? = some v → v.depth ≤ 126) ∧ Encode.Fits r.payloadOctets)
      ∧ (∀ m, Frame.decode registry frame = .ok m → m = .reply r.sent)
      ∧ (Encode.Fits r.payloadOctets → (∃ v, r.value? = some v ∧ 126 < v.depth) →
          Frame.decode registry frame = .error (.malformed .replyPayload)) := by
  have hbody : (Message.reply r : Message μ).body version = .ok r.encode := rfl
  obtain ⟨frame, hframe, -, hdecode⟩ := Frame.exists_frame_of_body registry hbody
  have haccepted : r.Sendable → Frame.decode registry frame = .ok (.reply r.sent) :=
    fun h => hdecode.trans (readBody_accepts hknown h)
  have hsendable : ∀ m, Frame.decode registry frame = .ok m → r.Sendable :=
    fun m hm => sendable_of_readBody hknown (hdecode.symm.trans hm)
  refine ⟨frame, hframe, ?_, fun m hm => ?_, fun hfits ⟨v, hv, hdeep⟩ => ?_⟩
  · rw [← sendable_iff]
    exact ⟨fun ⟨m, hm⟩ => hsendable m hm, fun h => ⟨_, haccepted h⟩⟩
  · exact Except.ok.inj (hm.symm.trans (haccepted (hsendable m hm)))
  · exact hdecode.trans (readBody_refuses hknown hfits hv hdeep)

end Frames

/-- Members of a region accept the frame of a reply with a short list. -/
theorem frame_accepted_iff_list :
    let r : Reply := { processor := 3, value := .json (.list [.number (.natural 1)]) }
    Update.registry.bodyReader messageKind = (do return .reply (← Reply.read))
      ∧ ∃ frame, Frame.encode (.reply r : Message Update) .current = .ok frame
        ∧ Frame.decode Update.registry frame = .ok (.reply r) := by
  intro r
  have hknown : Update.registry.bodyReader messageKind = (do return .reply (← Reply.read)) := rfl
  obtain ⟨frame, hframe, haccepted, hsent, -⟩ :=
    frame_accepted_iff Update.registry hknown r .current
  have hdepth : ∀ v, r.value? = some v → v.depth ≤ 126 := by
    rintro _ ⟨⟩
    decide
  have hfits : Encode.Fits r.payloadOctets := by decide +kernel
  obtain ⟨m, hm⟩ := haccepted.2 ⟨hdepth, hfits⟩
  have hexact : Json.Exact (.list [.number (.natural 1)]) :=
    .list fun item hitem => List.mem_singleton.1 hitem ▸ .natural 1
  have hsame : r.sent = r := by
    rw [sent_of_unkept rfl, ReplyValue.sent, hexact.readBack_eq]
  exact ⟨hknown, frame, hframe, by rw [hm, hsent m hm, hsame]⟩

end Reply

/-! ## Values too deep to be read -/

/-- The number one inside as many lists. -/
def Json.nested : Nat → Json
  | 0 => .number (.natural 1)
  | n + 1 => .list [nested n]

theorem Json.depth_nested (n : Nat) : (nested n).depth = n := by
  induction n with
  | zero => rfl
  | succ n ih => rw [nested, depth, depthItems, depthItems, ih, Nat.max_zero]

/-- **A reply can be sent that its receiver refuses**: its value has one list too many. -/
theorem Reply.frame_of_nested_refused :
    let r : Reply := { processor := 3, value := .json (Json.nested 127) }
    ∃ frame, Frame.encode (.reply r : Message Update) .current = .ok frame
      ∧ Frame.decode Update.registry frame = .error (.malformed .replyPayload) := by
  intro r
  have hbody : (Message.reply r : Message Update).body .current = .ok r.encode := rfl
  obtain ⟨frame, hframe, -, hdecode⟩ := Frame.exists_frame_of_body Update.registry hbody
  have hfits : Encode.Fits r.payloadOctets := by decide +kernel
  have hdeep : 126 < (Json.nested 127).depth := by
    rw [Json.depth_nested]
    decide
  exact ⟨frame, hframe, hdecode.trans (readBody_refuses rfl hfits rfl hdeep)⟩

end DataGrid
