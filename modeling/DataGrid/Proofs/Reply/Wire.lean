import DataGrid.Proofs.Entity.Wire
import DataGrid.Proofs.Json.Values
import DataGrid.Reply.Basic

/-!
# Replies on the wire

The payload of a failure is read back as the failure, and that of a value as the value, if the
value is not too deep (`Reply.payloadOfBytes?_exception`, `Reply.payloadOfBytes?_value`). The
status says what a reply is made of, bit by bit (`Reply.status_says`). So a reply whose payload can
be carried is read as it was written, up to what the text of its value spells
(`Reply.reads_encode`).
-/

namespace DataGrid

open Reader

namespace Reply

/-! ## Payloads -/

/-- **The payload of a failure is read back.** -/
theorem payloadOfBytes?_exception (e : ReplyException) :
    payloadOfBytes? (exceptionPayload e) = some (.exception e) := by
  have htext : exceptionPayload e = 0x7B :: (Json.quote "Exception"
      ++ 0x3A :: (Json.write (Json.ofException e) ++ [0x7D])) := by
    simp [exceptionPayload, Json.write, Json.writeFields, Json.joined]
  have hname : ("Exception" = "Value") = False := by decide
  rw [htext, payloadOfBytes?, Json.mark?_self (by decide)]
  simp only [Option.bind_eq_bind, Option.bind_some, Json.string?_quote]
  rw [Json.mark?_self (by decide)]
  simp only [Option.bind_some, hname, if_false, if_true,
    Json.spells_exception e [0x7D] (.brace []), Option.map_some]
  rfl

/-- **The payload of a value is read back, if the value is not too deep**: the object around the
value is open as well. -/
theorem payloadOfBytes?_value (v : Json) : payloadOfBytes? (valuePayload v)
    = if v.depth < Json.depthLimit then some (.value v.readBack) else none := by
  have htext : valuePayload v
      = 0x7B :: (Json.quote "Value" ++ 0x3A :: (Json.write v ++ [0x7D])) := by
    simp [valuePayload, Json.write, Json.writeFields, Json.joined]
  have hfuel : 2 * (Json.write v).length ≤ Json.enough (Json.write v ++ [0x7D]) := by
    rw [Json.enough, List.length_append]
    omega
  have hroom : v.depth ≤ Json.depthLimit - 1 ↔ v.depth < Json.depthLimit := by
    rw [Json.depthLimit]
    omega
  rw [htext, payloadOfBytes?, Json.mark?_self (by decide)]
  simp only [Option.bind_eq_bind, Option.bind_some, Json.string?_quote]
  rw [Json.mark?_self (by decide)]
  simp only [Option.bind_some, if_true, v.readsBack [0x7D] (.brace []) _ _ hfuel, hroom]
  split <;> rfl

/-! ## The status -/

/-- A status, by what is said of a reply. -/
def statusOf (kept flag : UInt8) (named ignored closed internal : Bool) : UInt8 :=
  kept ||| (if named then processorFlag else 0) ||| (if ignored then ignoredFlag else 0) ||| flag
    ||| (if closed then closedFlag else 0) ||| (if internal then internalFlag else 0)

theorem kept_mem (flags : UInt8) : flags &&& reservedFlags ∈ [0, 0x10, 0x20, 0x30] := by
  have hall : ∀ n : Fin 256, UInt8.ofNat n.val &&& reservedFlags ∈ [0, 0x10, 0x20, 0x30] := by
    decide +kernel
  have hflags := hall ⟨flags.toNat, flags.toNat_lt⟩
  rwa [UInt8.ofNat_toNat] at hflags

/-- Each bit of a status stands for one thing. -/
theorem testFlag_statusOf : ∀ kept ∈ [0, 0x10, 0x20, 0x30], ∀ flag ∈ [0, exceptionFlag, objectFlag],
    ∀ named ignored closed internal : Bool,
    testFlag (statusOf kept flag named ignored closed internal) processorFlag = named
      ∧ testFlag (statusOf kept flag named ignored closed internal) ignoredFlag = ignored
      ∧ testFlag (statusOf kept flag named ignored closed internal) exceptionFlag
        = (flag == exceptionFlag)
      ∧ testFlag (statusOf kept flag named ignored closed internal) closedFlag = closed
      ∧ testFlag (statusOf kept flag named ignored closed internal) objectFlag
        = (flag == objectFlag)
      ∧ testFlag (statusOf kept flag named ignored closed internal) internalFlag = internal
      ∧ testFlag (statusOf kept flag named ignored closed internal) (exceptionFlag ||| objectFlag)
        = (flag != 0)
      ∧ statusOf kept flag named ignored closed internal &&& reservedFlags = kept := by
  decide +kernel

variable {r : Reply}

/-- The flag of a reply's payload, zero if it has none. -/
def payloadFlag (r : Reply) : UInt8 := (r.payload?.map (·.1)).getD 0

theorem payloadFlag_mem (r : Reply) : r.payloadFlag ∈ [0, exceptionFlag, objectFlag] := by
  rw [payloadFlag, payload?]
  split <;> simp

theorem status_eq (r : Reply) : r.status = statusOf (r.reserved &&& reservedFlags) r.payloadFlag
    (r.processor ≠ 0) r.ignored r.closed r.internal := by
  rw [status, statusOf, payloadFlag]
  simp only [decide_eq_true_eq]
  cases r.payload? <;> rfl

/-- **The status of a reply says what the reply is made of**: whom it answers, that it carries an
exception or a value, and the rest bit by bit. -/
theorem status_says (r : Reply) :
    testFlag r.status processorFlag = decide (r.processor ≠ 0)
      ∧ testFlag r.status ignoredFlag = r.ignored
      ∧ testFlag r.status exceptionFlag = (r.payloadFlag == exceptionFlag)
      ∧ testFlag r.status closedFlag = r.closed
      ∧ testFlag r.status objectFlag = (r.payloadFlag == objectFlag)
      ∧ testFlag r.status internalFlag = r.internal
      ∧ testFlag r.status (exceptionFlag ||| objectFlag) = (r.payloadFlag != 0)
      ∧ r.status &&& reservedFlags = r.reserved &&& reservedFlags := by
  rw [status_eq]
  exact testFlag_statusOf _ (kept_mem r.reserved) _ r.payloadFlag_mem _ _ _ _

end Reply

/-! ## Reading a reply -/

/-- What arrives of what a reply carries. -/
def ReplyValue.sent : ReplyValue → ReplyValue
  | .none => .none
  | .json v => .json v.readBack
  | .object (.ok v) => .json v.readBack
  | .object (.error why) => .exception (Reply.unserializable why)
  | .exception e => .exception e

namespace Reply

variable {r : Reply}

/-- The reply as it arrives. -/
def sent (r : Reply) : Reply :=
  { r with value := r.value.sent, reserved := r.reserved &&& reservedFlags }

/-- Whether the value of a reply is not too deep to be read. -/
def Shallow (r : Reply) : Prop := ∀ v, r.value? = some v → v.depth < Json.depthLimit

/-- Whether a reply's payload can be carried: its value is not too deep, and its text is not too
long. -/
structure Sendable (r : Reply) : Prop where
  shallow : r.Shallow
  fits : ∀ flag payload, r.payload? = some (flag, payload) → Encode.Fits payload

/-- What the octets of a payload stand for under a status. -/
def payloadValue (status : UInt8) (octets : Bytes) : Except Fault ReplyValue :=
  match payloadOfBytes? octets with
  | none => .error (.malformed .replyPayload)
  | some (.exception e) => .ok (.exception e)
  | some (.value v) =>
    if testFlag status exceptionFlag then .error (.malformed .exceptionExpected) else .ok (.json v)

theorem readValue_eq (status : UInt8) : readValue status =
    if testFlag status (exceptionFlag ||| objectFlag) then (do
      let octets ← Reader.bytes
      Reader.ofExcept (payloadValue status octets))
    else pure .none := by
  rw [readValue]
  congr 1
  refine congrArg (Reader.bytes >>= ·) (funext fun octets => ?_)
  rw [payloadValue]
  rcases payloadOfBytes? octets with _ | v | e
  · rfl
  · cases testFlag status exceptionFlag <;> rfl
  · rfl

variable {flag : UInt8} {payload : Bytes}

theorem payload?_eq_none (h : r.payload? = none) : r.value = .none := by
  rw [payload?] at h
  split at h <;> first | assumption | cases h

theorem payloadValue_exception (status : UInt8) (e : ReplyException) :
    payloadValue status (exceptionPayload e) = .ok (.exception e) := by
  rw [payloadValue, payloadOfBytes?_exception]

theorem payloadValue_value {status : UInt8} (h : testFlag status exceptionFlag = false) (v : Json) :
    payloadValue status (valuePayload v) = .ok (.json v.readBack) ∧ v.depth < Json.depthLimit
      ∨ payloadValue status (valuePayload v) = .error (.malformed .replyPayload)
        ∧ ¬ v.depth < Json.depthLimit := by
  rw [payloadValue, payloadOfBytes?_value, h]
  by_cases hshallow : v.depth < Json.depthLimit
  · rw [if_pos hshallow]
    exact .inl ⟨rfl, hshallow⟩
  · rw [if_neg hshallow]
    exact .inr ⟨rfl, hshallow⟩

/-- A payload stands for what arrives of the reply's value, unless the value is too deep. -/
theorem payloadValue_payload (h : r.payload? = some (flag, payload)) :
    payloadValue r.status payload = .ok r.value.sent ∧ r.Shallow
      ∨ payloadValue r.status payload = .error (.malformed .replyPayload) ∧ ¬ r.Shallow := by
  obtain ⟨-, -, hexception, -⟩ := r.status_says
  generalize r.status = status at hexception ⊢
  rw [payloadFlag, h] at hexception
  rw [payload?] at h
  rw [Shallow, value?]
  generalize r.value = value at h ⊢
  have hdepth : ∀ v : Json, (∀ v', some v = some v' → v'.depth < Json.depthLimit)
      ↔ v.depth < Json.depthLimit := fun v => by simp
  rcases value with _ | (why | v) | v | e
  · cases h
  · cases h
    exact .inl ⟨payloadValue_exception _ _, nofun⟩
  · cases h
    rw [hdepth]
    exact payloadValue_value hexception v
  · cases h
    rw [hdepth]
    exact payloadValue_value hexception v
  · cases h
    exact .inl ⟨payloadValue_exception _ _, nofun⟩

/-- A reply without a payload promises none, and one with a payload does. -/
theorem readValue_status (r : Reply) : readValue r.status =
    if r.payload?.isSome then (do
      let octets ← Reader.bytes
      Reader.ofExcept (payloadValue r.status octets))
    else pure .none := by
  obtain ⟨-, -, -, -, -, -, hpayload, -⟩ := r.status_says
  have hflag : (r.payloadFlag != 0) = r.payload?.isSome := by
    rw [payloadFlag, payload?]
    split <;> rfl
  rw [readValue_eq, hpayload, hflag]

/-- A reply without a payload is read as it was written, and so is one with a payload that is read
back. -/
theorem reads_readValue (h : r.Sendable) :
    (readValue r.status).Reads ((r.payload?.map (Encode.bytes ·.2)).getD []) r.value.sent := by
  rw [readValue_status]
  rcases hp : r.payload? with _ | ⟨flag, payload⟩
  · rw [payload?_eq_none hp]
    exact reads_pure _
  · refine (reads_bytes (h.fits _ _ hp)).bind_nil ?_
    obtain ⟨hvalue, -⟩ | ⟨-, hdeep⟩ := payloadValue_payload hp
    · rw [hvalue]
      exact reads_pure _
    · exact absurd h.shallow hdeep

/-- The octets of a reply: the status, and the fields that it promises. -/
theorem encode_eq (r : Reply) : r.encode = Encode.u8 r.status
    ++ ((if r.processor ≠ 0 then Encode.i32 r.processor else [])
      ++ (r.payload?.map (Encode.bytes ·.2)).getD []) := by
  rw [encode, List.append_assoc]
  cases r.payload? <;> rfl

/-- All that is read of a reply, but its value, is as it was written. -/
theorem read_encode (r : Reply) (rest : Bytes) : Reply.read (r.encode ++ rest) = (do
      let value ← readValue r.status
      return { r with value, reserved := r.reserved &&& reservedFlags } : Reader Reply)
    ((r.payload?.map (Encode.bytes ·.2)).getD [] ++ rest) := by
  obtain ⟨hprocessor, hignored, -, hclosed, -, hinternal, -, hreserved⟩ := r.status_says
  rw [encode_eq, Reply.read, List.append_assoc, (reads_u8 _).bind_apply, List.append_assoc,
    hprocessor, hignored, hclosed, hinternal, hreserved]
  by_cases hzero : r.processor = 0
  · rw [if_neg (not_not.2 hzero), decide_eq_false (not_not.2 hzero), ← hzero]
    exact (reads_pure r.processor).bind_apply _ _
  · rw [if_pos hzero, decide_eq_true hzero]
    exact (reads_i32 r.processor).bind_apply _ _

/-- **A reply whose payload can be carried is read as it was written**, up to what the text of its
value spells. -/
theorem reads_encode (h : r.Sendable) : Reply.read.Reads r.encode r.sent := by
  intro rest
  rw [read_encode]
  exact (reads_readValue h).map _ rest

/-! ## Replies that are short -/

theorem length_payload_lt {flag : UInt8} {payload : Bytes} (h : r.payload? = some (flag, payload)) :
    payload.length < r.encode.length := by
  have hpayload := Encode.length_lt_length_bytes payload
  rw [encode_eq, h, List.length_append, List.length_append]
  change _ < _ + (_ + (Encode.bytes payload).length)
  omega

/-- The reply that carries a failure. -/
def failure (processor : Int32) (ignored closed internal : Bool) (e : ReplyException) : Reply :=
  { processor, ignored, closed, internal, value := .exception e }

theorem sent_of_unkept (h : r.reserved = 0) : r.sent = { r with value := r.value.sent } := by
  have hkept : (0 : UInt8) &&& reservedFlags = 0 := by decide
  rw [sent, h, hkept, ← h]

/-- **A reply that carries a failure is read as it was written.** -/
theorem reads_exception {processor : Int32} {ignored closed internal : Bool} {e : ReplyException}
    (h : (failure processor ignored closed internal e).encode.length < 2147483648) :
    Reply.read.Reads (failure processor ignored closed internal e).encode
      (failure processor ignored closed internal e) := by
  have hread := reads_encode (r := failure processor ignored closed internal e)
    ⟨(fun _ hv => nomatch hv), fun _ _ hpayload => (length_payload_lt hpayload).trans h⟩
  rwa [sent_of_unkept rfl] at hread

/-- A reply that says nothing but whom it answers is read as it was written. -/
theorem reads_plain (processor : Int32) :
    Reply.read.Reads (Reply.encode { processor }) { processor } := by
  have hread := reads_encode (r := { processor })
    ⟨(fun _ hv => nomatch hv), fun _ _ hpayload => nomatch hpayload⟩
  rwa [sent_of_unkept rfl] at hread

end Reply

end DataGrid
