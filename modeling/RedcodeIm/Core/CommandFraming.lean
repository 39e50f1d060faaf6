import RedcodeIm.Core.ProtocolState
import RedcodeIm.Core.Envelope

/-!
# The framing of commands

A client sends the core a command and its fields in one string of bytes, and gets its fields back
in another.  The core is written in Rust, the clients in TypeScript, Kotlin and Swift, and each of
them has its own half of the framing.

* `decodeRequest`, `encodeResponse` — the core.
* `ClientPlatform.encodeRequest`, `ClientPlatform.decodeResponse` — the clients.
* `decodeRequest_eq_ok` — the requests that the core accepts.
* `decodeResponse_h5_eq_ok`, `decodeResponse_ios_eq_ok`, `decodeResponse_android_eq_ok` — the
  responses that the clients accept.
* `command_framing` — where all of them agree.
-/

namespace RedcodeIm

open Framing List

/-! ## The frame -/

/-- `E2eeCommandOperation`, which is the same in all clients. -/
inductive E2eeCommandOperation where
  | initialise
  | generateKeyPackage
  | createGroup
  | addMember
  | joinGroup
  | encrypt
  | decrypt
  | publicMaterial
  | processCommit
  | removeMember
  | signDeviceApproval
  | listMembers
  deriving DecidableEq

/-- The number of an operation, in the tables of the clients and in the constants of the core. -/
def E2eeCommandOperation.wire : E2eeCommandOperation → UInt8
  | .initialise => 1
  | .generateKeyPackage => 2
  | .createGroup => 3
  | .addMember => 4
  | .joinGroup => 5
  | .encrypt => 6
  | .decrypt => 7
  | .publicMaterial => 8
  | .processCommit => 9
  | .removeMember => 10
  | .signDeviceApproval => 11
  | .listMembers => 12

/-- `REQUEST_MAGIC`, which is "RCCQ". -/
def requestMagic : Bytes := [82, 67, 67, 81]

/-- `RESPONSE_MAGIC`, which is "RCCR". -/
def responseMagic : Bytes := [82, 67, 67, 82]

/-- A frame: the magic, the version, an operation or a status, and the counted fields. -/
def frame (magic : Bytes) (kind : UInt8) (fields : List Bytes) : Bytes :=
  magic ++ [0, 1, kind, UInt8.ofNat fields.length] ++ fields.flatMap lengthPrefixed

/-! ## The core -/

/-- `MAX_FIELDS`. -/
def maxFields : ℕ := 8

/-- `MAX_COMMAND_BYTES`. -/
def maxCommandBytes : ℕ := maxStateBytes + maxPayloadBytes + 1024 * 1024

/-- A field, in the loop of `decode_request`. -/
def readRequestField (target : Target) (request : Bytes) (offset : ℕ) : Except String (Bytes × ℕ) :=
  match target.checkedAdd offset 4 with
  | none => .error "E2EE command is too large"
  | some lengthEnd =>
    match slice request offset lengthEnd with
    | none => .error "truncated E2EE command field"
    | some lengthBytes =>
      if maxStateBytes < fromBeBytes lengthBytes then .error "E2EE command field is too large"
      else
        match target.checkedAdd lengthEnd (fromBeBytes lengthBytes) with
        | none => .error "E2EE command is too large"
        | some stop =>
          match slice request lengthEnd stop with
          | none => .error "truncated E2EE command field"
          | some field => .ok (field, stop)

/-- `decode_request`. -/
def decodeRequest (target : Target) (request : Bytes) : Except String (UInt8 × List Bytes) :=
  if maxCommandBytes < request.length then .error "E2EE command is too large"
  else if request.length < 8 ∨ request.take 4 ≠ requestMagic then
    .error "invalid E2EE command header"
  else if fromBeBytes [request.getD 4 0, request.getD 5 0] ≠ protocolVersion then
    .error "unsupported E2EE command version"
  else if maxFields < (request.getD 7 0).toNat then .error "too many E2EE command fields"
  else do
    let (fields, offset) ← collect (readRequestField target request) (fun _ _ => none)
      (request.getD 7 0).toNat [] 8
    if offset ≠ request.length then .error "E2EE command contains trailing bytes"
    else .ok (request.getD 6 0, fields)

/-- `encode_response`. -/
def encodeResponse (status : UInt8) (fields : List Bytes) : Bytes :=
  frame responseMagic status fields

/-! ## The clients -/

/-- The clients. -/
inductive ClientPlatform where
  | h5
  | android
  | ios
  deriving DecidableEq

/-- What is thrown for a command: a text of the client, or the message of the core. -/
inductive E2eeCommandError where
  | text (message : String)
  | core (message : Bytes)
  deriving DecidableEq

/-- An `Int` of the JVM. -/
def jvmInt (n : ℤ) : ℤ := n.bmod (2 ^ 32)

/-- A `Byte` of the JVM, as an `Int`. -/
def jvmByte (b : UInt8) : ℤ := Int.bmod b.toNat 256

/-- `E2eeSession.execute`, up to the core. -/
def encodeRequestH5 (operation : E2eeCommandOperation) (fields : List Bytes) :
    Except (Fault E2eeCommandError) Bytes :=
  if 8 < fields.length then .error (.returned (.text "E2EE 核心命令字段过多"))
  else .ok (frame requestMagic operation.wire fields)

/-- `E2eeCommandClient.encodeRequest` of Android.  The size of the array is an `Int`; nothing is
written past the end of an array. -/
def encodeRequestAndroid (operation : E2eeCommandOperation) (fields : List Bytes) :
    Except (Fault E2eeCommandError) Bytes :=
  if 8 < fields.length then .error (.returned (.text "E2EE 核心命令字段过多"))
  else
    let size := jvmInt (8 + (fields.map fun field => 4 + field.length).sum : ℕ)
    let request := frame requestMagic operation.wire fields
    if size < request.length then .error .panicked
    else .ok (request ++ replicate (size.toNat - request.length) 0)

/-- `E2eeCommandClient.execute` of iOS, up to the core.  `UInt32(field.count)` traps where the
length is no `UInt32`. -/
def encodeRequestIos (operation : E2eeCommandOperation) (fields : List Bytes) :
    Except (Fault E2eeCommandError) Bytes :=
  if 8 < fields.length then .error (.returned (.text "E2EE 核心命令字段过多"))
  else if ∃ field ∈ fields, 256 ^ 4 ≤ field.length then .error .panicked
  else .ok (frame requestMagic operation.wire fields)

/-- A field of a response, as it is read in TypeScript and in Swift. -/
def readResponseField (truncated overlong : String) (response : Bytes) (offset : ℕ) :
    Except (Fault E2eeCommandError) (Bytes × ℕ) :=
  if response.length < offset + 4 then .error (.returned (.text truncated))
  else
    let length := fromBeBytes ((response.drop offset).take 4)
    if response.length < offset + 4 + length then .error (.returned (.text overlong))
    else .ok ((response.drop (offset + 4)).take length, offset + 4 + length)

/-- A field of a response, as it is read in Kotlin. -/
def readResponseFieldAndroid (response : Bytes) (offset : ℕ) :
    Except (Fault E2eeCommandError) (Bytes × ℕ) :=
  if response.length < jvmInt (offset + 4 : ℕ) then
    .error (.returned (.text "E2EE 核心响应字段截断"))
  else do
    let word ← indexRange response offset (offset + 4)
    let stop := jvmInt ((offset + 4 : ℕ) + jvmInt (fromBeBytes word))
    if response.length < stop then .error (.returned (.text "E2EE 核心响应字段超长"))
    else if stop < (offset + 4 : ℕ) then .error .panicked
    else do
      let field ← indexRange response (offset + 4) stop.toNat
      .ok (field, stop.toNat)

/-- The end of a decoder: the fields, or the message of the core where it has failed. -/
def commandResult (readable : Bytes → Bool) (fallback : String) (status : UInt8)
    (fields : List Bytes) : Except (Fault E2eeCommandError) (List Bytes) :=
  if status ≠ 0 then
    match fields.head?.filter readable with
    | some message => .error (.returned (.core message))
    | none => .error (.returned (.text fallback))
  else .ok fields

/-- `E2eeSession.decodeResponse`. -/
def decodeResponseH5 (response : Bytes) : Except (Fault E2eeCommandError) (List Bytes) :=
  if response.length < 8 ∨ response.take 4 ≠ responseMagic then
    .error (.returned (.text "E2EE 核心响应头无效"))
  else if response.getD 4 0 ≠ 0 ∨ response.getD 5 0 ≠ 1 then
    .error (.returned (.text "E2EE 核心响应版本不支持"))
  else do
    let (fields, offset) ← collect
      (readResponseField "E2EE 核心响应已截断" "E2EE 核心响应已截断" response) (fun _ _ => none)
      (response.getD 7 0).toNat [] 8
    if offset ≠ response.length then .error (.returned (.text "E2EE 核心响应包含多余数据"))
    else commandResult (fun _ => true) "E2EE 核心命令失败" (response.getD 6 0) fields

/-- `E2eeCommandClient.decodeResponse` of Android.  The count is a `Byte`, and nothing is
repeated a negative number of times. -/
def decodeResponseAndroid (response : Bytes) : Except (Fault E2eeCommandError) (List Bytes) :=
  if response.length < 8 ∨ response.take 4 ≠ responseMagic ∨ response.getD 4 0 ≠ 0 ∨
      response.getD 5 0 ≠ 1 then .error (.returned (.text "E2EE 核心响应头无效"))
  else do
    let (fields, _) ← collect (readResponseFieldAndroid response) (fun _ _ => none)
      (jvmByte (response.getD 7 0)).toNat [] 8
    commandResult (fun _ => true) "未知 E2EE 命令错误" (response.getD 6 0) fields

/-- `String(data:encoding: .utf8)` is not nil. -/
def isUtf8 (data : Bytes) : Bool := (String.fromUTF8? ⟨data.toArray⟩).isSome

/-- `E2eeCommandClient.decodeResponse` of iOS. -/
def decodeResponseIos (response : Bytes) : Except (Fault E2eeCommandError) (List Bytes) :=
  if response.length < 8 ∨ response.take 4 ≠ responseMagic ∨ response.getD 4 0 ≠ 0 ∨
      response.getD 5 0 ≠ 1 then .error (.returned (.text "E2EE 核心响应头无效"))
  else do
    let (fields, _) ← collect
      (readResponseField "E2EE 核心响应字段截断" "E2EE 核心响应字段超长" response)
      (fun _ _ => none) (response.getD 7 0).toNat [] 8
    commandResult isUtf8 "未知 E2EE 命令错误" (response.getD 6 0) fields

/-- How a client encodes a request. -/
def ClientPlatform.encodeRequest : ClientPlatform → E2eeCommandOperation → List Bytes →
    Except (Fault E2eeCommandError) Bytes
  | .h5 => encodeRequestH5
  | .android => encodeRequestAndroid
  | .ios => encodeRequestIos

/-- How a client decodes a response. -/
def ClientPlatform.decodeResponse : ClientPlatform → Bytes →
    Except (Fault E2eeCommandError) (List Bytes)
  | .h5 => decodeResponseH5
  | .android => decodeResponseAndroid
  | .ios => decodeResponseIos

/-- What a client can hold in an array of bytes: a `ByteArray` has an `Int` of them. -/
def ClientPlatform.Holds (client : ClientPlatform) (bytes : Bytes) : Prop :=
  client = .android → bytes.length < 2 ^ 31

/-! ## Frames at the beginning of a string -/

section

variable {magic bytes : Bytes} {kind : UInt8} {fields : List Bytes} {start : ℕ}

/-- The bytes of a header, one after another. -/
structure FrameHeader (magic : Bytes) (kind count : UInt8) (bytes : Bytes) : Prop where
  length : 8 ≤ bytes.length
  magic : bytes.take 4 = magic
  version : bytes.getD 4 0 = 0 ∧ bytes.getD 5 0 = 1
  kind : bytes.getD 6 0 = kind
  count : bytes.getD 7 0 = count

theorem getD_add_drop (bytes : Bytes) (start i : ℕ) :
    bytes.getD (start + i) 0 = (bytes.drop start).getD i 0 := by
  rw [getD_eq_getElem?_getD, getD_eq_getElem?_getD, getElem?_drop]

theorem header_prefix_iff (hm : magic.length = 4) {count : UInt8} :
    magic ++ [0, 1, kind, count] <+: bytes ↔ FrameHeader magic kind count bytes := by
  have hsplit : magic ++ [0, 1, kind, count] <+: bytes.drop 0 ↔
      magic <+: bytes.drop 0 ∧ [0, 1, kind, count] <+: bytes.drop (0 + magic.length) :=
    append_prefix_drop
  have hmagic : magic <+: bytes ↔ bytes.take 4 = magic := by
    rw [prefix_iff_eq_take, hm]
    exact eq_comm
  rw [drop_zero, hm, Nat.zero_add, hmagic] at hsplit
  rw [hsplit]
  constructor
  · rintro ⟨htake, rest, hrest⟩
    have hlen := congrArg length hrest
    refine ⟨by simp at hlen; omega, htake, ⟨?_, ?_⟩, ?_, ?_⟩
    · rw [getD_add_drop bytes 4 0, ← hrest]; rfl
    · rw [getD_add_drop bytes 4 1, ← hrest]; rfl
    · rw [getD_add_drop bytes 4 2, ← hrest]; rfl
    · rw [getD_add_drop bytes 4 3, ← hrest]; rfl
  · rintro ⟨hlen, htake, ⟨h₀, h₁⟩, h₂, h₃⟩
    rw [getD_add_drop bytes 4 0] at h₀
    rw [getD_add_drop bytes 4 1] at h₁
    rw [getD_add_drop bytes 4 2] at h₂
    rw [getD_add_drop bytes 4 3] at h₃
    have hlen' : 4 ≤ (bytes.drop 4).length := by rw [length_drop]; omega
    rcases hdrop : bytes.drop 4 with _ | ⟨b₀, _ | ⟨b₁, _ | ⟨b₂, _ | ⟨b₃, rest⟩⟩⟩⟩
    iterate 4 simp [hdrop] at hlen'
    rw [hdrop] at h₀ h₁ h₂ h₃
    obtain rfl : b₀ = 0 := h₀
    obtain rfl : b₁ = 1 := h₁
    obtain rfl : b₂ = kind := h₂
    obtain rfl : b₃ = count := h₃
    exact ⟨htake, rest, rfl⟩

/-- A string begins with a frame where its header does, and its fields follow. -/
theorem frame_prefix_iff (hm : magic.length = 4) :
    frame magic kind fields <+: bytes ↔
      FrameHeader magic kind (UInt8.ofNat fields.length) bytes ∧
        fields.flatMap lengthPrefixed <+: bytes.drop 8 := by
  have hlen : (magic ++ [0, 1, kind, UInt8.ofNat fields.length]).length = 8 := by simp [hm]
  have hsplit : frame magic kind fields <+: bytes.drop 0 ↔
      magic ++ [0, 1, kind, UInt8.ofNat fields.length] <+: bytes.drop 0 ∧
        fields.flatMap lengthPrefixed <+: bytes.drop (0 + _) := append_prefix_drop
  rw [drop_zero, hlen, Nat.zero_add, header_prefix_iff hm] at hsplit
  exact hsplit

theorem length_frame (hm : magic.length = 4) :
    (frame magic kind fields).length = 8 + (fields.flatMap lengthPrefixed).length := by
  rw [frame, length_append, length_append, hm]
  rfl

/-- The fields can be counted and measured in a frame. -/
structure FieldsFit (fields : List Bytes) : Prop where
  count : fields.length < 256
  lengths : ∀ field ∈ fields, field.length < 256 ^ 4

theorem toNat_count (h : fields.length < 256) :
    (UInt8.ofNat fields.length).toNat = fields.length := by
  exact Nat.mod_eq_of_lt h

/-- Enough of the header for a reader that knows the count. -/
theorem frame_prefix_iff_of_count (hm : magic.length = 4) {count : UInt8}
    (h : FrameHeader magic kind count bytes) :
    frame magic kind fields <+: bytes ∧ FieldsFit fields ↔
      fields.length = count.toNat ∧ (∀ field ∈ fields, field.length < 256 ^ 4) ∧
        fields.flatMap lengthPrefixed <+: bytes.drop 8 := by
  rw [frame_prefix_iff hm]
  constructor
  · rintro ⟨⟨hheader, hpre⟩, hfit⟩
    refine ⟨?_, hfit.lengths, hpre⟩
    rw [← h.count, hheader.count, UInt8.toNat_ofNat']
    exact (Nat.mod_eq_of_lt hfit.count).symm
  · rintro ⟨hcount, hlengths, hpre⟩
    have hlt : count.toNat < 256 := count.toNat_lt
    refine ⟨⟨?_, hpre⟩, by omega, hlengths⟩
    rwa [hcount, UInt8.ofNat_toNat]

/-- The loop of a decoder, after the header. -/
theorem collect_fields_eq_ok {ε : Type} {read : ℕ → Except ε (Bytes × ℕ)} {legal : Bytes → Prop}
    (h : Frames bytes read lengthPrefixed legal) (hlen : 8 ≤ bytes.length) {count stop : ℕ} :
    collect read (fun _ _ => none) count [] 8 = .ok (fields, stop) ↔
      fields.length = count ∧ (∀ field ∈ fields, legal field) ∧
        fields.flatMap lengthPrefixed <+: bytes.drop 8 ∧
        stop = 8 + (fields.flatMap lengthPrefixed).length := by
  rw [h.collect_eq_ok hlen]
  constructor
  · rintro ⟨xs, rfl, hcount, hlegal, -, hpre, rfl⟩
    exact ⟨hcount, hlegal, hpre, rfl⟩
  · rintro ⟨hcount, hlegal, hpre, rfl⟩
    exact ⟨fields, rfl, hcount, hlegal, admitted_of_none (fun _ _ => rfl) _ _, hpre, rfl⟩

theorem eq_frame_iff (hm : magic.length = 4) :
    bytes = frame magic kind fields ↔ frame magic kind fields <+: bytes ∧
      8 + (fields.flatMap lengthPrefixed).length = bytes.length := by
  have hlength : (frame magic kind fields).length = _ := length_frame hm
  rw [← hlength]
  constructor
  · rintro rfl
    exact ⟨prefix_rfl, rfl⟩
  · rintro ⟨hpre, hlen⟩
    exact (hpre.eq_of_length hlen).symm

end

/-! ## The core -/

section

variable {target : Target} {request : Bytes}

theorem readRequestField_frames (target : Target) (h : request.length ≤ maxCommandBytes) :
    Frames request (readRequestField target request) lengthPrefixed
      fun field => field.length < 256 ^ 4 ∧ field.length ≤ maxStateBytes := by
  refine frames_lengthPrefixed fun start hstart n hn field stop => ?_
  have hmax : maxCommandBytes + 4 + maxStateBytes < 2 ^ 32 := by decide
  have hadd : target.checkedAdd start 4 = some (start + 4) := Target.checkedAdd_of_le (by omega)
  have hlen (hle : start + 4 + n ≤ request.length) :
      ((request.drop (start + 4)).take n).length = n := by
    rw [length_take, length_drop]
    omega
  rw [readRequestField, hadd]
  simp only [slice_add]
  by_cases hword : start + 4 ≤ request.length
  · simp only [if_pos hword, hn, ite_error_eq_ok, not_lt]
    by_cases hfits : n ≤ maxStateBytes
    · rw [Target.checkedAdd_of_le (show start + 4 + n < 2 ^ 32 by omega)]
      simp only [slice_add]
      by_cases hfield : start + 4 + n ≤ request.length
      · simp only [if_pos hfield, Except.ok.injEq, Prod.mk.injEq]
        constructor
        · rintro ⟨_, rfl, rfl⟩
          exact ⟨hword, hfield, (hlen hfield).le.trans hfits, rfl, rfl⟩
        · rintro ⟨_, _, _, rfl, rfl⟩
          exact ⟨hfits, rfl, rfl⟩
      · simp [hfield]
    · refine iff_of_false (fun hread => hfits hread.1) ?_
      rintro ⟨_, hfield, hlegal, rfl, _⟩
      exact hfits ((hlen hfield).ge.trans hlegal)
  · simp [hword]

/-- **The requests that the core accepts.** -/
theorem decodeRequest_eq_ok {operation : UInt8} {fields : List Bytes} :
    decodeRequest target request = .ok (operation, fields) ↔
      request = frame requestMagic operation fields ∧ request.length ≤ maxCommandBytes ∧
        fields.length ≤ maxFields ∧ ∀ field ∈ fields, field.length ≤ maxStateBytes := by
  have hversion (b₀ b₁ : UInt8) : fromBeBytes [b₀, b₁] = protocolVersion ↔ b₀ = 0 ∧ b₁ = 1 := by
    have : [b₀, b₁] = toBeBytes 2 protocolVersion ↔ _ :=
      eq_toBeBytes_iff (show protocolVersion < 256 ^ 2 by decide)
    rw [and_iff_right (by rfl)] at this
    rw [← this]
    simp [toBeBytes, protocolVersion]
  rw [eq_frame_iff rfl]
  simp only [decodeRequest, ite_error_eq_ok, bind_eq_ok, not_or, not_lt, not_not, Prod.exists,
    Except.ok.injEq, Prod.mk.injEq, hversion]
  constructor
  · rintro ⟨hmax, ⟨hlen, hmagic⟩, hversion, hfew, fields', stop, hcollect, hstop, hkind, rfl⟩
    have hheader : FrameHeader requestMagic operation (request.getD 7 0) request :=
      ⟨hlen, hmagic, hversion, hkind, rfl⟩
    obtain ⟨hcount, hlegal, hpre, rfl⟩ :=
      (collect_fields_eq_ok (readRequestField_frames target hmax) hlen).mp hcollect
    obtain ⟨hframe, _⟩ := (frame_prefix_iff_of_count rfl hheader).mpr
      ⟨hcount, fun field hf => (hlegal field hf).1, hpre⟩
    exact ⟨⟨hframe, hstop⟩, hmax, hcount ▸ hfew, fun field hf => (hlegal field hf).2⟩
  · rintro ⟨⟨hframe, hstop⟩, hmax, hfew, hlegal⟩
    obtain ⟨hheader, hpre⟩ := (frame_prefix_iff rfl).mp hframe
    have hfew' : fields.length < 256 := hfew.trans_lt (by decide)
    have hcount : (request.getD 7 0).toNat = fields.length := by
      rw [hheader.count, toNat_count hfew']
    have hstate : maxStateBytes < 256 ^ 4 := by decide
    refine ⟨hmax, ⟨hheader.length, hheader.magic⟩, hheader.version, hcount ▸ hfew, fields, _,
      (collect_fields_eq_ok (readRequestField_frames target hmax) hheader.length).mpr
        ⟨hcount.symm, fun field hf => ?_, hpre, rfl⟩, hstop, hheader.kind, rfl⟩
    exact ⟨(hlegal field hf).trans_lt hstate, hlegal field hf⟩

/-- **One wire format**: a request is accepted on every target or on none, and no two strings of
bytes are accepted as the same request. -/
theorem accepted_requests (target target' : Target) (request : Bytes) (out : UInt8 × List Bytes) :
    (decodeRequest target request = .ok out ↔ decodeRequest target' request = .ok out) ∧
      ∀ request', decodeRequest target request = .ok out →
        decodeRequest target' request' = .ok out → request = request' := by
  refine ⟨decodeRequest_eq_ok.trans decodeRequest_eq_ok.symm, fun request' h h' => ?_⟩
  rw [(decodeRequest_eq_ok.1 h).1, (decodeRequest_eq_ok.1 h').1]

end

/-! ## The clients -/

section

variable {response : Bytes}

theorem readResponseField_frames (truncated overlong : String) (response : Bytes) :
    Frames response (readResponseField truncated overlong response) lengthPrefixed
      fun field => field.length < 256 ^ 4 ∧ True := by
  refine frames_lengthPrefixed fun start _ n hn field stop => ?_
  rw [readResponseField, hn, ite_error_eq_ok, ite_error_eq_ok, Except.ok.injEq, Prod.mk.injEq,
    not_lt, not_lt, true_and, eq_comm (a := field), eq_comm (a := stop)]

theorem jvmInt_natCast {n : ℕ} (h : n < 2 ^ 31) : jvmInt n = n := by
  rw [jvmInt, Int.bmod_def]
  omega

theorem readResponseFieldAndroid_frames (h : response.length < 2 ^ 31) :
    Frames response (readResponseFieldAndroid response) lengthPrefixed
      fun field => field.length < 256 ^ 4 ∧ True := by
  refine frames_lengthPrefixed fun start hstart n hn field stop => ?_
  have hn32 : n < 2 ^ 32 := by
    have := fromBeBytes_lt ((response.drop start).take 4)
    have hle : ((response.drop start).take 4).length ≤ 4 := by simp
    have hpow := Nat.pow_le_pow_right (show 0 < 256 by decide) hle
    omega
  rw [readResponseFieldAndroid]
  by_cases hword : start + 4 ≤ response.length
  · have hindex : indexRange (ε := E2eeCommandError) response start (start + 4) =
        .ok ((response.drop start).take 4) := by
      rw [indexRange_of_le (by omega) hword, Nat.add_sub_cancel_left]
    rw [jvmInt_natCast (by omega), if_neg (by omega), hindex]
    simp only [bind_eq_ok, Except.ok.injEq, exists_eq_left', hn, ite_error_eq_ok, not_lt,
      Prod.mk.injEq]
    by_cases hfield : start + 4 + n ≤ response.length
    · have hstop : jvmInt ((start + 4 : ℕ) + jvmInt n) = (start + 4 + n : ℕ) := by
        rw [jvmInt_natCast (n := n) (by omega), ← Nat.cast_add, jvmInt_natCast (by omega)]
      rw [hstop, Int.toNat_natCast, indexRange_of_le (by omega) hfield, Nat.add_sub_cancel_left]
      simp only [Except.ok.injEq, exists_eq_left']
      constructor
      · rintro ⟨_, _, rfl, rfl⟩
        exact ⟨hword, hfield, trivial, rfl, rfl⟩
      · rintro ⟨_, _, _, rfl, rfl⟩
        exact ⟨by omega, by omega, rfl, rfl⟩
    · -- The end is past the string, or it has wrapped round.
      have hstop : (response.length : ℤ) < jvmInt ((start + 4 : ℕ) + jvmInt n) ∨
          jvmInt ((start + 4 : ℕ) + jvmInt n) < (start + 4 : ℕ) := by
        rw [jvmInt, jvmInt, Int.bmod_def, Int.bmod_def]
        omega
      refine iff_of_false ?_ (fun hframe => hfield hframe.2.1)
      rintro ⟨hle, hge, _⟩
      omega
  · refine iff_of_false ?_ (fun hframe => hword hframe.1)
    rw [ite_error_eq_ok, bind_eq_ok]
    rintro ⟨_, word, hindex, _⟩
    rw [indexRange, slice, if_neg (by omega)] at hindex
    cases hindex

/-! ## The responses that the clients accept -/

variable {fields : List Bytes}

theorem commandResult_eq_ok {readable : Bytes → Bool} {fallback : String} {status : UInt8}
    {fields' : List Bytes} :
    commandResult readable fallback status fields = .ok fields' ↔
      status = 0 ∧ fields = fields' := by
  rw [commandResult]
  by_cases hstatus : status = 0
  · simp [hstatus]
  · rw [if_pos hstatus]
    refine iff_of_false ?_ (fun h => hstatus h.1)
    cases fields.head?.filter readable <;> simp

theorem decodeResponseH5_eq_ok :
    decodeResponseH5 response = .ok fields ↔
      response = encodeResponse 0 fields ∧ FieldsFit fields := by
  have hframes := readResponseField_frames "E2EE 核心响应已截断" "E2EE 核心响应已截断" response
  rw [encodeResponse, eq_frame_iff rfl, and_right_comm]
  simp only [decodeResponseH5, ite_error_eq_ok, bind_eq_ok, commandResult_eq_ok, not_or,
    not_lt, not_not, Prod.exists]
  constructor
  · rintro ⟨⟨hlen, hmagic⟩, hversion, fields', stop, hcollect, hstop, hstatus, rfl⟩
    have hheader : FrameHeader responseMagic 0 (response.getD 7 0) response :=
      ⟨hlen, hmagic, hversion, hstatus, rfl⟩
    obtain ⟨hcount, hlegal, hpre, rfl⟩ := (collect_fields_eq_ok hframes hlen).mp hcollect
    exact ⟨(frame_prefix_iff_of_count rfl hheader).mpr
      ⟨hcount, fun field hf => (hlegal field hf).1, hpre⟩, hstop⟩
  · rintro ⟨⟨hpre, hfit⟩, hstop⟩
    obtain ⟨hheader, hfields⟩ := (frame_prefix_iff rfl).mp hpre
    refine ⟨⟨hheader.length, hheader.magic⟩, hheader.version, fields, _,
      (collect_fields_eq_ok hframes hheader.length).mpr ⟨?_, ?_, hfields, rfl⟩, hstop,
      hheader.kind, rfl⟩
    · rw [hheader.count, toNat_count hfit.count]
    · exact fun field hf => ⟨hfit.lengths field hf, trivial⟩

theorem decodeResponseIos_eq_ok :
    decodeResponseIos response = .ok fields ↔
      encodeResponse 0 fields <+: response ∧ FieldsFit fields := by
  have hframes := readResponseField_frames "E2EE 核心响应字段截断" "E2EE 核心响应字段超长" response
  simp only [decodeResponseIos, ite_error_eq_ok, bind_eq_ok, commandResult_eq_ok, not_or,
    not_lt, not_not, Prod.exists, encodeResponse]
  constructor
  · rintro ⟨⟨hlen, hmagic, hversion⟩, fields', stop, hcollect, hstatus, rfl⟩
    have hheader : FrameHeader responseMagic 0 (response.getD 7 0) response :=
      ⟨hlen, hmagic, hversion, hstatus, rfl⟩
    obtain ⟨hcount, hlegal, hpre, -⟩ := (collect_fields_eq_ok hframes hlen).mp hcollect
    exact (frame_prefix_iff_of_count rfl hheader).mpr
      ⟨hcount, fun field hf => (hlegal field hf).1, hpre⟩
  · rintro ⟨hpre, hfit⟩
    obtain ⟨hheader, hfields⟩ := (frame_prefix_iff rfl).mp hpre
    refine ⟨⟨hheader.length, hheader.magic, hheader.version⟩, fields, _,
      (collect_fields_eq_ok hframes hheader.length).mpr ⟨?_, ?_, hfields, rfl⟩, hheader.kind, rfl⟩
    · rw [hheader.count, toNat_count hfit.count]
    · exact fun field hf => ⟨hfit.lengths field hf, trivial⟩

theorem bmod_of_lt {n : ℕ} (h : n < 128) : (n : ℤ).bmod 256 = n := by
  rw [Int.bmod_def]
  split <;> omega

theorem bmod_of_le {n : ℕ} (h : 128 ≤ n) (h' : n < 256) : (n : ℤ).bmod 256 = n - 256 := by
  rw [Int.bmod_def]
  split <;> omega

variable {b : UInt8}

theorem jvmByte_of_lt (h : b.toNat < 128) : jvmByte b = b.toNat := bmod_of_lt h

theorem jvmByte_of_le (h : 128 ≤ b.toNat) : jvmByte b = b.toNat - 256 :=
  bmod_of_le h b.toNat_lt

theorem toNat_jvmByte (h : b.toNat < 128) : (jvmByte b).toNat = b.toNat := by
  rw [jvmByte_of_lt h]
  exact Int.toNat_natCast _

theorem toNat_jvmByte_of_le (h : 128 ≤ b.toNat) : (jvmByte b).toNat = 0 := by
  have hlt : b.toNat < 256 := b.toNat_lt
  rw [jvmByte_of_le h]
  exact Int.toNat_of_nonpos (by omega)

/-- The count of a successful response is no positive `Byte`. -/
def CountOverflows (response : Bytes) : Prop :=
  FrameHeader responseMagic 0 (response.getD 7 0) response ∧ 128 ≤ (response.getD 7 0).toNat

theorem decodeResponseAndroid_eq_ok (h : response.length < 2 ^ 31) :
    decodeResponseAndroid response = .ok fields ↔
      (encodeResponse 0 fields <+: response ∧ FieldsFit fields ∧ fields.length < 128) ∨
        (CountOverflows response ∧ fields = []) := by
  have hframes := readResponseFieldAndroid_frames h
  simp only [decodeResponseAndroid, ite_error_eq_ok, bind_eq_ok, commandResult_eq_ok, not_or,
    not_lt, not_not, Prod.exists, encodeResponse]
  constructor
  · rintro ⟨⟨hlen, hmagic, hversion⟩, fields', stop, hcollect, hstatus, rfl⟩
    have hheader : FrameHeader responseMagic 0 (response.getD 7 0) response :=
      ⟨hlen, hmagic, hversion, hstatus, rfl⟩
    obtain ⟨hcount, hlegal, hpre, -⟩ := (collect_fields_eq_ok hframes hlen).mp hcollect
    by_cases hbyte : (response.getD 7 0).toNat < 128
    · rw [toNat_jvmByte hbyte] at hcount
      obtain ⟨hframe, hfit⟩ := (frame_prefix_iff_of_count rfl hheader).mpr
        ⟨hcount, fun field hf => (hlegal field hf).1, hpre⟩
      exact .inl ⟨hframe, hfit, hcount ▸ hbyte⟩
    · rw [toNat_jvmByte_of_le (not_lt.mp hbyte)] at hcount
      exact .inr ⟨⟨hheader, not_lt.mp hbyte⟩, length_eq_zero_iff.mp hcount⟩
  · rintro (⟨hpre, hfit, hsmall⟩ | ⟨⟨hheader, hbyte⟩, rfl⟩)
    · obtain ⟨hheader, hfields⟩ := (frame_prefix_iff rfl).mp hpre
      refine ⟨⟨hheader.length, hheader.magic, hheader.version⟩, fields, _,
        (collect_fields_eq_ok hframes hheader.length).mpr ⟨?_, ?_, hfields, rfl⟩,
        hheader.kind, rfl⟩
      · have hbyte : (response.getD 7 0).toNat = fields.length := by
          rw [hheader.count, toNat_count hfit.count]
        rw [toNat_jvmByte (hbyte ▸ hsmall), hbyte]
      · exact fun field hf => ⟨hfit.lengths field hf, trivial⟩
    · refine ⟨⟨hheader.length, hheader.magic, hheader.version⟩, [], _,
        (collect_fields_eq_ok hframes hheader.length).mpr ⟨?_, ?_, ?_, rfl⟩, hheader.kind, rfl⟩
      · rw [toNat_jvmByte_of_le hbyte]
        rfl
      · exact forall_mem_nil _
      · exact nil_prefix

end

/-! ## The requests that the clients make -/

section

variable {operation : E2eeCommandOperation} {fields : List Bytes} {request : Bytes}

theorem length_flatMap_lengthPrefixed (fields : List Bytes) :
    (fields.flatMap lengthPrefixed).length = (fields.map fun field => 4 + field.length).sum := by
  rw [length_flatMap]
  simp only [length_lengthPrefixed]

theorem encodeRequestH5_eq_ok :
    encodeRequestH5 operation fields = .ok request ↔
      fields.length ≤ 8 ∧ request = frame requestMagic operation.wire fields := by
  rw [encodeRequestH5, ite_error_eq_ok, not_lt, Except.ok.injEq, eq_comm (a := request)]

theorem encodeRequestIos_eq_ok :
    encodeRequestIos operation fields = .ok request ↔
      fields.length ≤ 8 ∧ (∀ field ∈ fields, field.length < 256 ^ 4) ∧
        request = frame requestMagic operation.wire fields := by
  rw [encodeRequestIos, ite_error_eq_ok, ite_error_eq_ok, not_lt, Except.ok.injEq,
    eq_comm (a := request)]
  simp only [not_exists, not_and, not_le]

theorem jvmInt_eq_self_iff {n : ℕ} : ¬ jvmInt n < n ↔ n < 2 ^ 31 := by
  constructor
  · intro h
    rw [jvmInt, Int.bmod_def] at h
    split at h <;> omega
  · intro h
    rw [jvmInt_natCast h]
    exact lt_irrefl _

/-- An array that has not wrapped round is full. -/
theorem encodeRequestAndroid_eq_ok :
    encodeRequestAndroid operation fields = .ok request ↔
      fields.length ≤ 8 ∧ 8 + (fields.map fun field => 4 + field.length).sum < 2 ^ 31 ∧
        request = frame requestMagic operation.wire fields := by
  have hlen : (frame requestMagic operation.wire fields).length =
      8 + (fields.map fun field => 4 + field.length).sum := by
    rw [length_frame rfl, length_flatMap_lengthPrefixed]
  simp only [encodeRequestAndroid, ite_error_eq_ok, not_lt (a := 8), hlen, jvmInt_eq_self_iff,
    Except.ok.injEq]
  refine and_congr_right fun _ => and_congr_right fun hsmall => ?_
  rw [jvmInt_natCast hsmall, Int.toNat_natCast, Nat.sub_self, replicate_zero, append_nil]
  exact eq_comm

/-- The fields are within the limits of the core. -/
structure WithinCommandLimits (fields : List Bytes) : Prop where
  count : fields.length ≤ maxFields
  lengths : ∀ field ∈ fields, field.length ≤ maxStateBytes
  total : 8 + (fields.map fun field => 4 + field.length).sum ≤ maxCommandBytes

/-- **A request comes through** just where its fields are within the limits of the core. -/
theorem request_comes_through (target : Target) (client : ClientPlatform) :
    (∃ request, client.encodeRequest operation fields = .ok request ∧
      decodeRequest target request = .ok (operation.wire, fields)) ↔
      WithinCommandLimits fields := by
  have hlen : (frame requestMagic operation.wire fields).length =
      8 + (fields.map fun field => 4 + field.length).sum := by
    rw [length_frame rfl, length_flatMap_lengthPrefixed]
  constructor
  · rintro ⟨request, -, hdecode⟩
    obtain ⟨rfl, hmax, hcount, hlengths⟩ := decodeRequest_eq_ok.mp hdecode
    exact ⟨hcount, hlengths, hlen ▸ hmax⟩
  · intro h
    have hmax : maxCommandBytes < 2 ^ 31 := by decide
    have hstate : maxStateBytes < 256 ^ 4 := by decide
    refine ⟨frame requestMagic operation.wire fields, ?_,
      decodeRequest_eq_ok.mpr ⟨rfl, hlen ▸ h.total, h.count, h.lengths⟩⟩
    cases client with
    | h5 => exact encodeRequestH5_eq_ok.mpr ⟨h.count, rfl⟩
    | android => exact encodeRequestAndroid_eq_ok.mpr ⟨h.count, h.total.trans_lt hmax, rfl⟩
    | ios =>
      exact encodeRequestIos_eq_ok.mpr
        ⟨h.count, fun field hf => (h.lengths field hf).trans_lt hstate, rfl⟩

end

/-! ## Agreement -/

/-- The decoder of a client accepts a string for a response just where it is one. -/
def ClientPlatform.Exact (client : ClientPlatform) (response : Bytes) : Prop :=
  ∀ fields, client.decodeResponse response = .ok fields ↔
    response = encodeResponse 0 fields ∧ FieldsFit fields

/-- There are bytes after the fields of a response. -/
def Surplus (response : Bytes) : Prop :=
  ∃ fields extra, extra ≠ [] ∧ response = encodeResponse 0 fields ++ extra ∧ FieldsFit fields

/-- What the decoder of a client overlooks in a response. -/
def ClientPlatform.Overlooks : ClientPlatform → Bytes → Prop
  | .h5, _ => False
  | .android, response => Surplus response ∨ CountOverflows response
  | .ios, response => Surplus response

variable {response : Bytes}

theorem not_surplus_iff :
    ¬ Surplus response ↔ ∀ fields, FieldsFit fields → encodeResponse 0 fields <+: response →
      response = encodeResponse 0 fields := by
  constructor
  · rintro h fields hfit ⟨extra, rfl⟩
    by_cases hextra : extra = []
    · rw [hextra, append_nil]
    · exact absurd ⟨fields, extra, hextra, rfl, hfit⟩ h
  · rintro h ⟨fields, extra, hextra, rfl, hfit⟩
    have := h fields hfit (prefix_append _ _)
    exact hextra (append_right_eq_self.mp this)

theorem exact_ios_iff : ClientPlatform.ios.Exact response ↔ ¬ Surplus response := by
  have hdecode (fields : List Bytes) : ClientPlatform.ios.decodeResponse response = .ok fields ↔
      encodeResponse 0 fields <+: response ∧ FieldsFit fields := decodeResponseIos_eq_ok
  rw [not_surplus_iff, ClientPlatform.Exact]
  simp only [hdecode]
  constructor
  · intro h fields hfit hpre
    exact ((h fields).mp ⟨hpre, hfit⟩).1
  · intro h fields
    constructor
    · rintro ⟨hpre, hfit⟩
      exact ⟨h fields hfit hpre, hfit⟩
    · rintro ⟨heq, hfit⟩
      exact ⟨heq ▸ prefix_rfl, hfit⟩

theorem countOverflows_iff_of_framed {fields : List Bytes} (hfit : FieldsFit fields)
    (hpre : encodeResponse 0 fields <+: response) :
    CountOverflows response ↔ 128 ≤ fields.length := by
  obtain ⟨hheader, -⟩ := (frame_prefix_iff rfl).mp hpre
  rw [CountOverflows, hheader.count, toNat_count hfit.count]
  exact and_iff_right (hheader.count ▸ hheader)

theorem exact_android_iff (h : response.length < 2 ^ 31) :
    ClientPlatform.android.Exact response ↔ ¬ (Surplus response ∨ CountOverflows response) := by
  have hdecode (fields : List Bytes) :
      ClientPlatform.android.decodeResponse response = .ok fields ↔
        (encodeResponse 0 fields <+: response ∧ FieldsFit fields ∧ fields.length < 128) ∨
          (CountOverflows response ∧ fields = []) := decodeResponseAndroid_eq_ok h
  rw [ClientPlatform.Exact, not_or, not_surplus_iff]
  simp only [hdecode]
  constructor
  · intro hexact
    have hcount : ¬ CountOverflows response := by
      intro hover
      obtain ⟨heq, hfit⟩ := (hexact []).mp (.inr ⟨hover, rfl⟩)
      have := (countOverflows_iff_of_framed hfit (heq ▸ prefix_rfl)).mp hover
      simp at this
    refine ⟨fun fields hfit hpre => ?_, hcount⟩
    have hsmall : fields.length < 128 := by
      rw [← not_le, ← countOverflows_iff_of_framed hfit hpre]
      exact hcount
    exact ((hexact fields).mp (.inl ⟨hpre, hfit, hsmall⟩)).1
  · rintro ⟨hsurplus, hcount⟩ fields
    constructor
    · rintro (⟨hpre, hfit, -⟩ | ⟨hover, -⟩)
      · exact ⟨hsurplus fields hfit hpre, hfit⟩
      · exact absurd hover hcount
    · rintro ⟨heq, hfit⟩
      have hpre : encodeResponse 0 fields <+: response := heq ▸ prefix_rfl
      refine .inl ⟨hpre, hfit, ?_⟩
      rw [← not_le, ← countOverflows_iff_of_framed hfit hpre]
      exact hcount

/-- **The framing of commands**, where the core and the clients agree on it.  A request comes
through to the core just where its fields are within the core's limits.  A response comes through
to a client just where its fields can be counted, and measured, in it.  The decoder of H5 accepts
nothing but responses; the others overlook what follows the fields, and the one of Android a
count that is no positive `Byte`. -/
theorem command_framing (client : ClientPlatform) :
    (∀ target operation fields,
      (∃ request, client.encodeRequest operation fields = .ok request ∧
        decodeRequest target request = .ok (operation.wire, fields)) ↔
      WithinCommandLimits fields) ∧
    (∀ fields, client.Holds (encodeResponse 0 fields) →
      (client.decodeResponse (encodeResponse 0 fields) = .ok fields ↔
        FieldsFit fields ∧ (client = .android → fields.length < 128))) ∧
    ∀ response, client.Holds response → (client.Exact response ↔ ¬ client.Overlooks response) := by
  refine ⟨fun target _ _ => request_comes_through target client, ?_, ?_⟩
  · intro fields hholds
    cases client with
    | h5 =>
      refine decodeResponseH5_eq_ok.trans ?_
      simp
    | android =>
      refine (decodeResponseAndroid_eq_ok (hholds rfl)).trans ?_
      constructor
      · rintro (⟨-, hfit, hsmall⟩ | ⟨hover, rfl⟩)
        · exact ⟨hfit, fun _ => hsmall⟩
        · exact absurd hover.2 (by decide)
      · rintro ⟨hfit, hsmall⟩
        exact .inl ⟨prefix_rfl, hfit, hsmall rfl⟩
    | ios =>
      refine decodeResponseIos_eq_ok.trans ?_
      simp [prefix_rfl]
  · intro response hholds
    cases client with
    | h5 => exact iff_of_true (fun fields => decodeResponseH5_eq_ok) not_false
    | android => exact exact_android_iff (hholds rfl)
    | ios => exact exact_ios_iff

/-- A response with a byte too many, which Android accepts and H5 does not. -/
theorem command_framing_surplus :
    ¬ ∀ client response, ClientPlatform.Holds client response → client.Exact response := by
  intro h
  have hsmall : (encodeResponse 0 [] ++ [7]).length < 2 ^ 31 := by decide
  have hok : ClientPlatform.android.decodeResponse (encodeResponse 0 [] ++ [7]) = .ok [] :=
    (decodeResponseAndroid_eq_ok hsmall).mpr (.inl
      ⟨prefix_append _ _, ⟨by decide, forall_mem_nil _⟩, by decide⟩)
  have heq := ((h .android _ (fun _ => hsmall) []).mp hok).1
  exact absurd heq (by decide)

end RedcodeIm
