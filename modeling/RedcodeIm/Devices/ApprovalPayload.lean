import Mathlib.Data.List.SplitLengths
import RedcodeIm.Database.Uuids
import RedcodeIm.Lib.Base64
import RedcodeIm.Lib.Framing

/-!
# The payload of a device approval

What a device signs to approve another, and what the server verifies.

* `deviceApprovalPayload` — `handlers/e2ee.rs`.
* `H5.deviceApprovalPayload`, `H5.approvalPayload` — `device-manager.ts`.
* `approval_payload` — they are the same bytes, and other approvals have others.
-/

namespace RedcodeIm.DeviceApproval

open Framing

abbrev UuidBytes : Type := Vector UInt8 16

def deviceApprovalDomain : List UInt8 :=
  "redcode-im/e2ee/device-approval/v1\x00".toUTF8.data.toList

/-! ## The server -/

def deviceApprovalPayload (userId approverDeviceId targetDeviceId : UuidBytes)
    (protocolVersion : Int16) (targetCredentialFingerprint : List UInt8) : List UInt8 :=
  deviceApprovalDomain ++ userId.toList ++ approverDeviceId.toList ++ targetDeviceId.toList ++
    toBeBytes 2 protocolVersion.toUInt16.toNat ++
    toBeBytes 2 (UInt16.ofNat targetCredentialFingerprint.length).toNat ++
    targetCredentialFingerprint

def mlsProtocolVersion : Int16 := 1

/-- A row of `e2ee_devices`; only devices of one version are registered. -/
structure E2eeDevice where
  id : UuidBytes
  protocolVersion : Int16
  credentialFingerprint : List UInt8
  requireProtocolVersion : protocolVersion = mlsProtocolVersion

def hexByte (b : UInt8) : List Char := [Nat.digitChar (b.toNat / 16), Nat.digitChar (b.toNat % 16)]

/-- A UUID as the server writes it. -/
def uuidText (u : UuidBytes) : String :=
  String.ofList (['-'].intercalate
    (([4, 2, 2, 2, 6].splitLengths u.toList).map (·.flatMap hexByte)))

/-! ## The client -/

namespace H5

structure E2eeDeviceInfo where
  id : String
  credentialFingerprint : String

/-- Digits of sixteen in pairs. -/
def bytesOfDigits : List ℕ → List UInt8
  | high :: low :: rest => UInt8.ofNat (16 * high + low) :: bytesOfDigits rest
  | _ => []

/-- Digits of either case are taken, as the text is put into lower case first. -/
def uuidBytes (value : String) : Option (List UInt8) := do
  let digits ← (value.toList.filter (· ≠ '-')).mapM hexDigitValue
  guard (digits.length = 32)
  return bytesOfDigits digits

def uint16 (value : ℕ) : List UInt8 := [UInt8.ofNat (value / 256), UInt8.ofNat value]

def deviceApprovalPayload (userId approverDeviceId targetDeviceId : String) (protocolVersion : ℕ)
    (credentialFingerprint : List UInt8) : Option (List UInt8) := do
  return deviceApprovalDomain ++ (← uuidBytes userId) ++ (← uuidBytes approverDeviceId) ++
    (← uuidBytes targetDeviceId) ++ uint16 protocolVersion ++
    uint16 credentialFingerprint.length ++ credentialFingerprint

/-- What `approveDevice` has signed. -/
def approvalPayload (accountId deviceId : String) (targetDevice : E2eeDeviceInfo) :
    Option (List UInt8) := do
  deviceApprovalPayload accountId deviceId targetDevice.id 1
    (← Base64.decodeText targetDevice.credentialFingerprint)

end H5

/-- A row as it is sent to the client. -/
def E2eeDevice.info (device : E2eeDevice) : H5.E2eeDeviceInfo :=
  ⟨uuidText device.id, Base64.encodeText device.credentialFingerprint⟩

/-! ## Agreement -/

theorem hexDigitValue_digitChar : ∀ n < 16, hexDigitValue (Nat.digitChar n) = some n := by decide

theorem digitChar_ne_hyphen : ∀ n < 16, Nat.digitChar n ≠ '-' := by decide

theorem not_mem_hexByte (b : UInt8) : '-' ∉ hexByte b := by
  have hhigh := digitChar_ne_hyphen (b.toNat / 16) (by have := b.toNat_lt; omega)
  have hlow := digitChar_ne_hyphen (b.toNat % 16) (by omega)
  simp [hexByte, hhigh.symm, hlow.symm]

theorem filter_intercalate {ls : List (List Char)} (h : ∀ l ∈ ls, '-' ∉ l) :
    (['-'].intercalate ls).filter (· ≠ '-') = ls.flatten := by
  induction ls with
  | nil => rfl
  | cons l ls ih =>
    have hl : l.filter (· ≠ '-') = l := by
      rw [List.filter_eq_self]
      exact fun a ha => by simpa using ne_of_mem_of_not_mem ha (h l (by simp))
    cases ls with
    | nil => rw [show ['-'].intercalate [l] = l by simp, hl, List.flatten_singleton]
    | cons l' ls =>
      rw [List.intercalate_cons_cons, List.filter_append, List.filter_append, hl,
        ih fun l hl => h l (by simp [hl])]
      simp

theorem mapM_hexByte (bytes : List UInt8) : (bytes.flatMap hexByte).mapM hexDigitValue =
    some (bytes.flatMap fun b => [b.toNat / 16, b.toNat % 16]) := by
  induction bytes with
  | nil => rfl
  | cons b bytes ih =>
    have hhigh := hexDigitValue_digitChar (b.toNat / 16) (by have := b.toNat_lt; omega)
    have hlow := hexDigitValue_digitChar (b.toNat % 16) (by omega)
    simp [hexByte, List.mapM_cons, hhigh, hlow, ih]

theorem bytesOfDigits_flatMap (bytes : List UInt8) :
    H5.bytesOfDigits (bytes.flatMap fun b => [b.toNat / 16, b.toNat % 16]) = bytes := by
  induction bytes with
  | nil => rfl
  | cons b bytes ih =>
    have hb : 16 * (b.toNat / 16) + b.toNat % 16 = b.toNat := by omega
    simp [H5.bytesOfDigits, ih, hb]

theorem uuidBytes_uuidText (u : UuidBytes) : H5.uuidBytes (uuidText u) = some u.toList := by
  have hsplit : ([4, 2, 2, 2, 6].splitLengths u.toList).flatten = u.toList :=
    List.flatten_splitLengths _ _ (by simp)
  have hdigits : (uuidText u).toList.filter (· ≠ '-') = u.toList.flatMap hexByte := by
    rw [uuidText, String.toList_ofList, filter_intercalate]
    · conv_rhs => rw [← hsplit]
      simp [List.flatMap_def]
    · intro l hl
      obtain ⟨bytes, -, rfl⟩ := List.mem_map.1 hl
      simpa using fun b _ => not_mem_hexByte b
  rw [H5.uuidBytes, hdigits, mapM_hexByte]
  simp [bytesOfDigits_flatMap]

theorem uint16_eq (n : ℕ) : H5.uint16 n = toBeBytes 2 (UInt16.ofNat n).toNat := by
  have hhigh : UInt8.ofNat (n / 256) = UInt8.ofNat (n % 65536 / 256) := by
    apply UInt8.toNat_inj.1
    simp
    omega
  have hlow : UInt8.ofNat n = UInt8.ofNat (n % 65536) := by
    apply UInt8.toNat_inj.1
    simp
  simp [H5.uint16, toBeBytes, hhigh, hlow]

/-- **The client signs what the server verifies**, and no other approval has the same bytes. -/
theorem approval_payload :
    (∀ (user approver : UuidBytes) (target : E2eeDevice),
      H5.approvalPayload (uuidText user) (uuidText approver) target.info =
        some (deviceApprovalPayload user approver target.id target.protocolVersion
          target.credentialFingerprint)) ∧
    Function.Injective fun t : UuidBytes × UuidBytes × UuidBytes × Int16 × List UInt8 =>
      deviceApprovalPayload t.1 t.2.1 t.2.2.1 t.2.2.2.1 t.2.2.2.2 := by
  refine ⟨fun user approver target => ?_, ?_⟩
  · simp only [H5.approvalPayload, H5.deviceApprovalPayload, E2eeDevice.info, uuidBytes_uuidText,
      Base64.decodeText_encodeText, deviceApprovalPayload, uint16_eq, target.requireProtocolVersion]
    rfl
  · rintro ⟨user, approver, target, version, fingerprint⟩
      ⟨user', approver', target', version', fingerprint'⟩ h
    simp only [deviceApprovalPayload, List.append_assoc, List.append_cancel_left_eq] at h
    obtain ⟨huser, h⟩ := List.append_inj h (by simp)
    obtain ⟨happrover, h⟩ := List.append_inj h (by simp)
    obtain ⟨htarget, h⟩ := List.append_inj h (by simp)
    obtain ⟨hversion, h⟩ := List.append_inj h (by simp)
    obtain ⟨-, hfingerprint⟩ := List.append_inj h (by simp)
    have hbytes := congrArg fromBeBytes hversion
    rw [fromBeBytes_toBeBytes version.toUInt16.toNat_lt,
      fromBeBytes_toBeBytes version'.toUInt16.toNat_lt, UInt16.toNat_inj] at hbytes
    cases version
    cases version'
    cases hbytes
    rw [Vector.toList_inj.1 huser, Vector.toList_inj.1 happrover, Vector.toList_inj.1 htarget,
      hfingerprint]

end RedcodeIm.DeviceApproval
