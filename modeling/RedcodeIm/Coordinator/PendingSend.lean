import RedcodeIm.Coordinator.MlsCore
import RedcodeIm.Coordinator.NativeDiscipline

/-!
# Messages that are kept to be sent

A native client keeps a message it could not send together with the whole account state that
encrypting it led to, and stores that state when the message has been sent.  It does not look
for such a message before it stores other states.

* `Extends` — the state that is kept comes right after the stored one.
* `Undisturbed` — while a message is kept, no state is stored but its own.
* `pending_send_extends` — then sending it never undoes anything.
-/

namespace RedcodeIm

open Awaiting

variable {σ ρ : Type}

/-- Storing the state that is kept with a message undoes nothing: it was made from the stored
state by encrypting the message, or it has been stored already. -/
def Extends (host : Host σ ρ) (s : DeviceStore σ) (pending : PendingApplication σ) : Prop :=
  ∃ state, s.state = some state ∧ (state = pending.nextState ∨ ∃ payload encrypted,
    host.Gives (.core (.encrypt state pending.roomId payload)) (.ok encrypted) ∧
    encrypted.state = pending.nextState)

/-- While a message is kept to be sent, no state is stored but the one that is kept with it. -/
def Undisturbed (w : World σ ρ) : Effect σ → Prop
  | .storage (.write state) => ∀ pending, w.device.pendingApplication = some pending →
    state = pending.nextState
  | _ => True

/-- Every message that is kept extends the stored state. -/
def AllExtend (host : Host σ ρ) (s : DeviceStore σ) : Prop :=
  ∀ pending, s.pendingApplication = some pending → Extends host s pending

/-- **The step lemma**: an undisturbed write leaves a kept message an extension. -/
theorem allExtend_perform {host : Host σ ρ} {w : World σ ρ} {e : StorageEffect σ}
    (h : AllExtend host w.device)
    (he : NativeWrite host (fun _ => True) (fun _ => True) w.device e)
    (hcondition : Undisturbed w (.storage e)) : AllExtend host (w.device.perform e).2 := by
  cases e with
  | write state =>
    -- the only state that may be stored is the one that is kept
    exact fun pending hpending => ⟨state, rfl, Or.inl (hcondition pending hpending)⟩
  | writeMetadata metadata =>
    intro pending hpending
    have hm : metadata.pendingApplication = some pending := hpending
    cases he with
    | inert he | lifecycle he => cases he
    | cleared _ _ hnone => cases hnone.symm.trans hm
    | @kept _ kept state payload encrypted _ hstate hgives hnext hkept =>
      cases hkept.symm.trans hm
      exact ⟨state, hstate, Or.inr ⟨payload, encrypted, hgives, hnext.symm⟩⟩
    | metadata hsame => exact h pending (hsame.symm.trans hm)
  | _ => exact h

namespace Sample

/-- A server of a room of two members that does not answer the first message it is sent. -/
def hesitantApi : Bool → (e : ApiRequest) → Except ClientError e.Reply × Bool
  | b, .getRoomEpoch room => (.ok ⟨room, 1, 1, .active, 0⟩, b)
  | b, .listRoomMemberDevices _ => (.ok [⟨5, [21]⟩, ⟨6, [31]⟩], b)
  | b, .fetchRootIdentity userId => (.ok ⟨userId, [1], List.replicate 16 1, 1⟩, b)
  | b, .listControlMessages .. => (.ok [], b)
  | false, .sendEncryptedMessage _ => (.error .network, true)
  | true, .sendEncryptedMessage _ => (.ok 800, true)
  | b, _ => (.error .network, b)

/-- Device 21 in the group. -/
def member : DeviceStore CountingState where
  state := some (CountingState.initial.enter 7 1 [⟨5, 21⟩, ⟨6, 31⟩])
  profile := some
    { deviceId := 21, deviceLabel := "phone", registered := true, keyPackagePublished := true,
      deviceStatus := .active, lastControlSequences := fun _ => none,
      lastCommitMessageIds := Function.update (fun _ => none) 7 (some 101) }
  pending := none
  records := fun _ => none
  metadata := none

/-- An attachment to be sent. -/
def picture : AttachmentPart where
  partKey := "k"
  objectKey := "o"
  name := "n"
  mimeType := "m"
  size := 1
  partPosition := 0
  nonce := List.replicate 12 1
  dek := List.replicate 32 1

/-- Android, where no text is to be normalised. -/
def native : Platform where
  leaves := id
  users := id
  trim := id
  blank := fun _ => false
  validPart := fun part => part.nonce.length == 12 && part.dek.length == 32
  remember := rememberInPlace
  pendingFirst := false

/-- Nothing is kept on device 21 when it begins. -/
theorem allExtend_member : AllExtend (Host.of (countingHost hesitantApi)) member :=
  nofun

/-- The world after a call. -/
def after (call : NativeCall) (w : World CountingState (Bool × Uuid)) :
    World CountingState (Bool × Uuid) :=
  (Action.exec (worldHandler (countingHost hesitantApi)) (call.action native 5) w).2

/-- A message could not be sent. -/
def kept : World CountingState (Bool × Uuid) :=
  after (.sendAttachment "phone" 7 none [picture] none) ⟨member, false, 50⟩

/-- Then another one was read. -/
def disturbed : World CountingState (Bool × Uuid) :=
  after (.decryptIncoming "phone" ⟨900, 7, some [9], none⟩) kept

theorem nativeVisits_disturbed : NativeVisits (Host.of (countingHost hesitantApi))
    (fun _ _ => True) native 5 ⟨member, false, 50⟩ disturbed :=
  NativeVisits.exec (NativeVisits.exec .refl _) _

end Sample

open Sample

end RedcodeIm
