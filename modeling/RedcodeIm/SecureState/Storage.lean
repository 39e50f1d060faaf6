import RedcodeIm.Lib.Machine
import RedcodeIm.Lib.Text

/-!
# Encrypted local state

What a device keeps for end-to-end encryption is sealed with AES-GCM under a wrapping key of the
account.  The key is made by the first write that finds none, and it is erased with the account.
Every `await` lets other calls run, so that a call is a row of single accesses to the stores.

* `StoredEncryptedState` — a sealed record; it opens under its own key and associated data only.
* `Layout` — what a client checks, what it binds a record to, and what a delete erases.
* `SecureStateStore.act` — the calls, access by access.
* `E2eeSecureStateStorage`, `E2eeSecureStateStore` — the storages of the H5 and the iOS client.

Accounts are the ids of users; they have no blanks at their ends, and the name of a record tells
the account and the slot.  What is asked of the stores succeeds.
-/

namespace RedcodeIm.SecureState

/-- A record as it is stored.  The key is known by a number; no two keys that were made have the
same. -/
structure StoredEncryptedState (Aad Data : Type) where
  version : ℕ
  wrappingKey : ℕ
  aad : Aad
  plaintext : Data
  deriving DecidableEq

def stateVersion : ℕ := 1

/-- What opens under a key and associated data. -/
def StoredEncryptedState.decrypt {Aad Data : Type} [DecidableEq Aad]
    (record : StoredEncryptedState Aad Data) (wrappingKey : ℕ) (aad : Aad) : Option Data :=
  if record.version = stateVersion ∧ record.wrappingKey = wrappingKey ∧ record.aad = aad then
    some record.plaintext
  else none

/-- What is erased in one access. -/
inductive Erasure (Slot : Type) where
  | wrappingKey
  | records (named : Slot → Bool)

def Erasure.hasRecord {Slot : Type} (slot : Slot) : Erasure Slot → Bool
  | .wrappingKey => false
  | .records named => named slot

def Erasure.hasKey {Slot : Type} : Erasure Slot → Bool
  | .wrappingKey => true
  | .records _ => false

/-- How a client keeps its records. -/
structure Layout (Account Slot Aad Data : Type) where
  aad : Account → Slot → Aad
  /-- What a write lets through. -/
  accepts : Slot → Data → Bool
  /-- What a read takes for sound. -/
  decodes : Slot → Data → Bool
  /-- What a delete of an account erases. -/
  erasures : List (Erasure Slot)
  /-- Whether the accesses of a delete are all begun at once; else each waits for the one
  before. -/
  atOnce : Bool
  erases_key : (erasures.countP fun e => e.hasKey) = 1
  erases_record : ∀ slot, ∃ e ∈ erasures, e.hasRecord slot = true

inductive StateCall (Account Slot Data : Type) where
  | write (account : Account) (slot : Slot) (data : Data)
  | read (account : Account) (slot : Slot)
  | deleteRecord (account : Account) (slot : Slot)
  | delete (account : Account)

def StateCall.account {Account Slot Data : Type} : StateCall Account Slot Data → Account
  | .write account _ _ => account
  | .read account _ => account
  | .deleteRecord account _ => account
  | .delete account => account

inductive StateAnswer (Data : Type) where
  | written
  | refused
  | value (data : Option Data)
  | corrupted
  | erased
  deriving DecidableEq

/-- What a call asks for next. -/
inductive StateStage (Slot Aad Data : Type) where
  /-- A write looks for the wrapping key, -/
  | findKey
  /-- has made one that is to be stored, -/
  | storeKey (wrappingKey : ℕ)
  /-- and has sealed its record. -/
  | storeRecord (record : StoredEncryptedState Aad Data)
  /-- A read looks for the record, -/
  | findRecord
  /-- and then for its key. -/
  | findKeyOf (record : StoredEncryptedState Aad Data)
  | erase (rest : List (Erasure Slot))
  /-- The call has ended, after that many changes. -/
  | answered (answer : StateAnswer Data) (time : ℕ)

/-- A call, and how many changes there had been when it was made. -/
structure StateCallState (Account Slot Aad Data : Type) where
  call : StateCall Account Slot Data
  stage : StateStage Slot Aad Data
  began : ℕ

/-- A change of what is stored. -/
inductive Change (Account Slot Data : Type) where
  | keyStored (account : Account)
  | recordStored (account : Account) (slot : Slot) (data : Data)
  | erased (account : Account) (erasure : Erasure Slot)

structure SecureStateStore (Account Slot Aad Data : Type) where
  wrappingKeys : Account → Option ℕ
  records : Account → Slot → Option (StoredEncryptedState Aad Data)
  /-- How many keys were made. -/
  generated : ℕ
  calls : List (StateCallState Account Slot Aad Data)
  /-- All changes so far, of which nothing depends. -/
  changes : List (Change Account Slot Data)

inductive StateAct (Account Slot Data : Type) where
  | start (call : StateCall Account Slot Data)
  | resume (i : ℕ)
  /-- A delete erases the first, the second, ... of what it has yet to erase. -/
  | erase (i n : ℕ)

section

variable {Account Slot Aad Data : Type}

namespace SecureStateStore

def empty : SecureStateStore Account Slot Aad Data :=
  { wrappingKeys := fun _ => none, records := fun _ _ => none, generated := 0, calls := [],
    changes := [] }

variable (S : SecureStateStore Account Slot Aad Data)

def setStage (i : ℕ) (stage : StateStage Slot Aad Data) : SecureStateStore Account Slot Aad Data :=
  { S with calls := S.calls.modify i fun c => { c with stage } }

def answer (i : ℕ) (answer : StateAnswer Data) : SecureStateStore Account Slot Aad Data :=
  S.setStage i (.answered answer S.changes.length)

variable [DecidableEq Account] [DecidableEq Slot]

def putKey (account : Account) (wrappingKey : ℕ) : SecureStateStore Account Slot Aad Data :=
  { S with
    wrappingKeys := fun a => if a = account then some wrappingKey else S.wrappingKeys a
    changes := S.changes ++ [.keyStored account] }

def putRecord (account : Account) (slot : Slot) (record : StoredEncryptedState Aad Data) :
    SecureStateStore Account Slot Aad Data :=
  { S with
    records := fun a s => if a = account ∧ s = slot then some record else S.records a s
    changes := S.changes ++ [.recordStored account slot record.plaintext] }

def remove (account : Account) (erasure : Erasure Slot) : SecureStateStore Account Slot Aad Data :=
  { S with
    wrappingKeys := fun a => if a = account ∧ erasure.hasKey then none else S.wrappingKeys a
    records := fun a s => if a = account ∧ erasure.hasRecord s then none else S.records a s
    changes := S.changes ++ [.erased account erasure] }

end SecureStateStore

namespace Layout

variable (L : Layout Account Slot Aad Data)

/-- What a call asks for first. -/
def firstStage [DecidableEq Slot] (time : ℕ) : StateCall Account Slot Data →
    StateStage Slot Aad Data
  | .write _ slot data => if L.accepts slot data then .findKey else .answered .refused time
  | .read _ _ => .findRecord
  | .deleteRecord _ slot => .erase [.records fun s => decide (s = slot)]
  | .delete _ => .erase L.erasures

def encrypt (account : Account) (slot : Slot) (data : Data) (wrappingKey : ℕ) :
    StoredEncryptedState Aad Data :=
  { version := stateVersion, wrappingKey, aad := L.aad account slot, plaintext := data }

/-- What a read answers once it has looked for the key. -/
def opened [DecidableEq Aad] (account : Account) (slot : Slot)
    (record : StoredEncryptedState Aad Data) : Option ℕ → StateAnswer Data
  | some wrappingKey =>
    match record.decrypt wrappingKey (L.aad account slot) with
    | some data => if L.decodes slot data then .value (some data) else .corrupted
    | none => .corrupted
  | none => .corrupted

end Layout

namespace SecureStateStore

variable [DecidableEq Account] [DecidableEq Slot] [DecidableEq Aad]
variable (L : Layout Account Slot Aad Data) (S : SecureStateStore Account Slot Aad Data)

def start (call : StateCall Account Slot Data) : SecureStateStore Account Slot Aad Data :=
  { S with
    calls := S.calls ++
      [{ call, stage := L.firstStage S.changes.length call, began := S.changes.length }] }

/-- What a call was waiting for is there, and it goes on to the next access. -/
def resume (i : ℕ) : Option (SecureStateStore Account Slot Aad Data) :=
  match S.calls[i]? with
  | some { call := .write account slot data, stage := .findKey, .. } =>
    match S.wrappingKeys account with
    | some wrappingKey =>
      some (S.setStage i (.storeRecord (L.encrypt account slot data wrappingKey)))
    | none =>
      some ({ S with generated := S.generated + 1 }.setStage i (.storeKey S.generated))
  | some { call := .write account slot data, stage := .storeKey wrappingKey, .. } =>
    some ((S.putKey account wrappingKey).setStage i
      (.storeRecord (L.encrypt account slot data wrappingKey)))
  | some { call := .write account slot _, stage := .storeRecord record, .. } =>
    some ((S.putRecord account slot record).answer i .written)
  | some { call := .read account slot, stage := .findRecord, .. } =>
    match S.records account slot with
    | none => some (S.answer i (.value none))
    | some record => some (S.setStage i (.findKeyOf record))
  | some { call := .read account slot, stage := .findKeyOf record, .. } =>
    some (S.answer i (L.opened account slot record (S.wrappingKeys account)))
  | _ => none

/-- One access of a delete. -/
def eraseNext (i n : ℕ) : Option (SecureStateStore Account Slot Aad Data) :=
  match S.calls[i]? with
  | some { call, stage := .erase rest, .. } =>
    match rest[n]? with
    | some erasure =>
      if L.atOnce ∨ n = 0 then
        if (rest.eraseIdx n).isEmpty then some ((S.remove call.account erasure).answer i .erased)
        else some ((S.remove call.account erasure).setStage i (.erase (rest.eraseIdx n)))
      else none
    | none => none
  | _ => none

def act : StateAct Account Slot Data → Option (SecureStateStore Account Slot Aad Data)
  | .start call => some (S.start L call)
  | .resume i => S.resume L i
  | .erase i n => S.eraseNext L i n

end SecureStateStore

end

/-! ## The H5 client -/

/-- What H5 keeps of an account, each under the account's name and a suffix of its own. -/
inductive H5Slot where
  | state
  | trust
  | profile
  | operation
  deriving DecidableEq

def H5Slot.suffix : H5Slot → String
  | .state => ""
  | .trust => ":identity-trust"
  | .profile => ":device-profile"
  | .operation => ":pending-operation"

def H5Slot.aadPrefix : H5Slot → String
  | .state => "redcode-im/e2ee-state/v1\x00"
  | .trust => "redcode-im/e2ee-identity-trust/v1\x00"
  | .profile => "redcode-im/e2ee-device-profile/v1\x00"
  | .operation => "redcode-im/e2ee-pending-operation/v1\x00"

/-- `E2eeSecureStateStorage`: the protocol state is validated before it is written and after it is
read; the rest is decoded when it is read.  All erasures of a delete are begun together. -/
def E2eeSecureStateStorage (Account : Type) {Data : Type} (validateProtocolState : Data → Bool)
    (decodes : H5Slot → Data → Bool) : Layout Account H5Slot (String × Account) Data where
  aad account slot := (slot.aadPrefix, account)
  accepts slot data := slot != .state || validateProtocolState data
  decodes slot data := if slot = .state then validateProtocolState data else decodes slot data
  erasures := [.wrappingKey, .records (· = .state), .records (· = .trust),
    .records (· = .profile), .records (· = .operation)]
  atOnce := true
  erases_key := rfl
  erases_record slot := ⟨.records (· = slot), by cases slot <;> simp, decide_eq_true rfl⟩

/-! ## The iOS client -/

/-- What iOS keeps of an account: the protocol state, and other records by their keys. -/
inductive IosSlot where
  | state
  | profile
  | metadata (key : String)
  deriving DecidableEq

def IosSlot.aadPrefix : IosSlot → String
  | .state => "redcode-im/e2ee-state/v1\x00"
  | .profile => "redcode-im/e2ee-device-profile/v1\x00"
  | .metadata _ => "redcode-im/e2ee-metadata/v1\x00"

/-- What stands behind the account in the associated data. -/
def IosSlot.aadKey : IosSlot → Option String
  | .metadata key => some (Text.trim key)
  | _ => none

/-- `E2eeSecureStateStore` over `CryptoKitE2eeStateCipher`: the protocol state and the profile are
checked before they are written and after they are read, metadata only has to have a key.  A delete
erases the key, then the state, then all the other records. -/
def E2eeSecureStateStore (Account : Type) {Data : Type}
    (validateProtocolState validate : Data → Bool) :
    Layout Account IosSlot (String × Account × Option String) Data where
  aad account slot := (slot.aadPrefix, account, slot.aadKey)
  accepts slot data :=
    match slot with
    | .state => validateProtocolState data
    | .profile => validate data
    | .metadata key => key != ""
  decodes slot data :=
    match slot with
    | .state => validateProtocolState data
    | .profile => validate data
    | .metadata _ => true
  erasures := [.wrappingKey, .records (· = .state), .records (· ≠ .state)]
  atOnce := false
  erases_key := rfl
  erases_record slot := by cases slot <;> simp [Erasure.hasRecord]

end RedcodeIm.SecureState
