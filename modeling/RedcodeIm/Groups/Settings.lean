import RedcodeIm.Groups.Tables
import RedcodeIm.Lib.Overlap

/-!
# The settings of a room

The rows of `group_settings` and the statements of `group_management_store.rs` that read and write
them.  A mute of the whole room is part of its settings; it is lifted by whoever reads the settings
after it has run out.

* `GroupSettingsRecord` — the row.
* `ensureGroupSettingsRow`, `getOrCreateGroupSettings`, `clearGlobalMute`, `setGlobalMute` — the
  statements.
* `SettingsTable.getGroupSettings` — `get_group_settings`, by stages.
-/

namespace RedcodeIm

open Overlap (Next)

/-- The errors of the handlers. -/
inductive GroupError where
  | validationError (message : String)
  | forbidden (message : String)
  | notFound (message : String)
  | databaseError
  deriving DecidableEq

/-- A row of `group_settings`. -/
structure GroupSettingsRecord where
  roomId : Uuid
  joinApprovalRequired : Bool
  memberCanInvite : Bool
  memberCanAddFriends : Bool
  requireAdminToAddFriends : Bool
  maxMembers : ℤ
  globalMuteEnabled : Bool
  globalMuteUntil : Option Timestamp
  globalMuteReason : Option String
  globalMuteSetBy : Option Uuid
  createdAt : Timestamp
  updatedAt : Timestamp
  deriving DecidableEq

abbrev SettingsTable : Type := Table GroupSettingsRecord.roomId

/-- The row that `INSERT INTO group_settings (room_id)` makes. -/
def GroupSettingsRecord.default (roomId : Uuid) (now : Timestamp) : GroupSettingsRecord where
  roomId := roomId
  joinApprovalRequired := false
  memberCanInvite := true
  memberCanAddFriends := true
  requireAdminToAddFriends := false
  maxMembers := 500
  globalMuteEnabled := false
  globalMuteUntil := none
  globalMuteReason := none
  globalMuteSetBy := none
  createdAt := now
  updatedAt := now

/-- The settings say that the room is muted, and the time is up. -/
def GroupSettingsRecord.muteRanOut (s : GroupSettingsRecord) (now : Timestamp) : Bool :=
  s.globalMuteEnabled && s.globalMuteUntil.any (· ≤ now)

namespace SettingsTable

/-- `ensure_group_settings_row`. -/
def ensureGroupSettingsRow (t : SettingsTable) (now : Timestamp) (roomId : Uuid) : SettingsTable :=
  t.insert (.default roomId now)

/-- `get_or_create_group_settings`. -/
def getOrCreateGroupSettings (t : SettingsTable) (now : Timestamp) (roomId : Uuid) :
    SettingsTable × GroupSettingsRecord :=
  match t.get roomId with
  | some s => (t, s)
  | none => (t.ensureGroupSettingsRow now roomId, .default roomId now)

/-- A room that is not muted. -/
def clearGlobalMute (t : SettingsTable) (now : Timestamp) (roomId : Uuid) :
    SettingsTable × Except GroupError GroupSettingsRecord :=
  match t.get roomId with
  | some s =>
    let s' :=
      { s with
        globalMuteEnabled := false
        globalMuteReason := none
        globalMuteSetBy := none
        globalMuteUntil := none
        updatedAt := now }
    (t.put s', .ok s')
  | none => (t, .error .databaseError)

/-- When a mute of some minutes from now on ends: it does not, if no minutes are given. -/
def globalMuteEnd (now : Timestamp) (durationMinutes : Option ℤ) : Option Timestamp :=
  durationMinutes.map fun minutes => now + minutes.toNat * 60

/-- The `UPDATE` of `set_global_mute_state`. -/
def setGlobalMute (t : SettingsTable) (now : Timestamp) (roomId setBy : Uuid) (enabled : Bool)
    (reason : Option String) (durationMinutes : Option ℤ) :
    SettingsTable × Except GroupError GroupSettingsRecord :=
  match t.get roomId with
  | some s =>
    let s' :=
      { s with
        globalMuteEnabled := enabled
        globalMuteReason := if enabled then reason else none
        globalMuteSetBy := if enabled then some setBy else none
        globalMuteUntil := if enabled then globalMuteEnd now durationMinutes else none
        updatedAt := now }
    (t.put s', .ok s')
  | none => (t, .error .databaseError)

end SettingsTable

inductive SettingsStage where
  | select
  | judge (s : GroupSettingsRecord)
  | clear
  deriving DecidableEq

/-- `get_group_settings`: whoever finds a mute that has run out lifts it. -/
def SettingsTable.getGroupSettings (t : SettingsTable) (now : Timestamp) (roomId : Uuid) :
    SettingsStage →
      SettingsTable × Next SettingsStage (Except GroupError (Option GroupSettingsRecord))
  | .select =>
    match t.get roomId with
    | some s => if s.globalMuteEnabled then (t, .goto (.judge s)) else (t, .done (.ok (some s)))
    | none => (t, .done (.ok none))
  | .judge s => if s.muteRanOut now then (t, .goto .clear) else (t, .done (.ok (some s)))
  | .clear =>
    match t.clearGlobalMute now roomId with
    | (t', .ok s) => (t', .done (.ok (some s)))
    | (t', .error e) => (t', .done (.error e))

end RedcodeIm
