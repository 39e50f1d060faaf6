import RedcodeIm.Groups.Settings

/-!
# Mutes

The mutes of a user in a room and of a whole room.  Both end by the clock, and are lifted by the
first read that finds them run out: a `SELECT`, a look at the clock, and an `UPDATE` that asks
nothing of the row.

* `GroupMuteRecord` — the row of `group_mutes`.
* `mutes` — `mute_user`, `unmute_user`, `find_active_mute`, `set_global_mute_state` and
  `get_group_settings`, by statements.
* `MutesHold` — the mute that was set last is in force until its time is up.
* `mutes_hold` — so it is, where no read lifts a mute that has not run out.
-/

namespace RedcodeIm

open Overlap (Next System Reach Step)

/-! ## The tables -/

/-- A row of `group_mutes`. -/
structure GroupMuteRecord where
  roomId : Uuid
  userId : Uuid
  mutedBy : Uuid
  reason : Option String
  muteDurationHours : ℤ
  mutedAt : Timestamp
  unmutedAt : Option Timestamp
  isActive : Bool
  deriving DecidableEq

/-- The unique constraint of `group_mutes`. -/
def GroupMuteRecord.key (m : GroupMuteRecord) : Uuid × Uuid := (m.roomId, m.userId)

/-- The time of the mute is up; one of no hours has no end. -/
def GroupMuteRecord.ranOut (m : GroupMuteRecord) (now : Timestamp) : Bool :=
  0 < m.muteDurationHours && m.mutedAt + m.muteDurationHours.toNat * 3600 ≤ now

/-- What users have decided, and when. -/
inductive MuteEvent where
  | muted (roomId userId : Uuid) (hours : ℤ) (time : Timestamp)
  | unmuted (roomId userId : Uuid)
  | roomMuted (roomId : Uuid) (minutes : Option ℤ) (time : Timestamp)
  | roomUnmuted (roomId : Uuid)
  deriving DecidableEq

/-- The event is about the user in the room. -/
def MuteEvent.concerns (roomId userId : Uuid) : MuteEvent → Bool
  | .muted r u _ _ | .unmuted r u => r = roomId && u = userId
  | .roomMuted .. | .roomUnmuted _ => false

/-- The event is about the whole room. -/
def MuteEvent.concernsRoom (roomId : Uuid) : MuteEvent → Bool
  | .roomMuted r _ _ | .roomUnmuted r => r = roomId
  | .muted .. | .unmuted .. => false

/-- The tables, and what has been decided, the latest first. -/
structure MuteWorld where
  now : Timestamp
  settings : SettingsTable
  mutes : Table GroupMuteRecord.key
  events : List MuteEvent

namespace MuteWorld

/-- The `SELECT` of `find_active_mute`. -/
def activeMute (w : MuteWorld) (roomId userId : Uuid) : Option GroupMuteRecord :=
  (w.mutes.get (roomId, userId)).filter (·.isActive)

/-- The statement of `mute_user`. -/
def muteUser (w : MuteWorld) (roomId mutedBy userId : Uuid) (reason : Option String)
    (muteDurationHours : Option ℤ) : MuteWorld × GroupMuteRecord :=
  let m :=
    { roomId := roomId
      userId := userId
      mutedBy := mutedBy
      reason := reason
      muteDurationHours := muteDurationHours.getD 24
      mutedAt := w.now
      unmutedAt := none
      isActive := true }
  ({ w with
    mutes := w.mutes.put m
    events := .muted roomId userId m.muteDurationHours w.now :: w.events }, m)

/-- The statement of `unmute_user`: whether there was a mute. -/
def unmuteUser (w : MuteWorld) (roomId userId : Uuid) : MuteWorld × Bool :=
  match w.activeMute roomId userId with
  | some m =>
    ({ w with mutes := w.mutes.put { m with isActive := false, unmutedAt := some w.now } }, true)
  | none => (w, false)

end MuteWorld

/-! ## Calls -/

inductive MuteCall where
  | muteUser (roomId mutedBy userId : Uuid) (reason : Option String) (muteDurationHours : Option ℤ)
  | unmuteUser (roomId userId : Uuid)
  | findActiveMute (roomId userId : Uuid)
  | setGlobalMuteState (roomId setBy : Uuid) (enabled : Bool) (reason : Option String)
      (durationMinutes : Option ℤ)
  | getGroupSettings (roomId : Uuid)
  deriving DecidableEq

inductive FindMuteStage where
  | select
  | judge (m : GroupMuteRecord)
  | unmute
  deriving DecidableEq

inductive SetGlobalMuteStage where
  | ensure
  | update
  deriving DecidableEq

inductive MuteStage where
  | muteUser (roomId mutedBy userId : Uuid) (reason : Option String) (muteDurationHours : Option ℤ)
  | unmuteUser (roomId userId : Uuid)
  | findActiveMute (roomId userId : Uuid) (stage : FindMuteStage)
  | setGlobalMuteState (roomId setBy : Uuid) (enabled : Bool) (reason : Option String)
      (durationMinutes : Option ℤ) (stage : SetGlobalMuteStage)
  | getGroupSettings (roomId : Uuid) (stage : SettingsStage)
  deriving DecidableEq

inductive MuteAnswer where
  | muted (m : GroupMuteRecord)
  | unmuted (found : Bool)
  | activeMute (m : Option GroupMuteRecord)
  | settings (s : Option GroupSettingsRecord)
  | error (e : GroupError)
  deriving DecidableEq

def MuteCall.start : MuteCall → MuteStage
  | .muteUser roomId mutedBy userId reason hours => .muteUser roomId mutedBy userId reason hours
  | .unmuteUser roomId userId => .unmuteUser roomId userId
  | .findActiveMute roomId userId => .findActiveMute roomId userId .select
  | .setGlobalMuteState roomId setBy enabled reason minutes =>
    .setGlobalMuteState roomId setBy enabled reason minutes .ensure
  | .getGroupSettings roomId => .getGroupSettings roomId .select

/-- `find_active_mute`: whoever finds a mute that has run out lifts it. -/
def findActiveMute (w : MuteWorld) (roomId userId : Uuid) :
    FindMuteStage → MuteWorld × Next FindMuteStage (Option GroupMuteRecord)
  | .select =>
    match w.activeMute roomId userId with
    | some m => if 0 < m.muteDurationHours then (w, .goto (.judge m)) else (w, .done (some m))
    | none => (w, .done none)
  | .judge m => if m.ranOut w.now then (w, .goto .unmute) else (w, .done (some m))
  | .unmute => ((w.unmuteUser roomId userId).1, .done none)

/-- What is recorded of a change of the mute of a room. -/
def roomEvent (roomId : Uuid) (enabled : Bool) (minutes : Option ℤ) (now : Timestamp) : MuteEvent :=
  if enabled then .roomMuted roomId minutes now else .roomUnmuted roomId

def setGlobalMuteState (w : MuteWorld) (roomId setBy : Uuid) (enabled : Bool)
    (reason : Option String) (minutes : Option ℤ) :
    SetGlobalMuteStage → MuteWorld × Next SetGlobalMuteStage (Except GroupError GroupSettingsRecord)
  | .ensure =>
    ({ w with settings := w.settings.ensureGroupSettingsRow w.now roomId }, .goto .update)
  | .update =>
    match w.settings.setGlobalMute w.now roomId setBy enabled reason minutes with
    | (settings, .ok s) =>
      ({ w with
        settings := settings
        events := roomEvent roomId enabled minutes w.now :: w.events }, .done (.ok s))
    | (_, .error e) => (w, .done (.error e))

/-- A statement of a call. -/
def muteStatement (w : MuteWorld) : MuteStage → MuteWorld × Next MuteStage MuteAnswer
  | .muteUser roomId mutedBy userId reason hours =>
    let (w', m) := w.muteUser roomId mutedBy userId reason hours
    (w', .done (.muted m))
  | .unmuteUser roomId userId =>
    let (w', found) := w.unmuteUser roomId userId
    ({ w' with events := .unmuted roomId userId :: w'.events }, .done (.unmuted found))
  | .findActiveMute roomId userId stage =>
    match findActiveMute w roomId userId stage with
    | (w', .goto stage') => (w', .goto (.findActiveMute roomId userId stage'))
    | (w', .done m) => (w', .done (.activeMute m))
  | .setGlobalMuteState roomId setBy enabled reason minutes stage =>
    match setGlobalMuteState w roomId setBy enabled reason minutes stage with
    | (w', .goto stage') =>
      (w', .goto (.setGlobalMuteState roomId setBy enabled reason minutes stage'))
    | (w', .done (.ok s)) => (w', .done (.settings (some s)))
    | (w', .done (.error e)) => (w', .done (.error e))
  | .getGroupSettings roomId stage =>
    match w.settings.getGroupSettings w.now roomId stage with
    | (settings, .goto stage') =>
      ({ w with settings := settings }, .goto (.getGroupSettings roomId stage'))
    | (settings, .done (.ok s)) => ({ w with settings := settings }, .done (.settings s))
    | (settings, .done (.error e)) => ({ w with settings := settings }, .done (.error e))

/-- The calls, while seconds go by. -/
def mutes : System MuteWorld MuteCall MuteStage MuteAnswer Unit ℕ where
  start := MuteCall.start
  stmt w _ stage _ := muteStatement w stage
  possible _ _ _ _ := true
  tick w seconds := { w with now := w.now + seconds }

namespace Mutes

abbrev State := Overlap.State MuteWorld MuteCall MuteStage MuteAnswer

abbrev Act := Overlap.Act MuteCall Unit ℕ

/-! ## Mutes in force -/

/-- The user is muted in the room: `find_active_mute` would say so. -/
def isMuted (w : MuteWorld) (roomId userId : Uuid) : Bool :=
  (w.activeMute roomId userId).any fun m => !m.ranOut w.now

/-- The room is muted: `get_group_settings` would say so. -/
def isRoomMuted (w : MuteWorld) (roomId : Uuid) : Bool :=
  (w.settings.get roomId).any fun s => s.globalMuteEnabled && !s.muteRanOut w.now

/-- What was decided last about a user in a room. -/
def lastOf (w : MuteWorld) (roomId userId : Uuid) : Option MuteEvent :=
  w.events.find? (·.concerns roomId userId)

/-- What was decided last about a room. -/
def lastOfRoom (w : MuteWorld) (roomId : Uuid) : Option MuteEvent :=
  w.events.find? (·.concernsRoom roomId)

/-- **Mutes hold.**  Where the last decision about a user or a room was to mute for some time, the
user or the room is muted until that time is up. -/
structure MutesHold (w : MuteWorld) : Prop where
  users : ∀ roomId userId hours time,
    lastOf w roomId userId = some (.muted roomId userId hours time) →
    (0 < hours → w.now < time + hours.toNat * 3600) → isMuted w roomId userId = true
  rooms : ∀ roomId minutes time, lastOfRoom w roomId = some (.roomMuted roomId minutes time) →
    (∀ n, minutes = some n → w.now < time + n.toNat * 60) → isRoomMuted w roomId = true

/-- **The condition**: a read that lifts a mute finds one that has run out. -/
def LiftsRunOut (s : State) (i : ℕ) (_ : Unit) : Prop :=
  (∀ c roomId userId m, s.calls i = some (c, .running (.findActiveMute roomId userId .unmute)) →
    s.world.activeMute roomId userId = some m → m.ranOut s.world.now = true) ∧
  ∀ c roomId r, s.calls i = some (c, .running (.getGroupSettings roomId .clear)) →
    s.world.settings.get roomId = some r → r.globalMuteEnabled = true →
      r.muteRanOut s.world.now = true

/-! ## What the statements keep -/

/-- The mute of a user that was decided last is in the row, and active unless its time is up. -/
def UsersKept (w : MuteWorld) : Prop :=
  ∀ roomId userId hours time, lastOf w roomId userId = some (.muted roomId userId hours time) →
    ∃ m, w.mutes.get (roomId, userId) = some m ∧ m.mutedAt = time ∧ m.muteDurationHours = hours ∧
      (m.isActive = true ∨ m.ranOut w.now = true)

/-- The mute of a room that was decided last is in its settings, unless its time is up. -/
def RoomsKept (w : MuteWorld) : Prop :=
  ∀ roomId minutes time, lastOfRoom w roomId = some (.roomMuted roomId minutes time) →
    ∃ s, w.settings.get roomId = some s ∧
      ((s.globalMuteEnabled = true ∧ s.globalMuteUntil = SettingsTable.globalMuteEnd time minutes) ∨
        ∃ n, minutes = some n ∧ time + n.toNat * 60 ≤ w.now)

section

variable {w w' : MuteWorld} {roomId userId : Uuid}

theorem mutesHold_of_kept (husers : UsersKept w) (hrooms : RoomsKept w) : MutesHold w := by
  refine ⟨fun roomId userId hours time hlast htime => ?_, fun roomId minutes time hlast htime => ?_⟩
  · obtain ⟨m, hm, rfl, rfl, hactive⟩ := husers roomId userId hours time hlast
    have hrun : m.ranOut w.now = false := by
      by_contra hout
      simp only [GroupMuteRecord.ranOut, Bool.not_eq_false, Bool.and_eq_true,
        decide_eq_true_eq] at hout
      exact absurd (htime hout.1) (Nat.not_lt.2 hout.2)
    have hactive := hactive.resolve_right (by rw [hrun]; simp)
    simp [isMuted, MuteWorld.activeMute, hm, hactive, hrun]
  · obtain ⟨s, hs, ⟨henabled, huntil⟩ | ⟨n, rfl, hout⟩⟩ := hrooms roomId minutes time hlast
    · have hrun : s.muteRanOut w.now = false := by
        simp only [GroupSettingsRecord.muteRanOut, henabled, huntil, Bool.true_and]
        cases minutes with
        | none => rfl
        | some n => exact decide_eq_false (Nat.not_le.2 (htime n rfl))
      simp [isRoomMuted, hs, henabled, hrun]
    · exact absurd (htime n rfl) (Nat.not_lt.2 hout)

/-- What is not touched is kept. -/
theorem UsersKept.congr (h : UsersKept w) (hmutes : w'.mutes = w.mutes)
    (hlast : ∀ roomId userId, lastOf w' roomId userId = lastOf w roomId userId)
    (hnow : w'.now = w.now) : UsersKept w' := by
  intro roomId userId hours time hevent
  rw [hlast] at hevent
  rw [hmutes, hnow]
  exact h roomId userId hours time hevent

theorem RoomsKept.congr (h : RoomsKept w) (hsettings : w'.settings = w.settings)
    (hlast : ∀ roomId, lastOfRoom w' roomId = lastOfRoom w roomId) (hnow : w'.now = w.now) :
    RoomsKept w' := by
  intro roomId minutes time hevent
  rw [hlast] at hevent
  rw [hsettings, hnow]
  exact h roomId minutes time hevent

theorem UsersKept.muteUser (h : UsersKept w) (roomId mutedBy userId : Uuid) (reason : Option String)
    (hours : Option ℤ) : UsersKept (w.muteUser roomId mutedBy userId reason hours).1 := by
  intro r u hours' time hevent
  simp only [lastOf, MuteWorld.muteUser, List.find?_cons, MuteEvent.concerns] at hevent
  simp only [MuteWorld.muteUser, Table.get_put]
  by_cases hru : r = roomId ∧ u = userId
  · obtain ⟨rfl, rfl⟩ := hru
    simp only [decide_true, Bool.and_self, Option.some.injEq, MuteEvent.muted.injEq,
      true_and] at hevent
    exact ⟨_, if_pos rfl, hevent.2, hevent.1, .inl rfl⟩
  · have hne : (decide (roomId = r) && decide (userId = u)) = false := by
      by_contra heq
      simp only [Bool.not_eq_false, Bool.and_eq_true, decide_eq_true_eq] at heq
      exact hru ⟨heq.1.symm, heq.2.symm⟩
    rw [hne] at hevent
    obtain ⟨m, hm, hrest⟩ := h r u hours' time hevent
    refine ⟨m, ?_, hrest⟩
    rw [if_neg, hm]
    simp only [GroupMuteRecord.key, Prod.mk.injEq]
    exact fun heq => hru ⟨heq.1.symm, heq.2.symm⟩

/-- A row that another user has in another room is not touched by `unmute_user`. -/
theorem unmuteUser_get {k : Uuid × Uuid} (hk : k ≠ (roomId, userId)) :
    (w.unmuteUser roomId userId).1.mutes.get k = w.mutes.get k := by
  unfold MuteWorld.unmuteUser
  split
  · rename_i m hm
    have hkey : m.key = (roomId, userId) := Table.key_of_get (Option.filter_eq_some_iff.1 hm).1
    refine Table.get_put_ne ?_
    exact fun heq => hk (heq.symm.trans hkey)
  · rfl

variable (w roomId userId) in
theorem unmuteUser_rest : (w.unmuteUser roomId userId).1.settings = w.settings ∧
    (w.unmuteUser roomId userId).1.events = w.events ∧
    (w.unmuteUser roomId userId).1.now = w.now := by
  unfold MuteWorld.unmuteUser
  split <;> exact ⟨rfl, rfl, rfl⟩

/-- `unmute_user` of a mute that has run out. -/
theorem UsersKept.lift (h : UsersKept w)
    (hout : ∀ m, w.activeMute roomId userId = some m → m.ranOut w.now = true) :
    UsersKept (w.unmuteUser roomId userId).1 := by
  obtain ⟨-, hevents, hnow⟩ := unmuteUser_rest w roomId userId
  intro r u hours time hevent
  rw [lastOf, hevents] at hevent
  obtain ⟨m, hm, htime, hhours, hactive⟩ := h r u hours time hevent
  by_cases hk : (r, u) = (roomId, userId)
  · obtain ⟨rfl, rfl⟩ := Prod.mk.inj hk
    by_cases ha : m.isActive = true
    · have hsel : w.activeMute r u = some m := by
        rw [MuteWorld.activeMute, hm, Option.filter_some, if_pos ha]
      have hkey : m.key = (r, u) := Table.key_of_get hm
      simp only [MuteWorld.unmuteUser, hsel]
      refine ⟨{ m with isActive := false, unmutedAt := some w.now }, ?_, htime, hhours,
        .inr (hout m hsel)⟩
      rw [Table.get_put]
      exact if_pos hkey
    · have hsel : w.activeMute r u = none := by
        rw [MuteWorld.activeMute, hm, Option.filter_some, if_neg ha]
      simp only [MuteWorld.unmuteUser, hsel]
      exact ⟨m, hm, htime, hhours, hactive⟩
  · rw [unmuteUser_get hk, hnow]
    exact ⟨m, hm, htime, hhours, hactive⟩

/-- `unmute_user` by a user. -/
theorem UsersKept.unmuteUser (h : UsersKept w) (roomId userId : Uuid) :
    UsersKept { (w.unmuteUser roomId userId).1 with
      events := .unmuted roomId userId :: (w.unmuteUser roomId userId).1.events } := by
  obtain ⟨-, hevents, hnow⟩ := unmuteUser_rest w roomId userId
  intro r u hours time hevent
  simp only [lastOf, List.find?_cons, MuteEvent.concerns] at hevent
  split at hevent
  · cases hevent
  · rename_i hne
    have hk : (r, u) ≠ (roomId, userId) := by
      intro heq
      cases heq
      simp at hne
    rw [hevents] at hevent
    rw [unmuteUser_get hk, hnow]
    exact h r u hours time hevent

theorem RoomsKept.ensure (h : RoomsKept w) (roomId : Uuid) :
    RoomsKept { w with settings := w.settings.ensureGroupSettingsRow w.now roomId } := by
  intro r minutes time hevent
  obtain ⟨s, hs, hrest⟩ := h r minutes time hevent
  exact ⟨s, Table.get_insert_of_get hs, hrest⟩

theorem roomId_of_get {s : GroupSettingsRecord} (h : w.settings.get roomId = some s) :
    s.roomId = roomId := Table.key_of_get h

/-- `set_global_mute_state`. -/
theorem RoomsKept.setGlobalMute (h : RoomsKept w) {roomId setBy : Uuid} {enabled : Bool}
    {reason : Option String} {minutes : Option ℤ} {settings : SettingsTable}
    {s : GroupSettingsRecord}
    (hset :
      w.settings.setGlobalMute w.now roomId setBy enabled reason minutes = (settings, .ok s)) :
    RoomsKept { w with
      settings := settings
      events := roomEvent roomId enabled minutes w.now :: w.events } := by
  unfold SettingsTable.setGlobalMute at hset
  split at hset
  · rename_i old hold
    obtain ⟨rfl, -⟩ := Prod.mk.inj hset
    have hid := roomId_of_get hold
    intro r minutes' time hevent
    rw [Table.get_put]
    by_cases hr : r = roomId
    · subst hr
      rw [if_pos hid]
      cases enabled with
      | true =>
        simp only [lastOfRoom, roomEvent, List.find?_cons, MuteEvent.concernsRoom, decide_true,
          if_true, Option.some.injEq, MuteEvent.roomMuted.injEq, true_and] at hevent
        obtain ⟨rfl, rfl⟩ := hevent
        exact ⟨_, rfl, .inl ⟨rfl, rfl⟩⟩
      | false => simp [lastOfRoom, roomEvent, MuteEvent.concernsRoom] at hevent
    · have hne : (roomEvent roomId enabled minutes w.now).concernsRoom r = false := by
        cases enabled <;> exact decide_eq_false (Ne.symm hr)
      rw [lastOfRoom, List.find?_cons_of_neg (by rw [hne]; simp)] at hevent
      rw [if_neg fun heq => hr (heq.symm.trans hid)]
      exact h r minutes' time hevent
  · cases hset

/-- `clear_global_mute` of a mute that has run out. -/
theorem RoomsKept.clear (h : RoomsKept w) (roomId : Uuid)
    (hout : ∀ s, w.settings.get roomId = some s → s.globalMuteEnabled = true →
      s.muteRanOut w.now = true) :
    RoomsKept { w with settings := (w.settings.clearGlobalMute w.now roomId).1 } := by
  intro r minutes time hevent
  obtain ⟨s, hs, hrest⟩ := h r minutes time hevent
  unfold SettingsTable.clearGlobalMute
  split
  · rename_i old hold
    have hid := roomId_of_get hold
    rw [Table.get_put]
    by_cases hr : r = roomId
    · subst hr
      rw [hold] at hs
      obtain rfl := Option.some.inj hs
      rw [if_pos hid]
      refine ⟨_, rfl, .inr ?_⟩
      rcases hrest with ⟨henabled, huntil⟩ | hrest
      · have hran := hout old hold henabled
        simp only [GroupSettingsRecord.muteRanOut, henabled, huntil, Bool.true_and] at hran
        cases minutes with
        | none => cases hran
        | some n => exact ⟨n, rfl, of_decide_eq_true hran⟩
      · exact hrest
    · rw [if_neg fun heq => hr (heq.symm.trans hid)]
      exact ⟨s, hs, hrest⟩
  · exact ⟨s, hs, hrest⟩

theorem fst_findActiveMute (stage : FindMuteStage) :
    (muteStatement w (.findActiveMute roomId userId stage)).1 =
      (findActiveMute w roomId userId stage).1 := by
  simp only [muteStatement]
  split <;> simp_all only

theorem fst_setGlobalMuteState {setBy : Uuid} {enabled : Bool} {reason : Option String}
    {minutes : Option ℤ} (stage : SetGlobalMuteStage) :
    (muteStatement w (.setGlobalMuteState roomId setBy enabled reason minutes stage)).1 =
      (setGlobalMuteState w roomId setBy enabled reason minutes stage).1 := by
  simp only [muteStatement]
  split <;> simp_all only

theorem fst_getGroupSettings (stage : SettingsStage) :
    (muteStatement w (.getGroupSettings roomId stage)).1 =
      { w with settings := (w.settings.getGroupSettings w.now roomId stage).1 } := by
  simp only [muteStatement]
  split <;> simp_all only

/-- A statement keeps mutes, if it lifts none that has not run out. -/
theorem kept_statement (husers : UsersKept w) (hrooms : RoomsKept w) (stage : MuteStage)
    (hlift : ∀ roomId userId m, stage = .findActiveMute roomId userId .unmute →
      w.activeMute roomId userId = some m → m.ranOut w.now = true)
    (hclear : ∀ roomId r, stage = .getGroupSettings roomId .clear →
      w.settings.get roomId = some r → r.globalMuteEnabled = true → r.muteRanOut w.now = true) :
    UsersKept (muteStatement w stage).1 ∧ RoomsKept (muteStatement w stage).1 := by
  cases stage with
  | muteUser roomId mutedBy userId reason hours =>
    exact ⟨husers.muteUser roomId mutedBy userId reason hours, hrooms.congr rfl (fun _ => rfl) rfl⟩
  | unmuteUser roomId userId =>
    obtain ⟨hsettings, hevents, hnow⟩ := unmuteUser_rest w roomId userId
    refine ⟨husers.unmuteUser roomId userId, hrooms.congr hsettings (fun r => ?_) hnow⟩
    simp only [muteStatement, lastOfRoom, hevents]
    rfl
  | findActiveMute roomId userId stage =>
    rw [fst_findActiveMute]
    cases stage with
    | select =>
      simp only [findActiveMute]
      split
      · split <;> exact ⟨husers, hrooms⟩
      · exact ⟨husers, hrooms⟩
    | judge m =>
      simp only [findActiveMute]
      split <;> exact ⟨husers, hrooms⟩
    | unmute =>
      obtain ⟨hsettings, hevents, hnow⟩ := unmuteUser_rest w roomId userId
      refine ⟨husers.lift fun m => hlift roomId userId m rfl,
        hrooms.congr hsettings (fun r => ?_) hnow⟩
      simp only [findActiveMute, lastOfRoom, hevents]
  | setGlobalMuteState roomId setBy enabled reason minutes stage =>
    rw [fst_setGlobalMuteState]
    cases stage with
    | ensure => exact ⟨husers.congr rfl (fun _ _ => rfl) rfl, hrooms.ensure roomId⟩
    | update =>
      simp only [setGlobalMuteState]
      split
      · rename_i settings row hset
        refine ⟨husers.congr rfl (fun r u => ?_) rfl, hrooms.setGlobalMute hset⟩
        cases enabled <;> rfl
      · exact ⟨husers, hrooms⟩
  | getGroupSettings roomId stage =>
    rw [fst_getGroupSettings]
    refine ⟨husers.congr rfl (fun _ _ => rfl) rfl, ?_⟩
    cases stage with
    | select =>
      simp only [SettingsTable.getGroupSettings]
      split
      · split <;> exact hrooms
      · exact hrooms
    | judge row =>
      simp only [SettingsTable.getGroupSettings]
      split <;> exact hrooms
    | clear =>
      have hkept := hrooms.clear roomId fun r => hclear roomId r rfl
      simp only [SettingsTable.getGroupSettings]
      split <;> simp_all only

theorem kept_tick (husers : UsersKept w) (hrooms : RoomsKept w) (seconds : ℕ) :
    UsersKept { w with now := w.now + seconds } ∧ RoomsKept { w with now := w.now + seconds } := by
  refine ⟨fun r u hours time hevent => ?_, fun r minutes time hevent => ?_⟩
  · obtain ⟨m, hm, htime, hhours, hactive⟩ := husers r u hours time hevent
    refine ⟨m, hm, htime, hhours, hactive.imp_right fun hout => ?_⟩
    simp only [GroupMuteRecord.ranOut, Bool.and_eq_true, decide_eq_true_eq] at hout ⊢
    exact ⟨hout.1, hout.2.trans (Nat.le_add_right ..)⟩
  · obtain ⟨s, hs, hrest⟩ := hrooms r minutes time hevent
    refine ⟨s, hs, hrest.imp_right ?_⟩
    rintro ⟨n, rfl, hout⟩
    exact ⟨n, rfl, hout.trans (Nat.le_add_right ..)⟩

/-- **Mutes hold.**  Where no read lifts a mute that has not run out, the mute that was decided last
is in force until its time is up. -/
theorem mutes_hold {s : State} (hw : w.events = []) (h : Reach mutes LiftsRunOut (.idle w) s) :
    MutesHold s.world := by
  have hkept : UsersKept s.world ∧ RoomsKept s.world := by
    refine h.invariant (I := fun s => UsersKept s.world ∧ RoomsKept s.world)
      (fun s s' hkept hstep => ?_)
      ⟨fun r u hours time hevent => ?_, fun r minutes time hevent => ?_⟩
    · obtain ⟨husers, hrooms⟩ := hkept
      cases hstep with
      | start | drop => exact ⟨husers, hrooms⟩
      | run hcall _ hG | lose hcall _ hG =>
        refine kept_statement husers hrooms _ (fun r u m hst => ?_) fun r row hst => ?_
        · exact hG.1 _ r u m (hst ▸ hcall)
        · exact hG.2 _ r row (hst ▸ hcall)
      | tick seconds => exact kept_tick husers hrooms seconds
    · rw [lastOf, show (Overlap.State.idle w : State).world = w from rfl, hw] at hevent
      cases hevent
    · rw [lastOfRoom, show (Overlap.State.idle w : State).world = w from rfl, hw] at hevent
      cases hevent
  exact mutesHold_of_kept hkept.1 hkept.2

end

/-! ## A mute that a late read lifts -/

/-- Nobody has been muted. -/
def sampleWorld : MuteWorld where
  now := 1000
  settings := Table.empty
  mutes := Table.empty
  events := []

/-- A mute of a day, and a day later a read that finds it run out. -/
def expiredRead : List Act :=
  [.start 0 (.muteUser 10 1 2 none none), .run 0 (), .tick 86400,
    .start 1 (.findActiveMute 10 2), .run 1 (), .run 1 ()]

/-- The user is muted again before the read lifts the old mute. -/
def lateLift : List Act :=
  expiredRead ++ [.start 2 (.muteUser 10 1 2 none none), .run 2 (), .run 1 ()]

/-- The user is muted again after the read has lifted the old mute. -/
def timelyLift : List Act :=
  expiredRead ++ [.run 1 (), .start 2 (.muteUser 10 1 2 none none), .run 2 ()]

/-- Without the condition, the read of a mute that has run out lifts the one that came after it. -/
theorem fresh_mute_lifted :
    ¬ ∀ (w : MuteWorld) (s : State), w.events = [] →
      Reach mutes (fun _ _ _ => True) (.idle w) s → MutesHold s.world := by
  intro h
  have hrun : (Overlap.perform mutes (fun _ _ _ => true) lateLift (.idle sampleWorld)).map
      (fun s => (s.world.now, lastOf s.world 10 2, isMuted s.world 10 2)) =
        some (87400, some (.muted 10 2 24 87400), false) := by
    decide +kernel
  obtain ⟨s, hs, hfacts⟩ := Option.map_eq_some_iff.1 hrun
  simp only [Prod.mk.injEq] at hfacts
  obtain ⟨hnow, hlast, hmuted⟩ := hfacts
  have hhold := h sampleWorld s rfl (Reach.of_perform (fun _ _ _ _ => trivial) hs)
  have hin := hhold.users 10 2 24 87400 hlast fun _ => by
    rw [hnow]
    decide
  rw [hmuted] at hin
  cases hin

/-- The condition, decided. -/
def liftsRunOut (s : State) (i : ℕ) (_ : Unit) : Bool :=
  match s.calls i with
  | some (_, .running (.findActiveMute roomId userId .unmute)) =>
    (s.world.activeMute roomId userId).all (·.ranOut s.world.now)
  | some (_, .running (.getGroupSettings roomId .clear)) =>
    (s.world.settings.get roomId).all fun r => !r.globalMuteEnabled || r.muteRanOut s.world.now
  | _ => true

theorem liftsRunOut_of_check {s : State} {i : ℕ} {x : Unit} (h : liftsRunOut s i x = true) :
    LiftsRunOut s i x := by
  refine ⟨fun c roomId userId m hi hm => ?_, fun c roomId r hi hr henabled => ?_⟩
  · simpa only [liftsRunOut, hi, hm, Option.all_some] using h
  · simpa only [liftsRunOut, hi, hr, Option.all_some, henabled, Bool.not_true,
      Bool.false_or] using h

/-- A mute that has run out is lifted, and the one that comes after it holds. -/
theorem mutes_hold_sample :
    ∃ s, Overlap.perform mutes liftsRunOut timelyLift (.idle sampleWorld) = some s ∧
      lastOf s.world 10 2 = some (.muted 10 2 24 87400) ∧ isMuted s.world 10 2 = true ∧
        MutesHold s.world := by
  have hrun : (Overlap.perform mutes liftsRunOut timelyLift (.idle sampleWorld)).map
      (fun s => (lastOf s.world 10 2, isMuted s.world 10 2)) =
        some (some (.muted 10 2 24 87400), true) := by
    decide +kernel
  obtain ⟨s, hs, hfacts⟩ := Option.map_eq_some_iff.1 hrun
  obtain ⟨hlast, hmuted⟩ := Prod.mk.inj hfacts
  exact ⟨s, hs, hlast, hmuted,
    mutes_hold rfl (Reach.of_perform (fun _ _ _ h => liftsRunOut_of_check h) hs)⟩

end Mutes

end RedcodeIm
