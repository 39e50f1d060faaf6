import RedcodeIm.Database.Uuids
import RedcodeIm.Groups.Joining

/-!
# The capacity of a room

`add_group_members` counts the members of a room before it adds any; the other two ways into a room
do not ask how many there are.

* `joinsRoom` — the statements by which a user becomes a member.
* `RoomLeft` — the condition: nobody has joined since the count, or there is room for one more.
* `capacity_respected` — no join takes the members of a room beyond the largest number of them.
-/

namespace RedcodeIm

open Overlap (Next Each Reach Step)
open SettingsTable
open Table

namespace Joining

abbrev State := Overlap.State JoinWorld JoinCall JoinStage JoinAnswer

abbrev Status := Overlap.Status JoinStage JoinAnswer

abbrev Condition := Overlap.Condition JoinWorld JoinCall JoinStage JoinAnswer Uuid

abbrev Act := Overlap.Act JoinCall Uuid JoinTick

/-- The room that is joined, the user, and the stage of `add_member`. -/
def joinsRoom : JoinStage → Option (Uuid × Uuid × AddMemberStage)
  | .addGroupMembers _ roomId _ (.add _ userId _ _ _ stage) => some (roomId, userId, stage)
  | .respondToInvitation userId _ _ _ (.addMember roomId stage) => some (roomId, userId, stage)
  | .joinRoom userId roomId (.addMember stage) => some (roomId, userId, stage)
  | _ => none

/-- There is room for the user: for one of those that are added to a room, nobody else has joined
since the members were counted; for any other, there are fewer members than there may be. -/
def hasRoom (w : JoinWorld) (roomId : Uuid) : JoinStage → Bool
  | .addGroupMembers _ _ _ (.add currentCount _ _ added _ _) =>
    w.rooms.activeCount roomId ≤ currentCount + added.length
  | _ => (w.rooms.activeCount roomId : ℤ) < w.maxMembers roomId

/-- **The condition**: where a statement makes a member of a user who is none, there is room. -/
def RoomLeft (s : State) (i : ℕ) (_ : Uuid) : Prop :=
  ∀ c stage roomId userId add, s.calls i = some (c, .running stage) →
    joinsRoom stage = some (roomId, userId, add) →
      add.joins s.world.rooms.members roomId userId = true → hasRoom s.world roomId stage = true

/-- In the runs whose statements meet a condition, no step that adds to the members of a room takes
them beyond the largest number of them. -/
def CapacityRespected (parseUuid : String → Except String Uuid) (G : Condition) (w : JoinWorld) :
    Prop :=
  ∀ s s' roomId, Reach (joining parseUuid) G (.idle w) s → Step (joining parseUuid) G s s' →
    s.world.rooms.activeCount roomId < s'.world.rooms.activeCount roomId →
      (s'.world.rooms.activeCount roomId : ℤ) ≤ s'.world.maxMembers roomId

/-! ## What a statement does to the members and the settings -/

/-- What a call that adds members goes by: the largest number that there may be, and a count that
leaves room for all that it has before it. -/
def Counted (w : JoinWorld) : Status → Prop
  | .running (.addGroupMembers _ roomId _ (.count _ maxMembers)) => maxMembers = w.maxMembers roomId
  | .running (.addGroupMembers _ roomId _ (.next currentCount targets added skipped)) =>
    (currentCount + added.length + skipped.length + targets.length : ℤ) ≤ w.maxMembers roomId
  | .running (.addGroupMembers _ roomId _ (.add currentCount _ targets added skipped _)) =>
    (currentCount + added.length + skipped.length + targets.length + 1 : ℤ) ≤ w.maxMembers roomId
  | _ => True

section

variable {parseUuid : String → Except String Uuid} {w w' : JoinWorld} {id roomId : Uuid}
  {st : Status}

theorem Counted.congr (h : Counted w st) (hmax : ∀ r, w'.maxMembers r = w.maxMembers r) :
    Counted w' st := by
  unfold Counted at h ⊢
  split at h <;> simp_all

variable {t : SettingsTable} {now : Timestamp}

theorem maxMembers_insert (r : Uuid) :
    (((t.ensureGroupSettingsRow now roomId).get r).map (·.maxMembers)).getD 500 =
      ((t.get r).map (·.maxMembers)).getD 500 := by
  unfold ensureGroupSettingsRow
  cases h : t.get r with
  | some s => rw [get_insert_of_get h]
  | none =>
    by_cases hr : roomId = r
    · subst hr
      rw [get_insert_of_none h]
      simp [GroupSettingsRecord.default]
    · rw [get_insert_ne hr, h]

theorem maxMembers_put {s s' : GroupSettingsRecord} (hs : t.get s.roomId = some s)
    (hroom : s'.roomId = s.roomId) (hmax : s'.maxMembers = s.maxMembers) (r : Uuid) :
    (((t.put s').get r).map (·.maxMembers)).getD 500 = ((t.get r).map (·.maxMembers)).getD 500 := by
  rw [get_put]
  by_cases hr : s'.roomId = r
  · rw [if_pos hr, ← hr, hroom, hs]
    exact hmax
  · rw [if_neg hr]

theorem getOrCreate_max (r : Uuid) :
    (((t.getOrCreateGroupSettings now roomId).1.get r).map (·.maxMembers)).getD 500 =
        ((t.get r).map (·.maxMembers)).getD 500 ∧
      (t.getOrCreateGroupSettings now roomId).2.maxMembers =
        ((t.get roomId).map (·.maxMembers)).getD 500 := by
  unfold getOrCreateGroupSettings
  split
  · rename_i s hs
    exact ⟨rfl, by rw [hs]; rfl⟩
  · rename_i hs
    exact ⟨maxMembers_insert r, by rw [hs]; rfl⟩

theorem getGroupSettings_max (stage : SettingsStage) (r : Uuid) :
    (((t.getGroupSettings now roomId stage).1.get r).map (·.maxMembers)).getD 500 =
      ((t.get r).map (·.maxMembers)).getD 500 := by
  have hclear : (((t.clearGlobalMute now roomId).1.get r).map (·.maxMembers)).getD 500 =
      ((t.get r).map (·.maxMembers)).getD 500 := by
    unfold clearGlobalMute
    split
    · rename_i s hs
      have hroom : s.roomId = roomId := key_of_get hs
      have hs : t.get s.roomId = some s := by rw [hroom, hs]
      refine maxMembers_put hs ?_ ?_ r <;> rfl
    · rfl
  cases stage with
  | select =>
    simp only [getGroupSettings]
    split
    · split <;> rfl
    · rfl
  | judge s =>
    simp only [getGroupSettings]
    split <;> rfl
  | clear =>
    simp only [getGroupSettings]
    split <;> simp_all only

/-- All that a statement does: the settings keep the largest number of members; the members are as
they were, or `add_member` is carried out; and what is counted stays so. -/
structure JoinMove (w : JoinWorld) (id : Uuid) (stage : JoinStage) (w' : JoinWorld) (st : Status) :
    Prop where
  max : ∀ r, w'.maxMembers r = w.maxMembers r
  members : w'.rooms = w.rooms ∨ ∃ roomId userId add,
    joinsRoom stage = some (roomId, userId, add) ∧
      w'.rooms.members = (addMember w.rooms.members roomId userId .member id add).1
  counted : Counted w (.running stage) → Counted w st

theorem JoinMove.keep {stage : JoinStage} (hrooms : w'.rooms = w.rooms)
    (hsettings : w'.settings = w.settings) (hst : Counted w (.running stage) → Counted w st) :
    JoinMove w id stage w' st :=
  ⟨fun r => by rw [JoinWorld.maxMembers, JoinWorld.maxMembers, hsettings], .inl hrooms, hst⟩

variable {userId : Uuid}

/-- A handler at a stage of `add_member`. -/
theorem JoinMove.add {Stage : Type} (f : Stage → JoinStage) (stage : AddMemberStage → Stage)
    {added : Next Stage JoinAnswer} {add : AddMemberStage}
    (hjoins : joinsRoom (f (stage add)) = some (roomId, userId, add))
    (hgoto : ∀ add', Counted w (.running (f (stage add))) → Counted w (.running (f (stage add'))))
    (hadded : Counted w (.running (f (stage add))) → Counted w (added.map f).status) :
    JoinMove w id (f (stage add))
      ((w.adding (addMember w.rooms.members roomId userId .member id add) stage added).embed f).1
      ((w.adding (addMember w.rooms.members roomId userId .member id add) stage added).embed
        f).2.status := by
  refine ⟨fun _ => rfl, .inr ⟨roomId, userId, add, hjoins, rfl⟩, fun h => ?_⟩
  simp only [JoinWorld.adding, JoinNext.embed]
  split
  · exact hgoto _ h
  · exact hadded h
  · trivial

theorem addGroupMembers_move {operatorId : Uuid} {userIds : List String}
    (stage : AddGroupMembersStage) :
    JoinMove w id (.addGroupMembers operatorId roomId userIds stage)
      ((addGroupMembers parseUuid operatorId roomId userIds w id stage).embed
        (.addGroupMembers operatorId roomId userIds)).1
      ((addGroupMembers parseUuid operatorId roomId userIds w id stage).embed
        (.addGroupMembers operatorId roomId userIds)).2.status := by
  cases stage with
  | begin =>
    simp only [addGroupMembers]
    split
    · exact .keep rfl rfl fun _ => trivial
    · split <;> exact .keep rfl rfl fun _ => trivial
  | settings targets =>
    exact ⟨fun r => (getOrCreate_max r).1, .inl rfl, fun _ => (getOrCreate_max roomId).2⟩
  | count targets maxMembers =>
    simp only [addGroupMembers]
    split
    · exact .keep rfl rfl fun _ => trivial
    · split
      · exact .keep rfl rfl fun _ => trivial
      · rename_i hremaining htargets
        refine .keep rfl rfl fun h => ?_
        have hmax : maxMembers = w.maxMembers roomId := h
        show (w.rooms.activeCount roomId + ([] : List Uuid).length + ([] : List Uuid).length +
          targets.length : ℤ) ≤ w.maxMembers roomId
        simp only [List.length_nil, Nat.cast_zero]
        omega
  | next currentCount targets added skipped =>
    cases targets with
    | nil => exact .keep rfl rfl fun _ => trivial
    | cons userId targets =>
      simp only [addGroupMembers]
      split
      · refine .keep rfl rfl fun h => ?_
        have hsum : (currentCount + added.length + skipped.length +
          (userId :: targets).length : ℤ) ≤ w.maxMembers roomId := h
        show (currentCount + added.length + (skipped ++ [userId]).length + targets.length : ℤ) ≤
          w.maxMembers roomId
        simp only [List.length_cons, List.length_append, List.length_nil, Nat.cast_add,
          Nat.cast_one, Nat.cast_zero] at hsum ⊢
        omega
      · refine .keep rfl rfl fun h => ?_
        have hsum : (currentCount + added.length + skipped.length +
          (userId :: targets).length : ℤ) ≤ w.maxMembers roomId := h
        show (currentCount + added.length + skipped.length + targets.length + 1 : ℤ) ≤
          w.maxMembers roomId
        simp only [List.length_cons, Nat.cast_add, Nat.cast_one] at hsum
        omega
  | add currentCount userId targets added skipped stage =>
    refine JoinMove.add (.addGroupMembers operatorId roomId userIds)
      (.add currentCount userId targets added skipped) rfl (fun _ h => h) fun h => ?_
    have hsum : (currentCount + added.length + skipped.length + targets.length + 1 : ℤ) ≤
      w.maxMembers roomId := h
    show (currentCount + (added ++ [userId]).length + skipped.length + targets.length : ℤ) ≤
      w.maxMembers roomId
    simp only [List.length_append, List.length_cons, List.length_nil, Nat.cast_add, Nat.cast_one,
      Nat.cast_zero]
    omega
  | _ =>
    simp only [addGroupMembers]
    split <;> exact .keep rfl rfl fun _ => trivial

theorem respondToInvitation_move {invitationId : Uuid} {status : Option String}
    (stage : RespondStage) :
    JoinMove w id (.respondToInvitation userId roomId invitationId status stage)
      ((respondToInvitation userId roomId invitationId status w id stage).embed
        (.respondToInvitation userId roomId invitationId status)).1
      ((respondToInvitation userId roomId invitationId status w id stage).embed
        (.respondToInvitation userId roomId invitationId status)).2.status := by
  cases stage with
  | begin =>
    simp only [respondToInvitation]
    split
    · exact .keep rfl rfl fun _ => trivial
    · split
      · exact .keep rfl rfl fun _ => trivial
      · split <;> exact .keep rfl rfl fun _ => trivial
  | getInvitation st =>
    simp only [respondToInvitation]
    split
    · exact .keep rfl rfl fun _ => trivial
    · split_ifs <;> exact .keep rfl rfl fun _ => trivial
  | respond st =>
    have hkeep : (w.respondToInvitation invitationId st).1.rooms = w.rooms ∧
        (w.respondToInvitation invitationId st).1.settings = w.settings := by
      unfold JoinWorld.respondToInvitation
      split
      · split <;> exact ⟨rfl, rfl⟩
      · exact ⟨rfl, rfl⟩
    simp only [respondToInvitation]
    split
    · rename_i h
      rw [h] at hkeep
      split <;> exact .keep hkeep.1 hkeep.2 fun _ => trivial
    · rename_i h
      rw [h] at hkeep
      exact .keep hkeep.1 hkeep.2 fun _ => trivial
  | addMember room stage =>
    exact JoinMove.add (.respondToInvitation userId roomId invitationId status) (.addMember room)
      rfl (fun _ h => h) fun _ => trivial

theorem joinRoom_move (stage : JoinRoomStage) :
    JoinMove w id (.joinRoom userId roomId stage)
      ((joinRoom userId roomId w id stage).embed (.joinRoom userId roomId)).1
      ((joinRoom userId roomId w id stage).embed (.joinRoom userId roomId)).2.status := by
  cases stage with
  | getRoom =>
    simp only [joinRoom]
    split
    · exact .keep rfl rfl fun _ => trivial
    · split <;> exact .keep rfl rfl fun _ => trivial
  | settings => exact ⟨fun r => (getOrCreate_max r).1, .inl rfl, fun _ => trivial⟩
  | addMember stage =>
    exact JoinMove.add (.joinRoom userId roomId) .addMember rfl (fun _ h => h) fun _ => trivial
  | _ =>
    simp only [joinRoom]
    split <;> exact .keep rfl rfl fun _ => trivial

theorem readGroupSettings_move (stage : ReadSettingsStage) :
    JoinMove w id (.getGroupSettings roomId stage)
      ((readGroupSettings roomId w stage).embed (.getGroupSettings roomId)).1
      ((readGroupSettings roomId w stage).embed (.getGroupSettings roomId)).2.status := by
  have hst : ∀ out : Next ReadSettingsStage JoinAnswer,
      Counted w (out.map (JoinStage.getGroupSettings roomId)).status := by
    intro out
    cases out <;> trivial
  cases stage with
  | read stage | readAgain stage => exact ⟨getGroupSettings_max stage, .inl rfl, fun _ => hst _⟩
  | ensure => exact ⟨maxMembers_insert, .inl rfl, fun _ => trivial⟩

variable (parseUuid w id) in
/-- Every statement makes such a move. -/
theorem joinMove (stage : JoinStage) :
    JoinMove w id stage (joinStatement parseUuid w id stage).1
      (joinStatement parseUuid w id stage).2.status := by
  cases stage with
  | addGroupMembers => exact addGroupMembers_move _
  | respondToInvitation => exact respondToInvitation_move _
  | joinRoom => exact joinRoom_move _
  | getGroupSettings => exact readGroupSettings_move _

/-! ## What other handlers do -/

theorem tick_max (t : JoinTick) (r : Uuid) : (w.tick t).maxMembers r = w.maxMembers r := by
  have hupdate : ∀ memberId f, (w.updateMember memberId f).maxMembers r = w.maxMembers r := by
    intro memberId f
    unfold JoinWorld.updateMember
    split <;> rfl
  cases t with
  | putSettings s =>
    show (((w.settings.put { s with maxMembers := w.maxMembers s.roomId }).get r).map
      (·.maxMembers)).getD 500 = w.maxMembers r
    rw [get_put]
    by_cases hr : s.roomId = r
    · rw [if_pos hr, ← hr]
      rfl
    · rw [if_neg hr]
      rfl
  | elapse | putRoom | putAdmin | deleteAdmin | putInvitation | putJoinRequest => rfl
  | _ => exact hupdate ..

theorem tick_activeCount (t : JoinTick) (r : Uuid) :
    (w.tick t).rooms.activeCount r ≤ w.rooms.activeCount r := by
  have hupdate : ∀ memberId (f : MemberRecord → MemberRecord),
      (∀ m, (f m).id = m.id ∧ (f m).roomId = m.roomId ∧
        ((f m).deletedAt = none → m.deletedAt = none)) →
      (w.updateMember memberId f).rooms.activeCount r ≤ w.rooms.activeCount r := by
    intro memberId f hf
    unfold JoinWorld.updateMember
    split
    · rename_i m hm
      obtain ⟨hid, hroom, hdeleted⟩ := hf m
      have hcount := countP_put (get_of_mem (mem_of_get hm)) hid
        fun m => m.roomId = r && m.deletedAt = none
      unfold RoomTables.activeCount MemberTable.activeCount
      have hle : (if (decide ((f m).roomId = r) && decide ((f m).deletedAt = none)) = true
          then 1 else 0) ≤
          if (decide (m.roomId = r) && decide (m.deletedAt = none)) = true then 1 else 0 := by
        split
        · rename_i h
          simp only [Bool.and_eq_true, decide_eq_true_eq] at h
          rw [if_pos (by simp [← hroom, h.1, hdeleted h.2])]
        · exact Nat.zero_le _
      dsimp only at hcount ⊢
      omega
    · exact le_rfl
  cases t with
  | changeRole memberId role => exact hupdate memberId _ fun m => ⟨rfl, rfl, id⟩
  | removeMember memberId => exact hupdate memberId _ fun m => ⟨rfl, rfl, fun h => by cases h⟩
  | elapse | putRoom | putAdmin | deleteAdmin | putInvitation | putJoinRequest | putSettings =>
    exact le_rfl

/-! ## Runs -/

theorem counted_each {s : State} {G : Condition}
    (h : Reach (joining parseUuid) G (.idle w) s) :
    Each (fun _ => True) (fun w _ _ st => Counted w st) s := by
  refine h.each (fun s i c _ => ?_) (fun s i c stage id hE hcall _ _ => ?_) (fun _ _ _ => trivial)
    (fun w t _ => ?_) (Overlap.each_idle trivial)
  · cases c <;> trivial
  · have hmove : JoinMove s.world id stage _ _ := joinMove parseUuid s.world id stage
    refine ⟨trivial, ?_, fun j c' st' _ _ hother => hother.congr hmove.max⟩
    exact (hmove.counted (hE.2 i c _ hcall)).congr hmove.max
  · exact ⟨trivial, fun i c st hst => hst.congr (tick_max t)⟩

/-- Where there is room for the user, there are fewer members than there may be. -/
theorem lt_max_of_hasRoom {stage : JoinStage} {add : AddMemberStage}
    (hjoins : joinsRoom stage = some (roomId, userId, add)) (hcounted : Counted w (.running stage))
    (h : hasRoom w roomId stage = true) :
    (w.rooms.activeCount roomId : ℤ) < w.maxMembers roomId := by
  cases stage with
  | addGroupMembers operatorId room userIds stage =>
    cases stage with
    | add currentCount user targets added skipped add' =>
      cases hjoins
      have hsum : (currentCount + added.length + skipped.length + targets.length + 1 : ℤ) ≤
        w.maxMembers roomId := hcounted
      have hroom : w.rooms.activeCount roomId ≤ currentCount + added.length := of_decide_eq_true h
      omega
    | _ => cases hjoins
  | respondToInvitation | joinRoom | getGroupSettings => exact of_decide_eq_true h

/-- **Capacity.**  Where there is room for everybody who joins, no join takes the members of a room
beyond the largest number of them. -/
theorem capacity_respected (parseUuid : String → Except String Uuid) (w : JoinWorld) :
    CapacityRespected parseUuid RoomLeft w := by
  intro s s' roomId hs hstep hrise
  have hE := counted_each hs
  have hjoin : ∀ i c stage id, s.calls i = some (c, .running stage) → RoomLeft s i id →
      s.world.rooms.activeCount roomId <
        (joinStatement parseUuid s.world id stage).1.rooms.activeCount roomId →
      ((joinStatement parseUuid s.world id stage).1.rooms.activeCount roomId : ℤ) ≤
        (joinStatement parseUuid s.world id stage).1.maxMembers roomId := by
    intro i c stage id hcall hG hlt
    obtain ⟨hmax, hmembers, -⟩ := joinMove parseUuid s.world id stage
    rw [hmax]
    rcases hmembers with hsame | ⟨room, user, add, hjoins, hrooms⟩
    · rw [hsame] at hlt
      exact absurd hlt (lt_irrefl _)
    · have hcount : (joinStatement parseUuid s.world id stage).1.rooms.activeCount roomId =
          (addMember s.world.rooms.members room user .member id add).1.activeCount roomId := by
        rw [RoomTables.activeCount, hrooms]
      rw [hcount] at hlt ⊢
      rcases activeCount_addMember s.world.rooms.members room user roomId .member id add with
        hle | ⟨rfl, hnew, hsucc⟩
      · exact absurd hlt (Nat.not_lt.2 hle)
      · have hroom := hG c stage _ _ _ hcall hjoins hnew
        have hlt' := lt_max_of_hasRoom hjoins (hE.2 i c _ hcall) hroom
        rw [hsucc, ← RoomTables.activeCount]
        push_cast
        omega
  cases hstep with
  | start | drop => exact absurd hrise (lt_irrefl _)
  | run hcall _ hG | lose hcall _ hG => exact hjoin _ _ _ _ hcall hG hrise
  | tick t => exact absurd hrise (Nat.not_lt.2 (tick_activeCount t roomId))

end

/-! ## A room that is full -/

/-- A room with its owner, and a largest number of members. -/
def sampleRoom (maxMembers : ℤ) : JoinWorld where
  now := 1000
  rooms :=
    { rooms := empty.insert ⟨10, .groupChat, 1, none⟩
      members := empty.insert ⟨100, 10, 1, .owner, 500, none⟩
      admins := empty }
  settings :=
    empty.insert { GroupSettingsRecord.default 10 500 with maxMembers := maxMembers }
  invitations := empty
  joinRequests := empty

/-- Some statements of a call, with ids from a number on. -/
def runs (i n : ℕ) (first : Uuid) : List Act := (List.range' first n).map fun id => .run i id

/-- Without the condition, a user joins a room that is full. -/
theorem full_room_joined :
    ¬ ∀ (parseUuid : String → Except String Uuid) (w : JoinWorld),
      CapacityRespected parseUuid (fun _ _ _ => True) w := by
  intro h
  have hrun : ((Overlap.perform (joining sampleParseUuid) (fun _ _ _ => true)
      (.start 0 (.joinRoom 2 10) :: runs 0 4 200) (.idle (sampleRoom 1))).bind fun s =>
    (s.act (joining sampleParseUuid) (fun _ _ _ => true) (.run 0 204)).map fun s' =>
      (s, s')).map (fun r => (r.1.world.rooms.activeCount 10, r.2.world.rooms.activeCount 10,
        r.2.world.maxMembers 10)) = some (1, 2, 1) := by
    decide +kernel
  obtain ⟨⟨s, s'⟩, hstates, hcounts⟩ := Option.map_eq_some_iff.1 hrun
  obtain ⟨s₁, hs, hrest⟩ := Option.bind_eq_some_iff.1 hstates
  obtain ⟨s₂, hact, heq⟩ := Option.map_eq_some_iff.1 hrest
  simp only [Prod.mk.injEq] at heq hcounts
  obtain ⟨rfl, rfl⟩ := heq
  obtain ⟨hbefore, hafter, hmax⟩ := hcounts
  have hle := h sampleParseUuid (sampleRoom 1) s₁ s₂ 10
    (Reach.of_perform (fun _ _ _ _ => trivial) hs) (Step.of_act (fun _ _ _ => trivial) hact)
    (by omega)
  rw [hafter, hmax] at hle
  exact absurd hle (by decide)

/-- The condition, decided. -/
def roomLeft (s : State) (i : ℕ) (_ : Uuid) : Bool :=
  match s.calls i with
  | some (_, .running stage) =>
    (joinsRoom stage).all fun j =>
      !j.2.2.joins s.world.rooms.members j.1 j.2.1 || hasRoom s.world j.1 stage
  | _ => true

theorem roomLeft_of_check {s : State} {i : ℕ} {id : Uuid} (h : roomLeft s i id = true) :
    RoomLeft s i id := by
  intro c stage roomId userId add hi hjoins hnew
  simpa only [roomLeft, hi, hjoins, Option.all_some, hnew, Bool.not_true, Bool.false_or] using h

/-- Two users are added to a room for three, and fill it. -/
theorem capacity_respected_sample :
    ∃ s, Overlap.perform (joining sampleParseUuid) roomLeft
        (.start 0 (.addGroupMembers 1 10 [sampleUuidText 2, " " ++ sampleUuidText 3]) ::
          runs 0 11 200) (.idle (sampleRoom 3)) = some s ∧
      s.calls 0 = some (.addGroupMembers 1 10 [sampleUuidText 2, " " ++ sampleUuidText 3],
        .answered (.membersAdded [2, 3] [])) ∧
      Reach (joining sampleParseUuid) RoomLeft (.idle (sampleRoom 3)) s ∧
      CapacityRespected sampleParseUuid RoomLeft (sampleRoom 3) := by
  have hrun : (Overlap.perform (joining sampleParseUuid) roomLeft
      (.start 0 (.addGroupMembers 1 10 [sampleUuidText 2, " " ++ sampleUuidText 3]) ::
        runs 0 11 200) (.idle (sampleRoom 3))).map (·.calls 0) =
      some (some (.addGroupMembers 1 10 [sampleUuidText 2, " " ++ sampleUuidText 3],
        .answered (.membersAdded [2, 3] []))) := by
    decide +kernel
  obtain ⟨s, hs, hanswer⟩ := Option.map_eq_some_iff.1 hrun
  exact ⟨s, hs, hanswer, Reach.of_perform (fun _ _ _ h => roomLeft_of_check h) hs,
    capacity_respected _ _⟩

end Joining

end RedcodeIm
