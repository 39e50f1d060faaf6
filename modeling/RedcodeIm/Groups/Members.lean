import RedcodeIm.Groups.Settings

/-!
# Members are added

`add_member` of `room_store.rs`: an `UPDATE` of the rows that the user has in the room, deleted or
not, and an `INSERT` if there is none.  The two are statements of their own.

* `MemberTable.updateMember`, `insertMember` — the statements of `upsert_member_conn`.
* `addMember` — both, by stages.
* `activeCount_addMember` — what it does to the number of members.
* `Upserted`, `addMember_cases` — what it does to the rows.
-/

namespace RedcodeIm

open Overlap (Next)

/-- The row is the user's, in the room. -/
def MemberRecord.isIn (m : MemberRecord) (roomId userId : Uuid) : Bool :=
  m.roomId = roomId && m.userId = userId

abbrev MemberTable : Type := Table MemberRecord.id

namespace MemberTable

/-- The rows of a user in a room, deleted or not. -/
def memberRows (t : MemberTable) (roomId userId : Uuid) : List MemberRecord :=
  t.rows.filter (·.isIn roomId userId)

/-- `is_user_in_room`. -/
def isActive (t : MemberTable) (roomId userId : Uuid) : Bool :=
  t.rows.any (·.isActiveIn roomId userId)

/-- How many members of a room are not deleted. -/
def activeCount (t : MemberTable) (roomId : Uuid) : ℕ :=
  t.rows.countP fun m => m.roomId = roomId && m.deletedAt = none

/-- The `UPDATE` of `upsert_member_conn`: whether there was a row.  No two active rows are of the
same user in the same room, so two rows cannot both be brought back. -/
def updateMember (t : MemberTable) (roomId userId : Uuid) (role : MemberRole)
    (joinedAt : Timestamp) : Except GroupError (MemberTable × Bool) :=
  match t.memberRows roomId userId with
  | [] => .ok (t, false)
  | [m] => .ok (t.put { m with role := role, joinedAt := joinedAt, deletedAt := none }, true)
  | _ :: _ :: _ => .error .databaseError

/-- The `INSERT` of `upsert_member_conn`. -/
def insertMember (t : MemberTable) (id roomId userId : Uuid) (role : MemberRole)
    (joinedAt : Timestamp) : Except GroupError MemberTable :=
  if t.isActive roomId userId || (t.get id).isSome then .error .databaseError
  else .ok (t.insert ⟨id, roomId, userId, role, joinedAt, none⟩)

end MemberTable

/-- `count_active_members`. -/
def RoomTables.activeCount (t : RoomTables) (roomId : Uuid) : ℕ :=
  MemberTable.activeCount t.members roomId

inductive AddMemberStage where
  | update (joinedAt : Timestamp)
  | insert (joinedAt : Timestamp)
  deriving DecidableEq

/-- `add_member`. -/
def addMember (t : MemberTable) (roomId userId : Uuid) (role : MemberRole) (id : Uuid) :
    AddMemberStage → MemberTable × Next AddMemberStage (Except GroupError Unit)
  | .update joinedAt =>
    match t.updateMember roomId userId role joinedAt with
    | .ok (t', true) => (t', .done (.ok ()))
    | .ok (t', false) => (t', .goto (.insert joinedAt))
    | .error e => (t, .done (.error e))
  | .insert joinedAt =>
    match t.insertMember id roomId userId role joinedAt with
    | .ok t' => (t', .done (.ok ()))
    | .error e => (t, .done (.error e))

/-- The statement makes the user a member who is none. -/
def AddMemberStage.joins (t : MemberTable) (roomId userId : Uuid) : AddMemberStage → Bool
  | .update _ => !t.isActive roomId userId && t.memberRows roomId userId ≠ []
  | .insert _ => !t.isActive roomId userId

/-! ## The number of members -/

section

variable {t t' : MemberTable} {roomId userId other : Uuid} {role : MemberRole}
  {joinedAt : Timestamp}

theorem mem_memberRows {m : MemberRecord} :
    m ∈ t.memberRows roomId userId ↔ m ∈ t.rows ∧ m.roomId = roomId ∧ m.userId = userId := by
  simp [MemberTable.memberRows, MemberRecord.isIn]

theorem isActive_iff :
    t.isActive roomId userId = true ↔ ∃ m ∈ t.memberRows roomId userId, m.deletedAt = none := by
  simp [MemberTable.isActive, MemberRecord.isActiveIn, mem_memberRows, and_assoc]

/-- The `UPDATE` adds one member at most, and only if the user is none. -/
theorem activeCount_updateMember {found : Bool}
    (h : t.updateMember roomId userId role joinedAt = .ok (t', found)) :
    t'.activeCount other ≤ t.activeCount other ∨
      (other = roomId ∧ (AddMemberStage.update joinedAt).joins t roomId userId = true ∧
        t'.activeCount other = t.activeCount other + 1) := by
  unfold MemberTable.updateMember at h
  split at h
  · cases h
    exact .inl le_rfl
  · rename_i m hrows
    cases h
    have hm : m ∈ t.memberRows roomId userId := hrows ▸ List.mem_cons_self
    obtain ⟨hmem, hroom, huser⟩ := mem_memberRows.1 hm
    have hcount := Table.countP_put (t := t) (r := m)
      (s := { m with role := role, joinedAt := joinedAt, deletedAt := none })
      (Table.get_of_mem hmem) rfl fun m => m.roomId = other && m.deletedAt = none
    unfold MemberTable.activeCount
    by_cases ho : other = roomId
    · subst ho
      rw [decide_eq_true hroom] at hcount
      by_cases hd : m.deletedAt = none
      · simp only [hd, decide_true, Bool.and_self, if_true] at hcount
        exact .inl (by omega)
      · simp only [hd, decide_true, decide_false, Bool.and_false, Bool.and_self,
          Bool.false_eq_true, if_false, if_true] at hcount
        refine .inr ⟨rfl, ?_, by omega⟩
        have hnot : t.isActive other userId = false := by
          by_contra hin
          obtain ⟨m', hm', hnone⟩ := isActive_iff.1 (Bool.not_eq_false _ ▸ hin)
          rw [hrows, List.mem_singleton] at hm'
          exact hd (hm' ▸ hnone)
        simp [AddMemberStage.joins, hnot, hrows]
    · rw [decide_eq_false (hroom ▸ Ne.symm ho)] at hcount
      exact .inl hcount.le
  · cases h

/-- The `INSERT` adds one. -/
theorem activeCount_insertMember {id : Uuid}
    (h : t.insertMember id roomId userId role joinedAt = .ok t') :
    t'.activeCount other ≤ t.activeCount other ∨
      (other = roomId ∧ (AddMemberStage.insert joinedAt).joins t roomId userId = true ∧
        t'.activeCount other = t.activeCount other + 1) := by
  unfold MemberTable.insertMember at h
  split at h
  · cases h
  · rename_i hcheck
    simp only [Bool.or_eq_true, not_or, Bool.not_eq_true, Option.isSome_eq_false_iff,
      Option.isNone_iff_eq_none] at hcheck
    cases h
    unfold MemberTable.activeCount
    rw [Table.rows_insert_of_none hcheck.2, List.countP_append]
    by_cases ho : other = roomId
    · subst ho
      exact .inr ⟨rfl, by simp [AddMemberStage.joins, hcheck.1], by simp⟩
    · exact .inl (by simp [Ne.symm ho])

/-- `add_member` touches the members, and adds one at most, only where it joins. -/
theorem activeCount_addMember (t : MemberTable) (roomId userId other : Uuid) (role : MemberRole)
    (id : Uuid) (stage : AddMemberStage) :
    (addMember t roomId userId role id stage).1.activeCount other ≤ t.activeCount other ∨
      (other = roomId ∧ stage.joins t roomId userId = true ∧
        (addMember t roomId userId role id stage).1.activeCount other =
          t.activeCount other + 1) := by
  cases stage with
  | update joinedAt =>
    simp only [addMember]
    split
    · rename_i h
      exact activeCount_updateMember h
    · rename_i h
      exact activeCount_updateMember h
    · exact .inl le_rfl
  | insert joinedAt =>
    simp only [addMember]
    split
    · rename_i h
      exact activeCount_insertMember h
    · exact .inl le_rfl

end

/-! ## The rows -/

/-- The user has a row in the room, deleted or not. -/
def MemberTable.hasRow (t : MemberTable) (roomId userId : Uuid) : Bool :=
  t.rows.any (·.isIn roomId userId)

/-- The user has been added to the room in a role, and no other row is touched. -/
structure Upserted (t t' : MemberTable) (roomId userId : Uuid) (role : MemberRole) : Prop where
  new : ∃ m ∈ t'.rows, m.isActiveIn roomId userId = true ∧ m.role = role
  old : ∀ m ∈ t'.rows, (m ∈ t.rows ∧ (m.isIn roomId userId = true → m.deletedAt ≠ none)) ∨
    (m.isActiveIn roomId userId = true ∧ m.role = role)
  kept : ∀ m ∈ t.rows, m.isIn roomId userId = false → m ∈ t'.rows

section

variable {t t' : MemberTable} {roomId userId r u : Uuid} {role : MemberRole} {joinedAt : Timestamp}

theorem isIn_iff {m : MemberRecord} :
    m.isIn roomId userId = true ↔ m.roomId = roomId ∧ m.userId = userId := by
  simp [MemberRecord.isIn]

theorem isActiveIn_iff {m : MemberRecord} :
    m.isActiveIn roomId userId = true ↔ m.isIn roomId userId = true ∧ m.deletedAt = none := by
  simp [MemberRecord.isActiveIn, MemberRecord.isIn]

theorem updateMember_true (h : t.updateMember roomId userId role joinedAt = .ok (t', true)) :
    Upserted t t' roomId userId role := by
  unfold MemberTable.updateMember at h
  split at h
  · cases h
  · rename_i m hrows
    cases h
    have hm : m ∈ t.memberRows roomId userId := hrows ▸ List.mem_cons_self
    have hin : m.isIn roomId userId = true := (List.mem_filter.1 hm).2
    have honly : ∀ x ∈ t.rows, x.isIn roomId userId = true → x = m := fun x hx hxin =>
      List.mem_singleton.1 (hrows ▸ List.mem_filter.2 ⟨hx, hxin⟩)
    refine ⟨⟨_, Table.mem_put_self t _, isActiveIn_iff.2 ⟨hin, rfl⟩, rfl⟩, fun x hx => ?_,
      fun x hx hne => ?_⟩
    · rcases Table.mem_put hx with ⟨hx, hid⟩ | rfl
      · refine .inl ⟨hx, fun hxin => ?_⟩
        exact absurd (congrArg MemberRecord.id (honly x hx hxin)) hid
      · exact .inr ⟨isActiveIn_iff.2 ⟨hin, rfl⟩, rfl⟩
    · refine Table.mem_put_of_ne hx fun hid => ?_
      have hxm : x = m := Table.eq_of_key_eq hx (List.mem_filter.1 hm).1 hid
      rw [hxm, hin] at hne
      cases hne
  · cases h

theorem updateMember_false (h : t.updateMember roomId userId role joinedAt = .ok (t', false)) :
    t' = t := by
  unfold MemberTable.updateMember at h
  split at h <;> cases h
  rfl

theorem insertMember_upserted {id : Uuid}
    (h : t.insertMember id roomId userId role joinedAt = .ok t') :
    Upserted t t' roomId userId role := by
  unfold MemberTable.insertMember at h
  split at h
  · cases h
  · rename_i hcheck
    simp only [Bool.or_eq_true, not_or, Bool.not_eq_true, Option.isSome_eq_false_iff,
      Option.isNone_iff_eq_none] at hcheck
    cases h
    have hrows := Table.rows_insert_of_none
      (r := (⟨id, roomId, userId, role, joinedAt, none⟩ : MemberRecord)) hcheck.2
    have hactive : (⟨id, roomId, userId, role, joinedAt, none⟩ : MemberRecord).isActiveIn roomId
        userId = true := isActiveIn_iff.2 ⟨isIn_iff.2 ⟨rfl, rfl⟩, rfl⟩
    refine ⟨⟨_, ?_, hactive, rfl⟩, fun x hx => ?_, fun x hx _ => Table.mem_insert_of_mem hx⟩
    · rw [hrows]
      exact List.mem_append_right _ List.mem_cons_self
    · rcases Table.mem_insert hx with hx | rfl
      · refine .inl ⟨hx, fun hin hnone => ?_⟩
        have hyes : t.isActive roomId userId = true :=
          List.any_eq_true.2 ⟨x, hx, isActiveIn_iff.2 ⟨hin, hnone⟩⟩
        rw [hcheck.1] at hyes
        cases hyes
      · exact .inr ⟨hactive, rfl⟩

/-- `add_member` comes to nothing yet, or the user has been added. -/
theorem addMember_cases (t : MemberTable) (roomId userId : Uuid) (role : MemberRole) (id : Uuid)
    (stage : AddMemberStage) :
    ((addMember t roomId userId role id stage).1 = t ∧
        (addMember t roomId userId role id stage).2 ≠ .done (.ok ())) ∨
      (Upserted t (addMember t roomId userId role id stage).1 roomId userId role ∧
        (addMember t roomId userId role id stage).2 = .done (.ok ())) := by
  cases stage with
  | update joinedAt =>
    simp only [addMember]
    split
    · rename_i h
      exact .inr ⟨updateMember_true h, rfl⟩
    · rename_i h
      exact .inl ⟨updateMember_false h, by simp⟩
    · exact .inl ⟨rfl, by simp⟩
  | insert joinedAt =>
    simp only [addMember]
    split
    · rename_i h
      exact .inr ⟨insertMember_upserted h, rfl⟩
    · exact .inl ⟨rfl, by simp⟩

theorem hasRow_iff : t.hasRow r u = true ↔ ∃ m ∈ t.rows, m.isIn r u = true := List.any_eq_true

theorem isActive_iff_mem :
    t.isActive r u = true ↔ ∃ m ∈ t.rows, m.isActiveIn r u = true := List.any_eq_true

theorem hasRow_of_isActive (h : t.isActive r u = true) : t.hasRow r u = true := by
  obtain ⟨m, hm, hactive⟩ := isActive_iff_mem.1 h
  exact hasRow_iff.2 ⟨m, hm, (isActiveIn_iff.1 hactive).1⟩

theorem Upserted.isActive_self (h : Upserted t t' roomId userId role) :
    t'.isActive roomId userId = true := by
  obtain ⟨m, hm, hactive, -⟩ := h.new
  exact isActive_iff_mem.2 ⟨m, hm, hactive⟩

theorem Upserted.isActive (h : Upserted t t' roomId userId role) (hr : t.isActive r u = true) :
    t'.isActive r u = true := by
  obtain ⟨m, hm, hactive⟩ := isActive_iff_mem.1 hr
  cases hin : m.isIn roomId userId with
  | true =>
    obtain ⟨hroom, huser⟩ := isIn_iff.1 hin
    obtain ⟨hroom', huser'⟩ := isIn_iff.1 (isActiveIn_iff.1 hactive).1
    rw [← hroom', ← huser', hroom, huser]
    exact h.isActive_self
  | false => exact isActive_iff_mem.2 ⟨m, h.kept m hm hin, hactive⟩

/-- Who has a row had one, or has been added. -/
theorem Upserted.hasRow_iff (h : Upserted t t' roomId userId role) :
    t'.hasRow r u = true ↔ t.hasRow r u = true ∨ (r = roomId ∧ u = userId) := by
  refine ⟨fun hr => ?_, fun hr => ?_⟩
  · obtain ⟨m, hm, hin⟩ := RedcodeIm.hasRow_iff.1 hr
    rcases h.old m hm with ⟨hm, -⟩ | ⟨hactive, -⟩
    · exact .inl (RedcodeIm.hasRow_iff.2 ⟨m, hm, hin⟩)
    · obtain ⟨hroom, huser⟩ := isIn_iff.1 (isActiveIn_iff.1 hactive).1
      obtain ⟨hroom', huser'⟩ := isIn_iff.1 hin
      exact .inr ⟨hroom'.symm.trans hroom, huser'.symm.trans huser⟩
  · rcases hr with hr | ⟨rfl, rfl⟩
    · obtain ⟨m, hm, hin⟩ := RedcodeIm.hasRow_iff.1 hr
      cases hin' : m.isIn roomId userId with
      | true =>
        obtain ⟨hroom, huser⟩ := isIn_iff.1 hin'
        obtain ⟨hroom', huser'⟩ := isIn_iff.1 hin
        rw [← hroom', ← huser', hroom, huser]
        exact hasRow_of_isActive h.isActive_self
      | false => exact RedcodeIm.hasRow_iff.2 ⟨m, h.kept m hm hin', hin⟩
    · exact hasRow_of_isActive h.isActive_self

end

end RedcodeIm
