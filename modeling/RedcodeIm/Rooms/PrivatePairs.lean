import RedcodeIm.Rooms.PrivateRooms

/-!
# One private room for two users

Two calls of `ensure_private_room` that overlap may both find no room and both create one, and a
call may make a user the owner of a room that another one owns.  Where neither happens there is one
room, with one owner.

* `RoomsInOrder`, `CallInOrder` — what holds of the rooms, and of a call in its course.
* `MadeApart` — what holds of each two calls.
* `EnsureMove.rooms`, `EnsureMove.self`, `EnsureMove.others` — every statement keeps them.
* `private_rooms_hold` — so one room is all that two users have.
-/

namespace RedcodeIm

open Overlap (Each EachTwo Reach)

namespace PrivateRooms

/-! ## What holds of the rooms and the calls -/

/-- The room that a call has found. -/
def foundRoom : Status → Option Uuid
  | .running (.rename room) | .running (.addOwner room _) | .running (.addMember room _) =>
    some room.id
  | _ => none

/-- What holds of the rooms. -/
structure RoomsInOrder (w : ChatWorld) : Prop where
  known : ∀ m ∈ w.members.rows, (w.rooms.get m.roomId).isSome = true
  one : OneRoom w
  owners : OwnersKept w

/-- What holds of a call: the room that it has found is one of its users; the one that it has
created is its first user's alone, and they have no other; and the one that it is answered with has
both as members. -/
structure CallInOrder (w : ChatWorld) (c : EnsurePrivateRoom) (st : Status) : Prop where
  found : ∀ r, foundRoom st = some r → PairRoom w r c.userA c.userB
  owned : ∀ room add, st = .running (.addMember room add) →
    openOwner w room.id = some c.userA ∧ w.members.isActive room.id c.userA = true
  half : ∀ r, halfMade st = some r → openOwner w r = some c.userA ∧
    w.members.isActive r c.userA = true ∧ (∀ u, w.members.hasRow r u = true → u = c.userA) ∧
      ∀ r', ¬ PairRoom w r' c.userA c.userB
  answered : ∀ room, st = .answered (.ok room) → PairRoom w room.id c.userA c.userB ∧
    w.members.isActive room.id c.userA = true ∧ w.members.isActive room.id c.userB = true

/-- Two calls have not created the same room, nor rooms for the same two users. -/
def MadeApart (c : EnsurePrivateRoom) (st : Status) (c' : EnsurePrivateRoom) (st' : Status) :
    Prop :=
  ∀ r r', halfMade st = some r → halfMade st' = some r' → r ≠ r' ∧ ¬ SamePair c c'

/-- The world that comes after has all that was there. -/
structure Later (w w' : ChatWorld) : Prop where
  owner : ∀ r o, openOwner w r = some o → openOwner w' r = some o
  known : ∀ r, (w.rooms.get r).isSome = true → (w'.rooms.get r).isSome = true
  row : ∀ r u, w.members.hasRow r u = true → w'.members.hasRow r u = true
  active : ∀ r u, w.members.isActive r u = true → w'.members.isActive r u = true

section

variable {w w' : ChatWorld} {c c' : EnsurePrivateRoom} {x : NewIds} {stage : EnsureStage}
  {st st' : Status} {s : State} {a b r u : Uuid}

theorem SamePair.symm (h : SamePair c c') : SamePair c' c := by
  rcases h with ⟨ha, hb⟩ | ⟨ha, hb⟩
  · exact .inl ⟨ha.symm, hb.symm⟩
  · exact .inr ⟨hb.symm, ha.symm⟩

theorem Later.pair (h : Later w w') (hp : PairRoom w r a b) : PairRoom w' r a b := by
  obtain ⟨o, ho⟩ := Option.isSome_iff_exists.1 hp.isOpen
  exact ⟨by rw [h.owner r o ho]; rfl, h.row r a hp.rowA, h.row r b hp.rowB⟩

theorem later_of_same (hrooms : SameRooms w w') (hmembers : w'.members = w.members) : Later w w' :=
  ⟨fun r _ h => (hrooms.owner r).trans h, fun r h => (hrooms.known r).trans h,
    fun _ _ h => hmembers ▸ h, fun _ _ h => hmembers ▸ h⟩

theorem later_of_upsert {roomId userId : Uuid} {role : MemberRole} (hrooms : w'.rooms = w.rooms)
    (hadded : Upserted w.members w'.members roomId userId role) : Later w w' := by
  have hsame := sameRooms_of_eq hrooms
  exact ⟨fun r _ h => (hsame.owner r).trans h, fun r h => (hsame.known r).trans h,
    fun _ _ h => hadded.hasRow_iff.2 (.inl h), fun _ _ h => hadded.isActive h⟩

theorem openOwner_of_none (h : w.rooms.get r = none) : openOwner w r = none := by
  rw [openOwner, h]
  rfl

variable (h : EnsureMove c w x stage w' st)

include h

theorem EnsureMove.later : Later w w' := by
  have hrefl : w' = w → Later w w' := fun hw => later_of_same (hw ▸ sameRooms_of_eq rfl) (hw ▸ rfl)
  cases h with
  | found _ hw | notFound hw | failed _ hw | waits hw => exact hrefl hw
  | renamed _ _ _ _ hrooms hmembers => exact later_of_same hrooms hmembers
  | ownerAdded _ _ _ _ hrooms hadded | memberAdded _ _ _ hrooms hadded
  | secondAdded _ _ _ hrooms hadded => exact later_of_upsert hrooms hadded
  | created room _ _ hnew howner hknown hadded =>
    refine ⟨fun r o h => ?_, fun r h => (hknown r).2 (.inr h),
      fun r u h => hadded.hasRow_iff.2 (.inl h), fun r u h => hadded.isActive h⟩
    rw [howner, if_neg, h]
    rintro rfl
    rw [openOwner_of_none hnew] at h
    cases h

/-- A row that is new is the first user's in a room that has just been created, or the second's in
one that was. -/
theorem EnsureMove.hasRow (hcall : CallInOrder w c (.running stage))
    (hr : w'.members.hasRow r u = true) :
    w.members.hasRow r u = true ∨
      (halfMade st = some r ∧ w.rooms.get r = none ∧ u = c.userA) ∨
        (halfMade (.running stage) = some r ∧ u = c.userB) := by
  cases h with
  | found _ hw | notFound hw | failed _ hw | waits hw | renamed _ _ _ _ _ hw => exact .inl (hw ▸ hr)
  | ownerAdded room _ _ hstage _ hadded =>
    rcases hadded.hasRow_iff.1 hr with hr | ⟨rfl, rfl⟩
    · exact .inl hr
    · exact .inl (hcall.found _ (by rw [hstage]; rfl)).rowA
  | memberAdded room _ hstage _ hadded =>
    rcases hadded.hasRow_iff.1 hr with hr | ⟨rfl, rfl⟩
    · exact .inl hr
    · exact .inl (hcall.found _ (by rw [hstage]; rfl)).rowB
  | created room _ _ hnew _ _ hadded hst =>
    rcases hadded.hasRow_iff.1 hr with hr | ⟨rfl, rfl⟩
    · exact .inl hr
    · exact .inr (.inl ⟨by rw [hst]; rfl, hnew, rfl⟩)
  | secondAdded room _ hstage _ hadded =>
    rcases hadded.hasRow_iff.1 hr with hr | ⟨rfl, rfl⟩
    · exact .inl hr
    · exact .inr (.inr ⟨by rw [hstage]; rfl, rfl⟩)

omit h in
/-- A room of which nothing is known has no rows. -/
theorem not_hasRow_of_none (hw : RoomsInOrder w) (h : w.rooms.get r = none) :
    w.members.hasRow r u = false := by
  by_contra hrow
  obtain ⟨m, hm, hin⟩ := hasRow_iff.1 (Bool.not_eq_false _ ▸ hrow)
  have hknown := hw.known m hm
  rw [(isIn_iff.1 hin).1, h] at hknown
  cases hknown

/-- A private room was one, or has just been created. -/
theorem EnsureMove.isOpen (hr : (openOwner w' r).isSome = true) :
    (openOwner w r).isSome = true ∨ (halfMade st = some r ∧ w.rooms.get r = none) := by
  cases h with
  | found _ hw | notFound hw | failed _ hw | waits hw => exact .inl (hw ▸ hr)
  | renamed _ _ _ _ hrooms => exact .inl (hrooms.owner r ▸ hr)
  | ownerAdded _ _ _ _ hrooms | memberAdded _ _ _ hrooms | secondAdded _ _ _ hrooms =>
    exact .inl ((sameRooms_of_eq hrooms).owner r ▸ hr)
  | created room _ _ hnew howner _ _ hst =>
    rw [howner] at hr
    by_cases hid : r = room.id
    · exact .inr ⟨by rw [hst, hid]; rfl, hid ▸ hnew⟩
    · rw [if_neg hid] at hr
      exact .inl hr

/-- A room of two users that is new is the one that the call has completed. -/
theorem EnsureMove.pair (hw : RoomsInOrder w) (hcall : CallInOrder w c (.running stage))
    (hab : a ≠ b) (hp : PairRoom w' r a b) :
    PairRoom w r a b ∨ (halfMade (.running stage) = some r ∧
      ((a = c.userA ∧ b = c.userB) ∨ (a = c.userB ∧ b = c.userA))) := by
  rcases h.isOpen hp.isOpen with hopen | ⟨-, hnone⟩
  · have hknown : w.rooms.get r ≠ none := fun hnone => by
      rw [openOwner_of_none hnone] at hopen
      cases hopen
    rcases h.hasRow hcall hp.rowA with ha | ⟨-, hnone, -⟩ | ⟨hhalf, ha⟩
    · rcases h.hasRow hcall hp.rowB with hb | ⟨-, hnone, -⟩ | ⟨hhalf, hb⟩
      · exact .inl ⟨hopen, ha, hb⟩
      · exact absurd hnone hknown
      · exact .inr ⟨hhalf, .inl ⟨(hcall.half r hhalf).2.2.1 a ha, hb⟩⟩
    · exact absurd hnone hknown
    · rcases h.hasRow hcall hp.rowB with hb | ⟨-, hnone, -⟩ | ⟨-, hb⟩
      · exact .inr ⟨hhalf, .inr ⟨ha, (hcall.half r hhalf).2.2.1 b hb⟩⟩
      · exact absurd hnone hknown
      · exact absurd (ha.trans hb.symm) hab
  · -- The room has just been created, and only the first user has a row in it.
    have hrow : ∀ u, w'.members.hasRow r u = true → u = c.userA := by
      intro u hu
      rcases h.hasRow hcall hu with hold | ⟨-, -, hu⟩ | ⟨hhalf, -⟩
      · rw [not_hasRow_of_none hw hnone] at hold
        cases hold
      · exact hu
      · have howner := (hcall.half r hhalf).1
        rw [openOwner_of_none hnone] at howner
        cases howner
    exact absurd ((hrow a hp.rowA).trans (hrow b hp.rowB).symm) hab

/-! ## What a statement keeps -/

/-- Of another call. -/
theorem EnsureMove.others (hw : RoomsInOrder w) (hcall : CallInOrder w c (.running stage))
    (hother : CallInOrder w c' st') (hapart : MadeApart c (.running stage) c' st') :
    CallInOrder w' c' st' := by
  have hlater := h.later
  refine ⟨fun r hr => hlater.pair (hother.found r hr), fun room add hst => ?_, fun r hr => ?_,
    fun room hst => ?_⟩
  · obtain ⟨howner, hactive⟩ := hother.owned room add hst
    exact ⟨hlater.owner _ _ howner, hlater.active _ _ hactive⟩
  · obtain ⟨howner, hactive, honly, hnone⟩ := hother.half r hr
    refine ⟨hlater.owner _ _ howner, hlater.active _ _ hactive, fun u hu => ?_, fun r' hp => ?_⟩
    · rcases h.hasRow hcall hu with hold | ⟨-, hget, -⟩ | ⟨hhalf, -⟩
      · exact honly u hold
      · rw [openOwner_of_none hget] at howner
        cases howner
      · exact absurd rfl (hapart r r hhalf hr).1
    · rcases h.pair hw hcall c'.distinct hp with hold | ⟨hhalf, hsame⟩
      · exact hnone r' hold
      · refine (hapart r' r hhalf hr).2 ?_
        rcases hsame with ⟨ha, hb⟩ | ⟨ha, hb⟩
        · exact .inl ⟨ha.symm, hb.symm⟩
        · exact .inr ⟨hb.symm, ha.symm⟩
  · obtain ⟨hp, ha, hb⟩ := hother.answered room hst
    exact ⟨hlater.pair hp, hlater.active _ _ ha, hlater.active _ _ hb⟩

omit h

/-- A call of which there is nothing to say. -/
theorem callInOrder_of_none (hfound : foundRoom st = none) (hhalf : halfMade st = none)
    (hanswer : ∀ room, st ≠ .answered (.ok room)) : CallInOrder w c st := by
  refine ⟨fun r hr => ?_, fun room add hst => ?_, fun r hr => ?_, fun room hst => ?_⟩
  · rw [hfound] at hr
    cases hr
  · rw [hst] at hfound
    cases hfound
  · rw [hhalf] at hr
    cases hr
  · exact absurd hst (hanswer room)

/-- A call that has found a room, and has not made its first user the owner of it yet. -/
theorem callInOrder_of_found {room : ChatRoomRecord} (hp : PairRoom w room.id c.userA c.userB)
    (hst : st = .running (.rename room) ∨ ∃ add, st = .running (.addOwner room add)) :
    CallInOrder w c st := by
  have hhalf : halfMade st = none := by rcases hst with rfl | ⟨add, rfl⟩ <;> rfl
  have hfound : foundRoom st = some room.id := by rcases hst with rfl | ⟨add, rfl⟩ <;> rfl
  refine ⟨fun r hr => ?_, fun room' add hst' => ?_, fun r hr => ?_, fun room' hst' => ?_⟩
  · cases hfound.symm.trans hr
    exact hp
  · rcases hst with rfl | ⟨add, rfl⟩ <;> cases hst'
  · rw [hhalf] at hr
    cases hr
  · rcases hst with rfl | ⟨add, rfl⟩ <;> cases hst'

/-- A call that is answered. -/
theorem callInOrder_of_answer {room : ChatRoomRecord} (hst : st = .answered (.ok room))
    (hp : PairRoom w room.id c.userA c.userB) (ha : w.members.isActive room.id c.userA = true)
    (hb : w.members.isActive room.id c.userB = true) : CallInOrder w c st := by
  subst hst
  refine ⟨fun r hr => ?_, fun room add hst => ?_, fun r hr => ?_, fun room' hst => ?_⟩
  · cases hr
  · cases hst
  · cases hr
  · cases hst
    exact ⟨hp, ha, hb⟩

/-- And of its own. -/
theorem EnsureMove.self (h : EnsureMove c w x stage w' st) (hw : RoomsInOrder w)
    (hcall : CallInOrder w c (.running stage))
    (hcreates : stage = .create → w.findPrivateRoom c.userA c.userB = none)
    (howns : ∀ room add, stage = .addOwner room add → openOwner w room.id = some c.userA) :
    CallInOrder w' c st := by
  have hlater := h.later
  have hmove := h
  cases h with
  | found room hw' hp hst =>
    subst hw'
    exact callInOrder_of_found hp hst
  | notFound _ hst | failed _ _ hst =>
    subst hst
    exact callInOrder_of_none rfl rfl (by simp)
  | renamed room updated hstage hid _ _ add hst =>
    have hp := hlater.pair (hcall.found room.id (by rw [hstage]; rfl))
    exact callInOrder_of_found (hid ▸ hp) (.inr ⟨add, hst⟩)
  | waits hw' hst =>
    subst hw'
    rcases hst with ⟨room, add, add', rfl, rfl⟩ | ⟨room, add, add', rfl, rfl⟩ |
      ⟨room, add, add', rfl, rfl⟩
    · exact callInOrder_of_found (hcall.found room.id rfl) (.inr ⟨add', rfl⟩)
    · refine ⟨hcall.found, fun room' add hst => ?_, fun r hr => ?_, fun room hst => ?_⟩
      · cases hst
        exact hcall.owned room _ rfl
      · cases hr
      · cases hst
    · refine ⟨fun r hr => ?_, fun room add hst => ?_, hcall.half, fun room hst => ?_⟩
      · cases hr
      · cases hst
      · cases hst
  | ownerAdded room add add' hstage hrooms hadded hst =>
    have hp := hlater.pair (hcall.found room.id (by rw [hstage]; rfl))
    subst hst
    refine ⟨fun r hr => ?_, fun room' add hst => ?_, fun r hr => ?_, fun room hst => ?_⟩
    · cases hr
      exact hp
    · cases hst
      exact ⟨hlater.owner _ _ (howns room _ hstage), hadded.isActive_self⟩
    · cases hr
    · cases hst
  | memberAdded room add hstage hrooms hadded hst =>
    exact callInOrder_of_answer hst (hlater.pair (hcall.found room.id (by rw [hstage]; rfl)))
      (hlater.active _ _ (hcall.owned room add (by rw [hstage])).2) hadded.isActive_self
  | created room add hstage hnew howner hknown hadded hst =>
    subst hst
    refine ⟨fun r hr => ?_, fun room add hst => ?_, fun r hr => ?_, fun room hst => ?_⟩
    · cases hr
    · cases hst
    · cases hr
      refine ⟨(howner _).trans (if_pos rfl), hadded.isActive_self, fun u hu => ?_, fun r' hp => ?_⟩
      · rcases hadded.hasRow_iff.1 hu with hold | ⟨-, hu⟩
        · rw [not_hasRow_of_none hw hnew] at hold
          cases hold
        · exact hu
      · rcases hmove.pair hw hcall c.distinct hp with hold | ⟨hhalf, -⟩
        · exact findPrivateRoom_none (hcreates hstage) hold
        · rw [hstage] at hhalf
          cases hhalf
    · cases hst
  | secondAdded room add hstage hrooms hadded hst =>
    obtain ⟨howner, hactive, -, -⟩ := hcall.half room.id (by rw [hstage]; rfl)
    have ha := hlater.active _ _ hactive
    have hb := hadded.isActive_self
    refine callInOrder_of_answer hst ⟨?_, hasRow_of_isActive ha, hasRow_of_isActive hb⟩ ha hb
    rw [hlater.owner _ _ howner]
    rfl

/-- Rooms keep their owners when a user is added in the role of the owner, if it is the owner. -/
theorem owners_upsert {room user o : Uuid} {role : MemberRole} (h : OwnersKept w)
    (hrooms : w'.rooms = w.rooms) (hadded : Upserted w.members w'.members room user role)
    (ho : openOwner w room = some o) (hrole : role = .owner ↔ user = o) : OwnersKept w' := by
  have hsame := (sameRooms_of_eq hrooms).owner
  refine ⟨fun r o' hr => ?_, fun r o' hr m hm hroom hdeleted hmrole => ?_⟩
  · rw [hsame] at hr
    obtain ⟨m, hm, hactive, hmrole⟩ := h.owner r o' hr
    cases hin : m.isIn room user with
    | false => exact ⟨m, hadded.kept m hm hin, hactive, hmrole⟩
    | true =>
      obtain ⟨hroom, huser⟩ := isIn_iff.1 hin
      obtain ⟨hroom', huser'⟩ := isIn_iff.1 (isActiveIn_iff.1 hactive).1
      obtain rfl : r = room := hroom'.symm.trans hroom
      obtain rfl : o' = user := huser'.symm.trans huser
      obtain ⟨m', hm', hactive', hrole'⟩ := hadded.new
      exact ⟨m', hm', hactive', hrole'.trans (hrole.2 (Option.some.inj (hr.symm.trans ho)))⟩
  · rw [hsame] at hr
    rcases hadded.old m hm with ⟨hm, -⟩ | ⟨hactive, hmrole'⟩
    · exact h.others r o' hr m hm hroom hdeleted hmrole
    · obtain ⟨hroom', huser'⟩ := isIn_iff.1 (isActiveIn_iff.1 hactive).1
      obtain rfl : r = room := hroom.symm.trans hroom'
      have huser := hrole.1 (hmrole'.symm.trans hmrole)
      exact (huser'.trans huser).trans (Option.some.inj (ho.symm.trans hr))

/-- And when a room is created. -/
theorem owners_create {room user : Uuid} (hw : RoomsInOrder w) (hnew : w.rooms.get room = none)
    (howner : ∀ r, openOwner w' r = if r = room then some user else openOwner w r)
    (hadded : Upserted w.members w'.members room user .owner) : OwnersKept w' := by
  refine ⟨fun r o hr => ?_, fun r o hr m hm hroom hdeleted hrole => ?_⟩
  · rw [howner] at hr
    by_cases hid : r = room
    · rw [if_pos hid] at hr
      cases hr
      subst hid
      exact hadded.new
    · rw [if_neg hid] at hr
      obtain ⟨m, hm, hactive, hrole⟩ := hw.owners.owner r o hr
      refine ⟨m, hadded.kept m hm ?_, hactive, hrole⟩
      by_contra hin
      have hroom := (isIn_iff.1 (Bool.not_eq_false _ ▸ hin)).1
      exact hid ((isIn_iff.1 (isActiveIn_iff.1 hactive).1).1.symm.trans hroom)
  · rw [howner] at hr
    rcases hadded.old m hm with ⟨hm, -⟩ | ⟨hactive, -⟩
    · have hid : r ≠ room := by
        rintro rfl
        have hknown := hw.known m hm
        rw [hroom, hnew] at hknown
        cases hknown
      rw [if_neg hid] at hr
      exact hw.owners.others r o hr m hm hroom hdeleted hrole
    · obtain ⟨hroom', huser⟩ := isIn_iff.1 (isActiveIn_iff.1 hactive).1
      rw [if_pos (hroom.symm.trans hroom')] at hr
      exact huser.trans (Option.some.inj hr)

/-- Names and clocks do not matter to the rooms. -/
theorem RoomsInOrder.of_same (hw : RoomsInOrder w) (hrooms : SameRooms w w')
    (hmembers : w'.members = w.members) : RoomsInOrder w' := by
  have hlater := later_of_same hrooms hmembers
  have hback : Later w' w := later_of_same
    ⟨fun r => (hrooms.owner r).symm, fun r => (hrooms.known r).symm⟩ hmembers.symm
  refine ⟨fun m hm => hlater.known _ (hw.known m (hmembers ▸ hm)), fun a b r r' hab hp hp' =>
    hw.one a b r r' hab (hback.pair hp) (hback.pair hp'), fun r o hr => ?_, fun r o hr => ?_⟩
  · exact hmembers ▸ hw.owners.owner r o (hrooms.owner r ▸ hr)
  · exact hmembers ▸ hw.owners.others r o (hrooms.owner r ▸ hr)

/-- Nor to a call. -/
theorem CallInOrder.of_same (h : CallInOrder w c st) (hrooms : SameRooms w w')
    (hmembers : w'.members = w.members) : CallInOrder w' c st := by
  have hlater := later_of_same hrooms hmembers
  have hback : Later w' w := later_of_same
    ⟨fun r => (hrooms.owner r).symm, fun r => (hrooms.known r).symm⟩ hmembers.symm
  refine ⟨fun r hr => hlater.pair (h.found r hr), fun room add hst => ?_, fun r hr => ?_,
    fun room hst => ?_⟩
  · obtain ⟨howner, hactive⟩ := h.owned room add hst
    exact ⟨hlater.owner _ _ howner, hlater.active _ _ hactive⟩
  · obtain ⟨howner, hactive, honly, hnone⟩ := h.half r hr
    exact ⟨hlater.owner _ _ howner, hlater.active _ _ hactive,
      fun u hu => honly u (hback.row _ _ hu), fun r' hp => hnone r' (hback.pair hp)⟩
  · obtain ⟨hp, ha, hb⟩ := h.answered room hst
    exact ⟨hlater.pair hp, hlater.active _ _ ha, hlater.active _ _ hb⟩

/-- Of the rooms. -/
theorem EnsureMove.rooms (h : EnsureMove c w x stage w' st) (hw : RoomsInOrder w)
    (hcall : CallInOrder w c (.running stage))
    (howns : ∀ room add, stage = .addOwner room add → openOwner w room.id = some c.userA) :
    RoomsInOrder w' := by
  have hlater := h.later
  have hone : OneRoom w' := by
    have hmade : ∀ a b r r', halfMade (.running stage) = some r →
        ((a = c.userA ∧ b = c.userB) ∨ (a = c.userB ∧ b = c.userA)) → ¬ PairRoom w r' a b := by
      intro a b r r' hhalf hsame hp
      refine (hcall.half r hhalf).2.2.2 r' ?_
      rcases hsame with ⟨rfl, rfl⟩ | ⟨rfl, rfl⟩
      · exact hp
      · exact ⟨hp.isOpen, hp.rowB, hp.rowA⟩
    intro a b r r' hab hp hp'
    rcases h.pair hw hcall hab hp with hold | ⟨hhalf, hsame⟩
    · rcases h.pair hw hcall hab hp' with hold' | ⟨hhalf', hsame'⟩
      · exact hw.one a b r r' hab hold hold'
      · exact absurd hold (hmade a b r' r hhalf' hsame')
    · rcases h.pair hw hcall hab hp' with hold' | ⟨hhalf', -⟩
      · exact absurd hold' (hmade a b r r' hhalf hsame)
      · exact Option.some.inj (hhalf.symm.trans hhalf')
  have hupsert : ∀ {room user o : Uuid} {role : MemberRole}, w'.rooms = w.rooms →
      Upserted w.members w'.members room user role → openOwner w room = some o →
        (role = .owner ↔ user = o) → RoomsInOrder w' := by
    intro room user o role hrooms hadded ho hrole
    refine ⟨fun m hm => ?_, hone, owners_upsert hw.owners hrooms hadded ho hrole⟩
    rcases hadded.old m hm with ⟨hm, -⟩ | ⟨hactive, -⟩
    · exact hlater.known _ (hw.known m hm)
    · rw [(isIn_iff.1 (isActiveIn_iff.1 hactive).1).1]
      refine hlater.known _ ?_
      by_contra hnone
      rw [openOwner_of_none (Option.not_isSome_iff_eq_none.1 hnone)] at ho
      cases ho
  cases h with
  | found _ hw' | notFound hw' | failed _ hw' | waits hw' => exact hw'.symm ▸ hw
  | renamed _ _ _ _ hrooms hmembers => exact hw.of_same hrooms hmembers
  | ownerAdded room add _ hstage hrooms hadded =>
    exact hupsert hrooms hadded (howns room add hstage) (by simp)
  | memberAdded room add hstage hrooms hadded =>
    exact hupsert hrooms hadded (hcall.owned room add (by rw [hstage])).1
      (by simpa using c.distinct.symm)
  | secondAdded room add hstage hrooms hadded =>
    exact hupsert hrooms hadded (hcall.half room.id (by rw [hstage]; rfl)).1
      (by simpa using c.distinct.symm)
  | created room _ _ hnew howner hknown hadded =>
    refine ⟨fun m hm => ?_, hone, owners_create hw hnew howner hadded⟩
    rcases hadded.old m hm with ⟨hm, -⟩ | ⟨hactive, -⟩
    · exact hlater.known _ (hw.known m hm)
    · exact (hknown _).2 (.inl (isIn_iff.1 (isActiveIn_iff.1 hactive).1).1)

/-! ## Runs -/

/-- A room that a statement leaves half made has just been created, or was. -/
theorem EnsureMove.halfMade (h : EnsureMove c w x stage w' st) (hr : halfMade st = some r) :
    (stage = .create ∧ w.rooms.get r = none ∧ (w'.rooms.get r).isSome = true) ∨
      PrivateRooms.halfMade (.running stage) = some r := by
  cases h with
  | found room _ _ hst => rcases hst with rfl | ⟨add, rfl⟩ <;> cases hr
  | notFound _ hst | failed _ _ hst | renamed _ _ _ _ _ _ _ hst | ownerAdded _ _ _ _ _ _ hst
  | memberAdded _ _ _ _ _ hst | secondAdded _ _ _ _ _ hst =>
    subst hst
    cases hr
  | waits _ hst =>
    rcases hst with ⟨room, add, add', rfl, rfl⟩ | ⟨room, add, add', rfl, rfl⟩ |
      ⟨room, add, add', rfl, rfl⟩
    · cases hr
    · cases hr
    · exact .inr hr
  | created room add hstage hnew howner hknown hadded hst =>
    subst hst
    cases hr
    exact .inl ⟨hstage, hnew, (hknown _).2 (.inl rfl)⟩

end

section

variable {w : ChatWorld} {s : State}

/-- What has been created is known. -/
theorem made_each {G : Condition} (h : Reach privateRooms G (.idle w) s) :
    Each (fun _ => True)
      (fun w _ _ st => ∀ r, halfMade st = some r → (w.rooms.get r).isSome = true) s := by
  refine h.each (fun s i c _ r hr => ?_) (fun s i c stage x hE hcall _ _ => ?_)
    (fun w i c r hr => ?_) (fun w n _ => ⟨trivial, fun _ _ _ h => h⟩) (Overlap.each_idle trivial)
  · cases hr
  · have hmove := ensureMove (w := s.world) (c := c) (x := x) stage
    refine ⟨trivial, fun r hr => ?_, fun j c' st' _ _ hother r hr =>
      hmove.later.known r (hother r hr)⟩
    rcases hmove.halfMade hr with ⟨-, -, hsome⟩ | hold
    · exact hsome
    · exact hmove.later.known r (hE.2 i c _ hcall r hold)
  · cases hr

/-- No two calls have created the same room, nor rooms for the same two users. -/
theorem made_apart (h : Reach privateRooms CreatesAlone (.idle w) s) : EachTwo MadeApart s := by
  refine Reach.apart (P := privateRooms) (fun s' hs' => made_each hs') ?_ ?_ ?_ ?_ h
    Overlap.apart_idle
  · intro c st c' st' happ r r' hr hr'
    obtain ⟨hne, hpair⟩ := happ r' r hr' hr
    exact ⟨hne.symm, fun hsame => hpair hsame.symm⟩
  · intro c c' st' r r' hr
    cases hr
  · intro s i c stage x hE hR hcall _ hG j c' st' hji hj r r' hr hr'
    have hmove := ensureMove (w := s.world) (c := c) (x := x) stage
    rcases hmove.halfMade hr with ⟨rfl, hnew, -⟩ | hold
    · refine ⟨?_, fun hsame => ?_⟩
      · rintro rfl
        have hknown := hE.2 j c' st' hj r hr'
        rw [hnew] at hknown
        cases hknown
      · rw [(hG.creates c hcall).2 j c' st' hji hj hsame] at hr'
        cases hr'
    · exact hR i j c _ c' st' (Ne.symm hji) hcall hj r r' hold hr'
  · intro c c' st' r r' hr
    cases hr

/-- The rooms and the calls stay in order. -/
theorem rooms_each (hw : RoomsInOrder w) (h : Reach privateRooms CreatesAlone (.idle w) s) :
    Each RoomsInOrder (fun w _ c st => CallInOrder w c st) s := by
  have hstrong := h.strengthen (I := EachTwo MadeApart) fun s' hs' => made_apart hs'
  refine hstrong.each (fun s i c _ => ?_) (fun s i c stage x hE hcall _ hG => ?_)
    (fun w i c => ?_) (fun w n hw => ?_) (Overlap.each_idle hw)
  · exact callInOrder_of_none rfl rfl (by simp)
  · have hmove := ensureMove (w := s.world) (c := c) (x := x) stage
    have hself := hE.2 i c _ hcall
    have howns : ∀ room add, stage = .addOwner room add →
        openOwner s.world room.id = some c.userA := by
      rintro room add rfl
      exact hG.1.owns c room add hcall
    refine ⟨hmove.rooms hE.1 hself howns, hmove.self hE.1 hself ?_ howns,
      fun j c' st' hji hj hother => hmove.others hE.1 hself hother
        (hG.2 i j c _ c' st' (Ne.symm hji) hcall hj)⟩
    rintro rfl
    exact (hG.1.creates c hcall).1
  · exact callInOrder_of_none rfl rfl (by simp)
  · exact ⟨hw.of_same (sameRooms_of_eq rfl) rfl,
      fun i c st hst => hst.of_same (sameRooms_of_eq rfl) rfl⟩

end

/-! ## One room for two users -/

/-- **One room for two users**, whatever calls overlap, as long as each that creates a room does so
alone, and each makes the owner the owner. -/
theorem private_rooms_hold {w : ChatWorld} {s : State} (hw : RoomsInOrder w)
    (h : Reach privateRooms CreatesAlone (.idle w) s) : PrivateRoomsHold s := by
  have hE := rooms_each hw h
  exact ⟨hE.1.one, fun i c room hi => (hE.2 i c _ hi).answered room rfl, hE.1.owners⟩

/-- No rooms. -/
def noRooms : ChatWorld := ⟨100, .empty, .empty⟩

theorem noRooms_inOrder : RoomsInOrder noRooms := by
  refine ⟨fun m hm => ?_, fun a b r r' _ hp _ => ?_, fun r o ho => ?_, fun r o ho => ?_⟩
  · cases hm
  · cases hp.isOpen
  · cases ho
  · cases ho

/-- One user's call, and the other's. -/
def ensureFirst : EnsurePrivateRoom := ⟨1, 2, "ann and bob", by decide⟩

def ensureSecond : EnsurePrivateRoom := ⟨2, 1, "ann and bob", by decide⟩

/-- The statements of a call, one after another, with new ids each. -/
def runs (i n first : ℕ) : List Act :=
  (List.range n).map fun k => .run i ⟨first + 2 * k, first + 2 * k + 1⟩

/-- Both find no room, and both create one. -/
def bothCreate : List Act :=
  [.start 0 ensureFirst, .start 1 ensureSecond, .run 0 ⟨200, 201⟩, .run 1 ⟨202, 203⟩] ++
    runs 0 3 300 ++ runs 1 3 400

theorem two_rooms_created :
    ¬ ∀ (w : ChatWorld) (s : State), RoomsInOrder w →
      Reach privateRooms (fun _ _ _ => True) (.idle w) s → PrivateRoomsHold s := by
  intro h
  have hrun : (Overlap.perform privateRooms (fun _ _ _ => true) bothCreate
      (.idle noRooms)).map (fun s => ([300, 400].all fun r =>
        (openOwner s.world r).isSome && s.world.members.hasRow r 1 &&
          s.world.members.hasRow r 2)) = some true := by
    decide +kernel
  obtain ⟨s, hs, hrows⟩ := Option.map_eq_some_iff.1 hrun
  simp only [List.all_cons, List.all_nil, Bool.and_eq_true, and_true] at hrows
  obtain ⟨⟨⟨hopen, hrow⟩, hrow'⟩, ⟨hopen₂, hrow₂⟩, hrow₂'⟩ := hrows
  have hone := (h noRooms s noRooms_inOrder (Reach.of_perform (fun _ _ _ _ => trivial) hs)).one
  exact absurd (hone 1 2 300 400 (by decide) ⟨hopen, hrow, hrow'⟩ ⟨hopen₂, hrow₂, hrow₂'⟩)
    (by decide)

/-- The condition, decided of the first calls. -/
def createsAlone (n : ℕ) (s : State) (i : ℕ) (_ : NewIds) : Bool :=
  match s.calls i with
  | some (c, .running .create) =>
    (s.world.findPrivateRoom c.userA c.userB).isNone &&
      s.allBelow n fun j c' st => j = i || !decide (SamePair c c') || (halfMade st).isNone
  | some (c, .running (.addOwner room _)) => openOwner s.world room.id = some c.userA
  | _ => true

theorem createsAlone_of_check {n : ℕ} {s : State} {i : ℕ} {x : NewIds} (hs : s.Below n)
    (h : createsAlone n s i x = true) : CreatesAlone s i x := by
  refine ⟨fun c hi => ?_, fun c room stage hi => ?_⟩
  · simp only [createsAlone, hi, Bool.and_eq_true, Option.isNone_iff_eq_none] at h
    refine ⟨h.1, fun j c' st hji hj hsame => ?_⟩
    have hcheck := hs.of_all h.2 hj
    simpa [hji, hsame] using hcheck
  · simpa only [createsAlone, hi, decide_eq_true_eq] using h

/-- A user ensures the room twice, and the second call, under another name for it, overlaps with
one for two others. -/
def ensuredAgain : List Act :=
  .start 0 ensureFirst :: runs 0 4 200 ++
    [.start 1 ⟨1, 2, "bob and ann", by decide⟩, .start 2 ⟨3, 1, "cy and ann", by decide⟩] ++
      [.run 1 ⟨300, 301⟩, .run 2 ⟨302, 303⟩] ++ runs 1 3 400 ++ runs 2 3 500

/-- They have the one room, renamed. -/
theorem private_rooms_hold_sample :
    ∃ s, Overlap.perform privateRooms (createsAlone 3) ensuredAgain (.idle noRooms) = some s ∧
      (s.world.rooms.rows.map fun r => (r.id, r.name)) =
        [(202, "bob and ann"), (500, "cy and ann")] ∧
      PrivateRoomsHold s := by
  have hrun : (Overlap.perform privateRooms (createsAlone 3) ensuredAgain (.idle noRooms)).map
      (fun s => s.world.rooms.rows.map fun r => (r.id, r.name)) =
        some [(202, "bob and ann"), (500, "cy and ann")] := by
    decide +kernel
  obtain ⟨s, hs, hrows⟩ := Option.map_eq_some_iff.1 hrun
  refine ⟨s, hs, hrows, private_rooms_hold noRooms_inOrder ?_⟩
  exact Reach.of_perform_below (fun s i x hs h => createsAlone_of_check hs h) (by decide)
    (fun j _ => rfl) hs

end PrivateRooms

end RedcodeIm
