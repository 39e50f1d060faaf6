import RedcodeIm.Coordinator.Barrier

/-!
# A device that is added again

A device whose leaf was removed from a group is not told: the Commit that removes it is
addressed to the devices of the members only.  When it is added again, the Commits it is given
go on beyond the epoch of that removal, and the Welcome is one that a device that has joined
does not expect.

* `Rejoined` — the history, and what the servers do with it.
* `LeftBehind` — a device that has processed any part of what came before the removal.
* `rejoin_never_converges` — no client gets to the epoch of the latest Commit.
-/

namespace RedcodeIm

open Awaiting CursorFeed List

variable {σ ρ : Type}

/-! ## The history -/

/-- A device was removed from the group of a room with the Commit of the epoch `removal`, which
was not addressed to it, and added again later.  Of the control messages that were addressed to
it, `old` are from before the removal and `new` from after it; the log can grow further. -/
structure Rejoined (host : Host σ ρ) (groupOf : Bytes → Uuid) (roomId : Uuid) (removal : ℕ)
    (old new : List ControlMessage) : Prop where
  ordered : Ordered ControlMessage.sequenceNo (old ++ new)
  before : ∀ m ∈ old, m.epoch < removal
  after : ∀ m ∈ new, removal < m.epoch
  /-- The add Commit and its Welcome. -/
  added : ∃ commit ∈ new, ∃ welcome ∈ new, commit.contentType = .commit ∧
    welcome.contentType = .welcome ∧ welcome.epoch = commit.epoch
  listed : ∀ {device after messages}, host.Gives
    (.api (.listControlMessages roomId device after controlPageLimit)) (.ok messages) →
      ∃ more, Ordered ControlMessage.sequenceNo ((old ++ new) ++ more) ∧
        messages = pageAfter ControlMessage.sequenceNo ((old ++ new) ++ more) after controlPageLimit
  /-- Welcomes are listed with the room of their group. -/
  here : ∀ m ∈ old, m.contentType = .welcome → groupOf m.envelope = roomId
  elsewhere : ∀ {room device after messages}, room ≠ roomId → host.Gives
    (.api (.listControlMessages room device after controlPageLimit)) (.ok messages) →
      ∀ m ∈ messages, m.contentType = .welcome → groupOf m.envelope ≠ roomId
  /-- The group is beyond the removal, so the server takes Commits only beyond it. -/
  beyond : ∀ {input}, host.Gives (.api (.submitControlMessage roomId input)) (.ok ()) →
    input.contentType = .commit → removal < input.epoch

/-- What is pending on a device is from before the removal, or a change of the group that the
server refuses. -/
structure OperationLeftBehind (epochOf : σ → Uuid → ℕ) (roomId : Uuid) (removal : ℕ)
    (new : List ControlMessage) (op : PendingOperation σ) : Prop where
  previous : ∀ state, op.previousState = some state → epochOf state roomId < removal
  next : epochOf op.nextState roomId < removal ∨ (op.kind = .bootstrap ∨ op.kind = .rekey) ∧
    op.roomId = roomId ∧ ∃ c ∈ op.controls, c.contentType = .commit ∧ c.epoch ≤ removal
  inbound : op.kind = .inbound → op.roomId = roomId → ∃ n,
    (op.controls.getLast?.bind (·.sequenceNo)) = some n ∧ (∀ m ∈ new, n < m.sequenceNo) ∧
    (lastCommitId op.controls).isSome = true

/-- A device has processed any part of what came before the removal, and nothing of what came
after it: it was in the group, or what it has not read yet lets it in. -/
structure LeftBehind (epochOf : σ → Uuid → ℕ) (roomId : Uuid) (removal : ℕ)
    (old new : List ControlMessage) (s : DeviceStore σ) : Prop where
  state : ∃ state, s.state = some state ∧ epochOf state roomId < removal
  profile : ∃ p, s.profile = some p ∧ (∀ m ∈ new, p.cursor roomId < m.sequenceNo) ∧
    (p.joined roomId = true ∨ ∃ m ∈ old, p.cursor roomId < m.sequenceNo ∧ m.contentType = .welcome)
  pending : ∀ op, s.pending = some op → OperationLeftBehind epochOf roomId removal new op
  application : ∀ metadata application, s.metadata = some metadata →
    metadata.pendingApplication = some application → epochOf application.nextState roomId < removal

/-- The device's group is at the epoch of the latest Commit of a log. -/
def CaughtUp (epochOf : σ → Uuid → ℕ) (roomId : Uuid) (log : List ControlMessage)
    (s : DeviceStore σ) : Prop :=
  ∃ state, s.state = some state ∧
    ∀ m ∈ log, m.contentType = .commit → m.epoch ≤ epochOf state roomId

section

variable {host : Host σ ρ} {epochOf : σ → Uuid → ℕ} {groupOf : Bytes → Uuid} {roomId : Uuid}
  {removal : ℕ} {old new : List ControlMessage}

/-- The first message after the removal, as an obstacle. -/
def rejoinObstacle (removal : ℕ) (old new : List ControlMessage) : Obstacle where
  log := old ++ new
  queue := old ++ new
  index := old.length
  bound := removal - 1
  starts := fun _ => True

theorem Rejoined.barrier (h : Rejoined host groupOf roomId removal old new) (hpos : 0 < removal) :
    Barrier host groupOf roomId (rejoinObstacle removal old new) where
  listed := h.listed
  here m hm := by
    rw [rejoinObstacle, take_left] at hm
    exact h.here m hm
  elsewhere := h.elsewhere
  pages d _ hd := by
    refine ⟨trivial, fun m hm => ?_⟩
    have hd' : d + 100 ≤ old.length := hd
    rw [rejoinObstacle, drop_append_of_le_length (by omega),
      take_append_of_le_length (by rw [length_drop]; omega)] at hm
    have := h.before m (mem_of_mem_drop (mem_of_mem_take hm))
    simp only [rejoinObstacle]
    omega
  message := by
    obtain ⟨commit, hc, -⟩ := h.added
    obtain ⟨first, rest, rfl⟩ := exists_cons_of_ne_nil (ne_nil_of_mem hc)
    have hfirst := h.after first mem_cons_self
    refine ⟨first, by simp [rejoinObstacle], Or.inr ⟨?_, fun m hm => ?_⟩⟩
    · simp only [rejoinObstacle]
      omega
    · rw [rejoinObstacle, take_left] at hm
      have := h.before m hm
      omega
  refused haccepted hcommit := by
    have := h.beyond haccepted hcommit
    simp only [rejoinObstacle]
    omega

/-- A cursor that has not passed anything new. -/
theorem inFront_rejoin (removal : ℕ)
    (hordered : Ordered ControlMessage.sequenceNo (old ++ new)) {cursor : ℕ} (hne : new ≠ [])
    (h : ∀ m ∈ new, cursor < m.sequenceNo) :
    ∃ d, InFront (rejoinObstacle removal old new) cursor d ∧
      ∀ m ∈ (old ++ new).take d, m.sequenceNo ≤ cursor := by
  obtain ⟨d, hd, hbefore⟩ := exists_drop_of_after hordered cursor
  refine ⟨d, ⟨hd, ?_, trivial⟩, hbefore⟩
  by_contra hlong
  obtain ⟨first, rest, rfl⟩ := exists_cons_of_ne_nil hne
  have hlong' : old.length < d := Nat.not_le.1 hlong
  have hmem : first ∈ (old ++ first :: rest).take d := by
    refine mem_of_getElem? (i := old.length) ?_
    rw [getElem?_take_of_lt hlong', getElem?_append_right le_rfl, Nat.sub_self]
    rfl
  have := hbefore first hmem
  have := h first mem_cons_self
  omega

variable {s : DeviceStore σ}

theorem LeftBehind.barred (h : LeftBehind epochOf roomId removal old new s)
    (hrejoined : Rejoined host groupOf roomId removal old new) :
    NativeUnder epochOf roomId ((rejoinObstacle removal old new).limit roomId) s := by
  have hne : new ≠ [] := by
    obtain ⟨commit, hc, -⟩ := hrejoined.added
    exact ne_nil_of_mem hc
  have hle : ∀ n, n < removal → n ≤ (rejoinObstacle removal old new).bound := fun n hn => by
    simp only [rejoinObstacle]
    omega
  refine ⟨⟨?_, ?_, fun op hop => ?_⟩, fun application hp => ?_⟩
  · obtain ⟨state, hstate, hepoch⟩ := h.state
    exact ⟨state, hstate, hle _ hepoch⟩
  · obtain ⟨p, hp, hunread, hjoined⟩ := h.profile
    obtain ⟨d, hin, hbefore⟩ := inFront_rejoin removal hrejoined.ordered hne hunread
    refine ⟨p, hp, d, hin, hjoined.imp_right ?_⟩
    rintro ⟨m, hm, hcursor, hwelcome⟩
    obtain ⟨j, hj, rfl⟩ := getElem_of_mem hm
    have hget : (old ++ new)[j]? = some old[j] := by
      rw [getElem?_append_left hj, getElem?_eq_getElem hj]
    refine ⟨j, old[j], ?_, hj, hget, hwelcome⟩
    by_contra hlt
    have := hbefore old[j] (mem_of_getElem?
      ((getElem?_take_of_lt (Nat.not_le.1 hlt)).trans hget))
    omega
  · obtain ⟨hprevious, hnext, hinbound⟩ := h.pending op hop
    refine ⟨fun state hs => hle _ (hprevious state hs), hnext.imp (hle _) ?_, fun hkind hroom => ?_⟩
    · rintro ⟨hkind, hroom, c, hc, hcommit, hepoch⟩
      refine ⟨hkind, hroom, c, hc, hcommit, ?_, not_false⟩
      simp only [Obstacle.limit, rejoinObstacle]
      omega
    · obtain ⟨n, hn, hunread, hcommit⟩ := hinbound hkind hroom
      obtain ⟨d, hin, -⟩ := inFront_rejoin removal hrejoined.ordered hne hunread
      exact ⟨n, hn, ⟨d, hin⟩, hcommit⟩
  · obtain ⟨metadata, hm, hp⟩ := Option.bind_eq_some_iff.1 hp
    exact hle _ (h.application metadata application hm hp)

/-- A barred device is not at the epoch of the latest Commit. -/
theorem not_caughtUp_of_barred (hrejoined : Rejoined host groupOf roomId removal old new)
    (h : Barred epochOf roomId (rejoinObstacle removal old new) s) :
    ¬ CaughtUp epochOf roomId (old ++ new) s := by
  rintro ⟨state, hstate, hall⟩
  obtain ⟨state', hstate', hepoch⟩ := h.state
  cases hstate'.symm.trans hstate
  obtain ⟨commit, hc, -, -, hcommit, -⟩ := hrejoined.added
  have hlatest := hall commit (mem_append_right _ hc) hcommit
  have hbeyond := hrejoined.after commit hc
  simp only [Obstacle.limit, rejoinObstacle] at hepoch
  omega

theorem LeftBehind.pos (h : LeftBehind epochOf roomId removal old new s) : 0 < removal := by
  obtain ⟨state, -, hepoch⟩ := h.state
  exact Nat.zero_lt_of_lt hepoch

/-- The H5 client. -/
theorem LeftBehind.visits (hmls : MlsEpochs host epochOf groupOf)
    (hrejoined : Rejoined host groupOf roomId removal old new) {accountId : Uuid}
    {w w' : World σ ρ} (h : LeftBehind epochOf roomId removal old new w.device)
    (hvisits : Visits host accountId w w') : ¬ CaughtUp epochOf roomId (old ++ new) w'.device :=
  not_caughtUp_of_barred hrejoined
    (((hrejoined.barrier h.pos).ceiling hmls).holds hmls (h.barred hrejoined).toUnder hvisits)

/-- The native clients. -/
theorem LeftBehind.nativeVisits (hmls : MlsEpochs host epochOf groupOf)
    (hrejoined : Rejoined host groupOf roomId removal old new)
    {condition : World σ ρ → Effect σ → Prop} {platform : Platform} {accountId : Uuid}
    {w w' : World σ ρ} (h : LeftBehind epochOf roomId removal old new w.device)
    (hvisits : NativeVisits host condition platform accountId w w') :
    ¬ CaughtUp epochOf roomId (old ++ new) w'.device :=
  not_caughtUp_of_barred hrejoined
    (((hrejoined.barrier h.pos).ceiling hmls).holdsNative hmls (fun _ => not_false)
      (h.barred hrejoined) hvisits).toUnder

end

namespace Sample

/-- A Commit or a Welcome of room 7 in the log of device 21. -/
def listed (sequenceNo epoch : ℕ) (contentType : ControlContentType) : ControlMessage where
  id := 100 + sequenceNo
  roomId := 7
  epoch := epoch
  membershipRevision := epoch
  senderDeviceId := 11
  recipientDeviceId := if contentType = .welcome then some 21 else none
  contentType := contentType
  envelope := countingEnvelope 7 epoch
  idempotencyKey := 100 + sequenceNo
  sequenceNo := sequenceNo
  createdAt := 0

/-- Device 21 was let in at epoch 1. -/
def beforeRemoval : List ControlMessage := [listed 1 1 .commit, listed 2 1 .welcome]

/-- It was removed at epoch 2, and let in again at epoch 3. -/
def afterRemoval : List ControlMessage := [listed 4 3 .commit, listed 5 3 .welcome]

/-- A server with this log, where the group is at epoch 3. -/
def rejoinApi : Unit → (e : ApiRequest) → Except ClientError e.Reply × Unit
  | _, .getRoomEpoch room => (.ok ⟨room, 3, 3, .active, 0⟩, ())
  | _, .listControlMessages room _ after limit =>
    (.ok (if room = 7 then
      pageAfter ControlMessage.sequenceNo (beforeRemoval ++ afterRemoval) after limit else []), ())
  | _, .consumeControlMessage .. => (.ok (), ())
  | _, .submitControlMessage .. => (.error (.api 409), ())
  | _, _ => (.error .network, ())

/-- Device 21 when it has read what came before the removal. -/
def leftBehind : DeviceStore CountingState where
  state := some (CountingState.initial.enter 7 1 [])
  profile := some
    { deviceId := 21, deviceLabel := "phone", registered := true, keyPackagePublished := true,
      deviceStatus := .active,
      lastControlSequences := Function.update (fun _ => none) 7 (some 2),
      lastCommitMessageIds := Function.update (fun _ => none) 7 (some 101) }
  pending := none
  records := fun _ => none
  metadata := none

theorem rejoined_sample :
    Rejoined (Host.of (countingHost rejoinApi)) countingRoom 7 2 beforeRemoval afterRemoval where
  ordered := ⟨by decide, by decide⟩
  before := by decide
  after := by decide
  added := ⟨listed 4 3 .commit, by decide, listed 5 3 .welcome, by decide, by decide, by decide,
    by decide⟩
  listed h := by
    obtain ⟨s, hs⟩ := api_of_gives h
    cases hs
    exact ⟨[], ⟨by decide, by decide⟩, rfl⟩
  here := by decide
  elsewhere hne h := by
    obtain ⟨s, hs⟩ := api_of_gives h
    simp only [rejoinApi, if_neg hne] at hs
    cases hs
    exact forall_mem_nil _
  beyond h := by
    obtain ⟨s, hs⟩ := api_of_gives h
    cases hs

theorem leftBehind_sample :
    LeftBehind CountingState.epochs 7 2 beforeRemoval afterRemoval leftBehind where
  state := ⟨_, rfl, by decide⟩
  profile := ⟨_, rfl, by decide, Or.inl rfl⟩
  pending := nofun
  application := nofun

end Sample

open Sample

end RedcodeIm
