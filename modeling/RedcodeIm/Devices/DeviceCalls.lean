import Mathlib.Algebra.Order.BigOperators.Group.List
import Mathlib.Algebra.Order.Group.Nat
import RedcodeIm.Database.Server
import RedcodeIm.Devices.TrustStep

/-!
# The devices between two calls

What a call of the backend, made while no other is in flight, does to the devices and the
identity of an account.

* `Server.register`, `call_registerDevice` — a registration from beginning to end.
* `RegisterCase` — what has become of one.
* `call_publish_one` — a publication of one key package.
* `Server.Settled.leaves` — what any call at all does.
-/

namespace RedcodeIm

open ReadCommitted Program PublishStage

/-! ## Registrations -/

/-- The second half of `register_device`, after the identity of the account. -/
def Server.registerRow (s : Server) (userId : Uuid) (input : RegisterDeviceInput)
    (firstDevice : Bool) (opening : List Write) : Except AppError Response × Server :=
  match s.db.devices.get input.deviceId with
  | some d =>
    if d.userId ≠ userId then (.error (.alreadyExists "device_id 已被其他账号使用"), s)
    else if !d.agrees input then
      (.error (.messageRuntimeConflict "device_id 已存在但设备凭据不一致"), s)
    else (.ok (.device d), { s with db := e2eeBackend.applyAll s.db opening })
  | none =>
    let d := input.device userId firstDevice s.now
    if d.checks && s.db.deviceUnique d then
      (.ok (.device d), { s with db := e2eeBackend.applyAll s.db (opening ++ [.insertDevice d]) })
    else (.error .databaseError, s)

/-- `register_device` from beginning to end. -/
def Server.register (s : Server) (userId : Uuid) (input : RegisterDeviceInput) :
    Except AppError Response × Server :=
  match s.db.identities.get userId with
  | some i =>
    if i.agrees input then s.registerRow userId input false []
    else (.error (.messageRuntimeConflict "账号根身份与已登记身份不一致"), s)
  | none =>
    if (input.identity userId s.now).checks then
      s.registerRow userId input true [.insertIdentity (input.identity userId s.now)]
    else (.error .databaseError, s)

section

variable {s : Server} {userId : Uuid} {input : RegisterDeviceInput}

/-- The outcome of a call with the writes it has made. -/
abbrev Server.comesTo (s : Server) (out : Except AppError Response × Server)
    (r : Request) (fuel : ℕ) (stage : r.Stage) (writes : List Write) : Prop :=
  e2eeBackend.solo r s.db s.now fuel s.seq stage writes
    = some ((out.2.db, out.2.seq), out.1) ∧ out.2.now = s.now

theorem comesTo_registerRow (firstDevice : Bool) (opening : List Write) (n : ℕ)
    (hdevices : (e2eeBackend.applyAll s.db opening).devices = s.db.devices) :
    s.comesTo (s.registerRow userId input firstDevice opening) (.registerDevice userId input)
      (n + 3) (RegisterStage.selectDevice firstDevice) opening := by
  let view : DbView := ⟨e2eeBackend.applyAll s.db opening, s.seq, s.now, fun _ _ => false⟩
  have hget : view.db.devices.get input.deviceId = s.db.devices.get input.deviceId := by
    rw [hdevices]
  rw [Server.comesTo, Server.registerRow]
  cases hd : s.db.devices.get input.deviceId with
  | some d =>
    rw [hd] at hget
    have hselect : registerDevice userId input view (.selectDevice firstDevice) =
        if d.userId ≠ userId then .fail (.alreadyExists "device_id 已被其他账号使用")
        else if !d.agrees input then
          .fail (.messageRuntimeConflict "device_id 已存在但设备凭据不一致")
        else .next .selectRecord [] [] 0 := by
      simp only [registerDevice, hget]
    have hrecord : registerDevice userId input view .selectRecord = .next (.commit d) [] [] 0 := by
      simp only [registerDevice, hget]
    dsimp only
    by_cases hu : d.userId ≠ userId
    · rw [if_pos hu] at hselect ⊢
      exact ⟨solo_fail hselect, rfl⟩
    · rw [if_neg hu] at hselect ⊢
      by_cases ha : (!d.agrees input) = true
      · rw [if_pos ha] at hselect ⊢
        exact ⟨solo_fail hselect, rfl⟩
      · rw [if_neg ha] at hselect ⊢
        refine ⟨(solo_next hselect).trans ?_, rfl⟩
        rw [List.append_nil]
        refine (solo_next hrecord).trans ?_
        rw [List.append_nil]
        exact solo_commit rfl
  | none =>
    rw [hd] at hget
    have hselect : registerDevice userId input view (.selectDevice firstDevice) =
        .next (.insertDevice firstDevice) [] [] 0 := by
      simp only [registerDevice, hget]
    have hunique : view.db.deviceUnique (input.device userId firstDevice s.now)
        = s.db.deviceUnique (input.device userId firstDevice s.now) := by
      simp only [Db.deviceUnique, view, hdevices]
    have hinsert : registerDevice userId input view (.insertDevice firstDevice) =
        if ((input.device userId firstDevice s.now).checks
            && s.db.deviceUnique (input.device userId firstDevice s.now)) = true then
          .next (.commit (input.device userId firstDevice s.now)) []
            [.insertDevice (input.device userId firstDevice s.now)] 0
        else .fail .databaseError := by
      rw [← hunique]
      rfl
    by_cases hc : ((input.device userId firstDevice s.now).checks
        && s.db.deviceUnique (input.device userId firstDevice s.now)) = true
    · rw [if_pos hc] at hinsert ⊢
      refine ⟨(solo_next hselect).trans ?_, rfl⟩
      rw [List.append_nil]
      exact (solo_next hinsert).trans (solo_commit rfl)
    · rw [if_neg hc] at hinsert ⊢
      refine ⟨(solo_next hselect).trans ?_, rfl⟩
      rw [List.append_nil]
      exact solo_fail hinsert

/-- A registration that no other call gets in the way of. -/
theorem call_registerDevice : s.call (.registerDevice userId input) = s.register userId input := by
  have hlock : registerDevice userId input ⟨s.db, s.seq, s.now, fun _ _ => false⟩ .lockAccount
      = .next .selectIdentity [(.account userId, .update)] [] 0 := rfl
  have hfirst : e2eeBackend.solo (.registerDevice userId input) s.db s.now 16 s.seq
      RegisterStage.lockAccount [] = e2eeBackend.solo (.registerDevice userId input) s.db s.now 15
        s.seq RegisterStage.selectIdentity [] := solo_read hlock
  have hcall : s.comesTo (s.register userId input) (.registerDevice userId input) 15
      RegisterStage.selectIdentity [] → s.call (.registerDevice userId input)
        = s.register userId input := by
    rintro ⟨hsolo, hnow⟩
    rw [Server.call_of_solo (hfirst.trans hsolo), ← hnow]
  refine hcall ?_
  rw [Server.register]
  cases hi : s.db.identities.get userId with
  | some i =>
    have hselect : registerDevice userId input ⟨s.db, s.seq, s.now, fun _ _ => false⟩
        .selectIdentity = if i.agrees input then .next (.selectDevice false) [] [] 0
          else .fail (.messageRuntimeConflict "账号根身份与已登记身份不一致") := by
      simp only [registerDevice, hi]
    dsimp only
    by_cases ha : i.agrees input = true
    · rw [if_pos ha] at hselect ⊢
      obtain ⟨hsolo, hnow⟩ : s.comesTo (s.registerRow userId input false []) _ 14 _ [] :=
        comesTo_registerRow false [] 11 rfl
      exact ⟨(solo_read hselect).trans hsolo, hnow⟩
    · rw [if_neg ha] at hselect ⊢
      exact ⟨solo_fail hselect, rfl⟩
  | none =>
    have hselect : registerDevice userId input ⟨s.db, s.seq, s.now, fun _ _ => false⟩
        .selectIdentity = .next .insertIdentity [] [] 0 := by
      simp only [registerDevice, hi]
    by_cases hc : (input.identity userId s.now).checks = true
    · have hinsert : registerDevice userId input
          ⟨e2eeBackend.applyAll s.db [], s.seq, s.now, fun _ _ => false⟩ .insertIdentity
            = .next (.selectDevice true) [] [.insertIdentity (input.identity userId s.now)] 0 := by
        simp only [registerDevice, applyAll_nil, hi, hc, decide_true, Bool.and_self,
          if_true]
      rw [if_pos hc]
      obtain ⟨hsolo, hnow⟩ := comesTo_registerRow true
        [.insertIdentity (input.identity userId s.now)] 10 rfl
      exact ⟨(solo_read hselect).trans ((solo_next hinsert).trans hsolo), hnow⟩
    · have hinsert : registerDevice userId input
          ⟨e2eeBackend.applyAll s.db [], s.seq, s.now, fun _ _ => false⟩ .insertIdentity
            = .fail .databaseError := by
        simp only [registerDevice, applyAll_nil, hc, Bool.false_and, Bool.false_eq_true,
          if_false]
      rw [if_neg hc]
      refine ⟨(solo_read hselect).trans ?_, rfl⟩
      exact solo_fail hinsert

end

/-- What has become of a registration. -/
inductive RegisterCase (s : Server) (userId : Uuid) (input : RegisterDeviceInput) :
    Except AppError Response × Server → Prop where
  | refused (err : AppError) : RegisterCase s userId input (.error err, s)
  /-- The device has been registered before. -/
  | found (i : AccountIdentity) (d : Device) (hi : s.db.identities.get userId = some i)
      (ha : i.agrees input = true) (hd : s.db.devices.get input.deviceId = some d)
      (hu : d.userId = userId) (hagrees : d.agrees input = true) :
      RegisterCase s userId input (.ok (.device d), s)
  /-- A further device of the account. -/
  | later (i : AccountIdentity) (hi : s.db.identities.get userId = some i)
      (ha : i.agrees input = true) (hd : s.db.devices.get input.deviceId = none) :
      RegisterCase s userId input (.ok (.device (input.device userId false s.now)),
        { s with
          db := e2eeBackend.applyAll s.db [.insertDevice (input.device userId false s.now)] })
  /-- The first device of the account. -/
  | first (hi : s.db.identities.get userId = none)
      (hd : s.db.devices.get input.deviceId = none) :
      RegisterCase s userId input (.ok (.device (input.device userId true s.now)),
        { s with db := e2eeBackend.applyAll s.db [.insertIdentity (input.identity userId s.now),
            .insertDevice (input.device userId true s.now)] })

variable {s : Server} {userId : Uuid}

theorem register_cases {input : RegisterDeviceInput}
    (hown : ∀ d ∈ s.db.devices.rows, ∃ i, s.db.identities.get d.userId = some i) :
    RegisterCase s userId input (s.register userId input) := by
  rw [Server.register]
  cases hi : s.db.identities.get userId with
  | some i =>
    dsimp only
    split
    case isFalse => exact .refused _
    case isTrue ha =>
      rw [Server.registerRow]
      cases hd : s.db.devices.get input.deviceId with
      | some d =>
        dsimp only
        split
        case isTrue => exact .refused _
        case isFalse hu =>
          split
          case isTrue => exact .refused _
          case isFalse hagrees => exact .found i d hi ha hd (not_not.1 hu) (by simpa using hagrees)
      | none =>
        dsimp only
        split
        case isTrue => exact .later i hi ha hd
        case isFalse => exact .refused _
  | none =>
    dsimp only
    split
    case isFalse => exact .refused _
    case isTrue =>
      rw [Server.registerRow]
      cases hd : s.db.devices.get input.deviceId with
      | some d =>
        dsimp only
        split
        case isTrue => exact .refused _
        case isFalse hu =>
          -- an account without an identity has no device
          obtain ⟨i, hi'⟩ := hown d (Table.mem_of_get hd)
          rw [not_not.1 hu, hi] at hi'
          cases hi'
      | none =>
        dsimp only
        split
        case isTrue => exact .first hi hd
        case isFalse => exact .refused _

/-! ## Publications -/

/-- The key packages at the server have all expired. -/
def Server.Expired (s : Server) : Prop := ∀ k ∈ s.db.keyPackages.rows, k.expiresAt ≤ s.now

theorem exists_expired (s : Server) : ∃ n, (s.tick n).Expired := by
  refine ⟨(s.db.keyPackages.rows.map KeyPackage.expiresAt).sum, fun k hk => ?_⟩
  have hle : k.expiresAt ≤ (s.db.keyPackages.rows.map KeyPackage.expiresAt).sum :=
    List.single_le_sum (fun _ _ => Nat.zero_le _) _ (List.mem_map_of_mem hk)
  exact Nat.le_trans hle (Nat.le_add_left _ _)

theorem exists_fresh_keyPackage (db : Db) : ∃ id, db.keyPackages.get id = none := by
  refine ⟨(db.keyPackages.rows.map KeyPackage.id).sum + 1,
    Table.get_eq_none_iff.mpr fun k hk he => ?_⟩
  have hle : k.id ≤ (db.keyPackages.rows.map KeyPackage.id).sum :=
    List.single_le_sum (fun _ _ => Nat.zero_le _) _ (List.mem_map_of_mem hk)
  rw [he] at hle
  exact absurd hle (Nat.not_succ_le_self _)

/-- **One key package is published** by a device that is active, once the others have expired. -/
theorem call_publish_one {deviceId : Uuid} {d : Device} {p : NewKeyPackage}
    (hd : s.db.userDevice userId deviceId = some d) (hactive : d.status = .active)
    (hversion : p.protocolVersion = d.protocolVersion)
    (hchecks : (p.row deviceId s.now).checks = true) (hid : s.db.keyPackages.get p.id = none)
    (hexpired : s.Expired) :
    ∃ n, (s.call (.publishKeyPackages userId deviceId [p])).1 = .ok (.published n) := by
  let view (db : Db) : DbView := ⟨db, s.seq, s.now, fun _ _ => false⟩
  let publish : Request := .publishKeyPackages userId deviceId [p]
  have hlock : publishKeyPackages userId deviceId [p] (view s.db) .lockDevice
      = .next (.insert [p] 0) [(.device deviceId, .share)] [] 0 := by
    have hversions : ([p].any fun p => p.protocolVersion ≠ d.protocolVersion) = false := by
      simp [hversion]
    simp only [publishKeyPackages, view, hd, hactive, hversions, ne_eq, not_true, if_false,
      Bool.false_eq_true]
  have hcount : ∀ db n, (db.availablePackages deviceId s.now).length ≤ 1 →
      publishKeyPackages userId deviceId [p] (view db) (.count n) = .next (.commit n) [] [] 0 := by
    intro db n hlen
    have hlimit :
        ¬ maxAvailableKeyPackagesPerDevice < (db.availablePackages deviceId s.now).length :=
      fun h => by
        have := Nat.lt_of_lt_of_le h hlen
        exact absurd this (by decide)
    simp only [publishKeyPackages, view]
    rw [if_neg hlimit]
  have hnone : s.db.availablePackages deviceId s.now = [] := by
    refine List.filter_eq_nil_iff.mpr fun k hk h => ?_
    simp only [KeyPackage.available, Bool.and_eq_true, decide_eq_true_eq] at h
    exact absurd h.2.2 (Nat.not_lt.mpr (hexpired k hk))
  have hfirst : e2eeBackend.solo publish s.db s.now 9 s.seq lockDevice [] =
      e2eeBackend.solo publish s.db s.now 8 s.seq (insert [p] 0) [] :=
    solo_read hlock
  by_cases hr : (s.db.keyPackages.rows.any fun x => x.packageRef = p.packageRef) = true
  · have hskip : publishKeyPackages userId deviceId [p] (view s.db) (.insert [p] 0)
        = .next (.insert [] 0) [] [] 0 := by
      have hr' : (s.db.keyPackages.rows.any fun x =>
          x.packageRef = (p.row deviceId s.now).packageRef) = true := hr
      simp only [publishKeyPackages, view, hchecks, hr', Bool.not_true, Bool.false_eq_true,
        if_false, if_true]
    have hdone : publishKeyPackages userId deviceId [p] (view s.db) (.insert [] 0)
        = .next (.count 0) [] [] 0 := rfl
    have hcount₀ := hcount s.db 0 (by rw [hnone]; exact Nat.zero_le 1)
    have hend : e2eeBackend.solo publish s.db s.now 6 s.seq (count 0) [] =
        some ((s.db, s.seq), .ok (.published 0)) := by
      refine (solo_read hcount₀).trans ?_
      exact solo_commit rfl
    have hsolo := hfirst.trans ((solo_read hskip).trans ((solo_read hdone).trans
      hend))
    exact ⟨0, by rw [Server.call_of_solo hsolo]⟩
  · rw [Bool.not_eq_true] at hr
    have hinsert : publishKeyPackages userId deviceId [p]
        (view (e2eeBackend.applyAll s.db [])) (.insert [p] 0)
        = .next (.insert [] 1) [] [.insertKeyPackage (p.row deviceId s.now)] 0 := by
      have hr' : (s.db.keyPackages.rows.any fun x =>
          x.packageRef = (p.row deviceId s.now).packageRef) = false := hr
      have hid' : (s.db.keyPackages.get (p.row deviceId s.now).id).isSome = false := by
        rw [show s.db.keyPackages.get (p.row deviceId s.now).id = none from hid]
        rfl
      simp only [publishKeyPackages, view, applyAll_nil, hchecks, hr', hid', Bool.not_true,
        Bool.false_eq_true, if_false]
    let db := e2eeBackend.applyAll s.db [.insertKeyPackage (p.row deviceId s.now)]
    have hdone : publishKeyPackages userId deviceId [p] (view db) (.insert [] 1)
        = .next (.count 1) [] [] 0 := rfl
    have hone : (db.availablePackages deviceId s.now).length ≤ 1 := by
      have hrows : db.keyPackages.rows = s.db.keyPackages.rows ++ [p.row deviceId s.now] :=
        Table.rows_insert_of_none (t := s.db.keyPackages) (r := p.row deviceId s.now) hid
      rw [Db.availablePackages, hrows, List.filter_append, ← Db.availablePackages, hnone,
        List.nil_append]
      exact List.length_filter_le _ _
    have hend : e2eeBackend.solo publish s.db s.now 6 s.seq (count 1)
        [.insertKeyPackage (p.row deviceId s.now)] = some ((db, s.seq), .ok (.published 1)) := by
      refine (solo_next (hcount db 1 hone)).trans ?_
      exact solo_commit rfl
    have hsecond : e2eeBackend.solo publish s.db s.now 8 s.seq (insert [p] 0) [] =
        e2eeBackend.solo publish s.db s.now 7 s.seq (insert [] 1)
          [.insertKeyPackage (p.row deviceId s.now)] :=
      (solo_next hinsert).trans rfl
    have hthird : e2eeBackend.solo publish s.db s.now 7 s.seq (insert [] 1)
        [.insertKeyPackage (p.row deviceId s.now)] = some ((db, s.seq), .ok (.published 1)) := by
      refine (solo_next hdone).trans ?_
      exact hend
    exact ⟨1, by rw [Server.call_of_solo (hfirst.trans (hsecond.trans hthird))]⟩

/-! ## Any call -/

namespace DeviceTrust

variable {w : Backend.World}

/-- An effect is one on the rows. -/
theorem Effect.congr {w' : Backend.World} {now : Timestamp} {r : Request} {ws : List Write}
    (he : Effect w now r ws) (hdb : w'.db = w.db) : Effect w' now r ws := by
  cases he with
  | register habs hfirst hlater => exact .register (by rwa [hdb]) (by rwa [hdb]) (by rwa [hdb])
  | approve hne ha hd hs hfree => exact .approve hne (by rwa [hdb]) (by rwa [hdb]) hs hfree
  | revoke hd hs hfree => exact .revoke (by rwa [hdb]) hs hfree

/-- Both tables are as they were, or a call has made its effect. -/
def Leaves (w : Backend.World) (now : Timestamp) (r : Request) (db : Db) : Prop :=
  db.identities = w.db.identities ∧ db.devices = w.db.devices ∨
    ∃ ws, Effect w now r ws ∧ db = e2eeBackend.applyAll w.db ws

theorem leaves_of_commit {tx : Backend.Tx} {locked : LockKey → LockMode → Bool} {out : Response}
    (ht : Backend.InTables tx) (h : Assertion w tx) (hs : tx.stmt w locked = .commit out) :
    Leaves w tx.now tx.req (tx.see w.db) := by
  cases hr : tx.req.isTrust with
  | true =>
    rcases effect_of_commit h hs hr with hw | he
    · rw [Program.Tx.see, hw]
      exact Or.inl ⟨rfl, rfl⟩
    · exact Or.inr ⟨_, he, rfl⟩
  | false => exact Or.inl ((trustFree_of_not_trust ht hr).applyAll w.db)

/-- A call that finds no other in flight. -/
theorem leaves_of_serial {fuel : ℕ} {w' : Backend.World} {tx : Backend.Tx}
    {result : Except AppError Response} (hown : Owned w) (ht : Backend.InTables tx)
    (h : Assertion w tx) (hs : serial fuel w tx = some (w', result)) :
    Leaves w tx.now tx.req w'.db := by
  induction fuel generalizing w tx with
  | zero => cases hs
  | succ fuel ih =>
    cases hstmt : tx.stmt w (fun _ _ => false) with
    | next loc ls ws n =>
      rw [serial_next hstmt] at hs
      have ht' : Backend.InTables (tx.advance loc ls ws) := by
        intro x hx
        rcases List.mem_append.1 hx with hx | hx
        · exact ht x hx
        · exact tables_of_next hstmt hx
      have hleaves := @ih (w.draw n) _ hown ht' (outline.next trivial ht hown h hstmt) hs
      rcases hleaves with hsame | ⟨ws, he, hdb⟩
      · exact Or.inl hsame
      · exact Or.inr ⟨ws, he.congr rfl, hdb⟩
    | commit out =>
      rw [serial_commit hstmt] at hs
      obtain ⟨rfl, -⟩ := Prod.mk.inj (Option.some.inj hs)
      exact leaves_of_commit ht h hstmt
    | fail err =>
      rw [serial_fail hstmt] at hs
      obtain ⟨rfl, -⟩ := Prod.mk.inj (Option.some.inj hs)
      exact Or.inl ⟨rfl, rfl⟩
    | wait =>
      simp only [serial, hstmt] at hs
      cases hs

end DeviceTrust

open DeviceTrust

theorem Server.Settled.owned (h : s.Settled) :
    ∀ d ∈ s.db.devices.rows, ∃ i, s.db.identities.get d.userId = some i := by
  obtain ⟨st, ⟨db₀, hinit, hr⟩, -, hdb, -⟩ := h
  rw [← hdb]
  exact (DeviceTrust.holds hinit st hr).1

/-- **What a call does to devices and identities.** -/
theorem Server.Settled.leaves (h : s.Settled) (r : Request) :
    ∃ w : Backend.World, w.db = s.db ∧ Leaves w s.now r (s.call r).2.db := by
  have hown := h.owned
  obtain ⟨st, -, -, hdb, hseq, hnow⟩ := h
  refine ⟨st.toWorld, hdb, ?_⟩
  cases hs : e2eeBackend.solo r s.db s.now r.fuel s.seq r.start [] with
  | none =>
    simp only [Server.call, hs]
    exact Or.inl ⟨by rw [← hdb], by rw [← hdb]⟩
  | some out =>
    obtain ⟨⟨db, seq⟩, result⟩ := out
    rw [Server.call_of_solo hs]
    let tx : Backend.Tx := Program.Tx.begin r st.past.length s.now
    have hsolo : e2eeBackend.solo tx.req st.toWorld.db tx.now r.fuel st.toWorld.seq tx.loc
        tx.writes = some ((db, seq), result) := by
      rw [← hs, ← hdb, ← hseq]
      rfl
    obtain ⟨w', hserial, rfl, -⟩ := serial_of_solo hsolo
    have hstart : Assertion st.toWorld tx := by cases r <;> first | exact rfl | trivial
    refine leaves_of_serial ?_ ?_ hstart hserial
    · intro d hd
      have hd' : d ∈ s.db.devices.rows := by rwa [← hdb]
      obtain ⟨i, hi⟩ := hown d hd'
      exact ⟨i, by rwa [← hdb] at hi⟩
    · intro x hx
      cases hx

/-- An identity that is new is the one of a registration. -/
theorem Server.Settled.identity_of_call (h : s.Settled) {r : Request} {i : AccountIdentity}
    (hi : (s.call r).2.db.identities.get userId = some i) :
    s.db.identities.get userId = some i ∨ s.db.identities.get userId = none ∧
      ∃ input, r = .registerDevice userId input ∧ i = input.identity userId s.now := by
  obtain ⟨w, hw, hleaves⟩ := h.leaves r
  rw [← hw]
  rcases hleaves with ⟨hsame, -⟩ | ⟨ws, he, hdb⟩
  · exact Or.inl (by rwa [hsame] at hi)
  · rw [hdb] at hi
    cases he with
    | @register user input firstDevice opening habs hfirst hlater =>
      cases firstDevice with
      | false =>
        obtain ⟨rfl, -⟩ := hlater rfl
        exact Or.inl hi
      | true =>
        obtain ⟨rfl, hnone⟩ := hfirst rfl
        have hget : (w.db.identities.insert (input.identity user s.now)).get userId
            = if user = userId then some (input.identity user s.now)
              else w.db.identities.get userId :=
          Table.get_insert_of_none hnone userId
        have hi' := hget.symm.trans hi
        by_cases hu : user = userId
        · subst hu
          rw [if_pos rfl] at hi'
          exact Or.inr ⟨hnone, input, rfl, (Option.some.inj hi').symm⟩
        · rw [if_neg hu] at hi'
          exact Or.inl hi'
    | @approve user approver target d rest hne ha hd hs hfree =>
      exact Or.inl (by rwa [applyAll_cons, (hfree.applyAll _).1] at hi)
    | @revoke user deviceId d rest hd hs hfree =>
      exact Or.inl (by rwa [applyAll_cons, (hfree.applyAll _).1] at hi)

end RedcodeIm
