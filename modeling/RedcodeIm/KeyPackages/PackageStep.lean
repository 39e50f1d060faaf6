import RedcodeIm.Database.System

/-!
# What a commit does to the key packages

A publication holds the row and the unique-index entry of every package it has
inserted, a claim the row of the package it consumes.  Each of them therefore commits
against the rows it has read, and every commit is one of the moves of `PackageStep`.

* `Fresh` — packages that can be inserted together.
* `PackageStep` — the moves.
* `KeyPackages.Assertion`, `KeyPackages.outline` — no call disturbs another.
* `packageStep_of_commit` — every commit is a move.
-/

namespace RedcodeIm

open ReadCommitted List

/-! ## The moves -/

/-- Packages that are new to the table, and to each other. -/
structure Fresh (db : Db) (ps : List KeyPackage) : Prop where
  ids : ∀ p ∈ ps, db.keyPackages.get p.id = none
  refs : ∀ p ∈ ps, ∀ q ∈ db.keyPackages.rows, q.packageRef ≠ p.packageRef
  distinctIds : (ps.map KeyPackage.id).Nodup
  distinctRefs : (ps.map KeyPackage.packageRef).Nodup
  unused : ∀ p ∈ ps, p.consumedAt = none

/-- The effect of a commit on the key packages. -/
inductive PackageStep (db db' : Db) : Prop where
  /-- The table does not change. -/
  | idle (h : db'.keyPackages = db.keyPackages)
  /-- New packages are published. -/
  | publish (ps : List KeyPackage) (hf : Fresh db ps)
      (h : db'.keyPackages.rows = db.keyPackages.rows ++ ps)
  /-- An available package is consumed. -/
  | take (row : KeyPackage) (consumer : Uuid) (now : Timestamp)
      (hrow : db.keyPackages.get row.id = some row) (ha : row.available now = true)
      (h : db'.keyPackages = db.keyPackages.put (row.consume consumer now))

theorem fresh_nil (db : Db) : Fresh db [] :=
  ⟨by simp, by simp, by simp, by simp, by simp⟩

theorem available_iff {p : KeyPackage} {now : Timestamp} :
    p.available now = true ↔ p.consumedAt = none ∧ now < p.expiresAt := by
  simp [KeyPackage.available]

/-! ## Writes -/

/-- Fresh packages are appended one after the other. -/
theorem rows_publish {db : Db} {ps : List KeyPackage} (h : Fresh db ps) :
    (e2eeBackend.applyAll db (ps.map .insertKeyPackage)).keyPackages.rows
      = db.keyPackages.rows ++ ps := by
  induction ps generalizing db with
  | nil => simp
  | cons p ps ih =>
    obtain ⟨hi, hr, hdi, hdr, hu⟩ := h
    have hp : db.keyPackages.get p.id = none := hi p mem_cons_self
    have hrows : (db.apply (.insertKeyPackage p)).keyPackages.rows
        = db.keyPackages.rows ++ [p] := Table.rows_insert_of_none hp
    rw [map_cons, nodup_cons] at hdi hdr
    have hfresh : Fresh (db.apply (.insertKeyPackage p)) ps := by
      refine ⟨fun q hq => ?_, fun q hq x hx => ?_, hdi.2, hdr.2,
        fun q hq => hu q (mem_cons_of_mem _ hq)⟩
      · refine (Table.get_insert_of_none hp _).trans ?_
        rw [if_neg fun he : p.id = q.id => hdi.1 (he ▸ mem_map_of_mem hq)]
        exact hi q (mem_cons_of_mem _ hq)
      · rw [hrows] at hx
        rcases mem_append.1 hx with hx | hx
        · exact hr q (mem_cons_of_mem _ hq) x hx
        · rw [mem_singleton.1 hx]
          exact fun he => hdr.1 (he ▸ mem_map_of_mem hq)
    change (e2eeBackend.applyAll (db.apply (.insertKeyPackage p)) _).keyPackages.rows = _
    rw [ih hfresh, hrows, append_assoc]
    rfl

/-- A call that writes other tables leaves the key packages alone. -/
theorem keyPackages_of_table {ws : List Write} (h : ∀ x ∈ ws, x.table ≠ .keyPackages)
    (db : Db) : (e2eeBackend.applyAll db ws).keyPackages = db.keyPackages := by
  induction ws generalizing db with
  | nil => rfl
  | cons x ws ih =>
    have hx := h x mem_cons_self
    rw [Program.applyAll_cons, ih fun y hy => h y (mem_cons_of_mem _ hy)]
    cases x <;> first | rfl | simp [Write.table] at hx

/-- The row of a key package is guarded by its id. -/
theorem guarded_keyPackage (id : Uuid) :
    Program.Guarded e2eeBackend (fun db : Db => db.keyPackages.get id) (.keyPackage id) := by
  intro db w hw
  have hne : ∀ k m, (k, m) ∈ w.guards → k ≠ .keyPackage id := fun k m hk => hw (k, m) hk
  cases w with
  | insertKeyPackage p =>
    refine Table.get_insert_ne fun he => ?_
    exact hne (.keyPackage p.id) .update (by simp [Write.guards]) (by rw [he])
  | putKeyPackage p =>
    refine Table.get_put_ne fun he => ?_
    exact hne (.keyPackage p.id) .noKeyUpdate (by simp [Write.guards]) (by rw [he])
  | _ => rfl

/-- The calls that write key packages. -/
def Request.isPackage : Request → Bool
  | .publishKeyPackages .. | .takeKeyPackage .. | .takeKeyPackageForRoom .. => true
  | _ => false

theorem Request.tables_of_not_package {r : Request} (h : r.isPackage = false) :
    .keyPackages ∉ r.tables := by
  cases r <;> simp_all [isPackage, tables]

namespace KeyPackages

/-! ## The outline -/

section

variable (w : Backend.World) (born : ℕ) (now : Timestamp) (locks : Locks LockKey)
variable (writes : List Write)

/-- A publication has inserted fresh packages of its device and nothing else. -/
def PublishAt (deviceId : Uuid) : Prop :=
  ∃ ps, writes = ps.map .insertKeyPackage ∧ Fresh w.db ps ∧ ∀ p ∈ ps, p.deviceId = deviceId

/-- In some version since the call began the devices and members allowed the claim and the
package under the id was available. -/
def Offered (allowed : Db → Bool) (target id : Uuid) : Prop :=
  w.Seen born fun v => allowed v = true ∧
    ∃ c, v.keyPackages.get id = some c ∧ c.deviceId = target ∧ c.available now = true

/-- A claim holds the row it is about to consume. -/
structure Claiming (allowed : Db → Bool) (target : Uuid) (row : KeyPackage) : Prop where
  lock : (.keyPackage row.id, .update) ∈ locks
  stored : w.db.keyPackages.get row.id = some row
  available : row.available now = true
  offered : Offered w born now allowed target row.id

/-- What holds of a claim at each of its stages. -/
def TakeAt (allowed : Db → Bool) (target consumer : Uuid) : TakeStage → Prop
  | .select => writes = []
  | .tryLock candidates => writes = [] ∧ ∀ c ∈ candidates, Offered w born now allowed target c.id
  | .update row => writes = [] ∧ Claiming w born now locks allowed target row
  | .commit none => writes = []
  | .commit (some p) => ∃ row, p = row.consume consumer now ∧ writes = [.putKeyPackage p] ∧
    Claiming w born now locks allowed target row

end

/-- What holds of a call at a stage. -/
def At (w : Backend.World) (born : ℕ) (now : Timestamp) (locks : Locks LockKey)
    (writes : List Write) : (r : Request) → r.Stage → Prop
  | .publishKeyPackages _ deviceId _, _ => PublishAt w writes deviceId
  | .takeKeyPackage user target consumer, stage =>
    TakeAt w born now locks writes (fun db => db.mayTake user target consumer) target consumer stage
  | .takeKeyPackageForRoom roomId user target consumer, stage =>
    TakeAt w born now locks writes (fun db => db.mayTakeForRoom roomId user target consumer)
      target consumer stage
  | _, _ => True

/-- The assertion of a call in flight. -/
def Assertion (w : Backend.World) (tx : Backend.Tx) : Prop :=
  At w tx.born tx.now tx.locks tx.writes tx.req tx.loc

/-! ### The statements -/

variable {w : Backend.World} {now : Timestamp} {writes : List Write}
  {locked : LockKey → LockMode → Bool} {ws : List Write}

theorem publishAt_next {user deviceId : Uuid} {packages : List NewKeyPackage}
    {stage stage' : PublishStage} {ls : Locks LockKey} (h : PublishAt w writes deviceId)
    (hs : PublishNext user deviceId packages
      { db := e2eeBackend.applyAll w.db writes, seq := w.seq, now := now, locked := locked }
      stage stage' ls ws) : PublishAt w (writes ++ ws) deviceId := by
  cases hs with
  | lockDevice | skip | done | count => simpa using h
  | insert p ps inserted hc hr hi =>
    obtain ⟨rows, rfl, hf, hdev⟩ := h
    have hrows := rows_publish hf
    have hid : ∀ x ∈ w.db.keyPackages.rows ++ rows, x.id ≠ p.id := by
      intro x hx
      rw [← hrows] at hx
      exact Table.get_eq_none_iff.1 hi x hx
    have href : ∀ x ∈ w.db.keyPackages.rows ++ rows, x.packageRef ≠ p.packageRef := by
      intro x hx he
      rw [← hrows] at hx
      have := any_eq_false.1 hr x hx
      simp [he] at this
    have hne : ∀ x ∈ rows, x.id ≠ p.id ∧ x.packageRef ≠ p.packageRef := fun x hx =>
      ⟨hid x (mem_append_right _ hx), href x (mem_append_right _ hx)⟩
    refine ⟨rows ++ [p.row deviceId now], by simp, ⟨?_, ?_, ?_, ?_, ?_⟩, ?_⟩
    · intro x hx
      rcases mem_append.1 hx with hx | hx
      · exact hf.ids x hx
      · rw [mem_singleton.1 hx]
        exact Table.get_eq_none_iff.2 fun y hy => hid y (mem_append_left _ hy)
    · intro x hx y hy
      rcases mem_append.1 hx with hx | hx
      · exact hf.refs x hx y hy
      · rw [mem_singleton.1 hx]
        exact href y (mem_append_left _ hy)
    · rw [map_append, nodup_append]
      refine ⟨hf.distinctIds, by simp, fun a ha b hb => ?_⟩
      obtain ⟨x, hx, rfl⟩ := mem_map.1 ha
      rw [map_singleton, mem_singleton] at hb
      exact hb ▸ (hne x hx).1
    · rw [map_append, nodup_append]
      refine ⟨hf.distinctRefs, by simp, fun a ha b hb => ?_⟩
      obtain ⟨x, hx, rfl⟩ := mem_map.1 ha
      rw [map_singleton, mem_singleton] at hb
      exact hb ▸ (hne x hx).2
    · intro x hx
      rcases mem_append.1 hx with hx | hx
      · exact hf.unused x hx
      · rw [mem_singleton.1 hx]
        rfl
    · intro x hx
      rcases mem_append.1 hx with hx | hx
      · exact hdev x hx
      · rw [mem_singleton.1 hx]
        rfl

variable {born : ℕ} {locks : Locks LockKey} {allowed : Db → Bool} {target : Uuid}

theorem Claiming.grow {row : KeyPackage} (h : Claiming w born now locks allowed target row)
    (more : Locks LockKey) :
    Claiming w born now (locks ++ more) allowed target row :=
  ⟨mem_append_left _ h.lock, h.stored, h.available, h.offered⟩

theorem takeAt_next {consumer : Uuid} {stage stage' : TakeStage} {ls : Locks LockKey}
    (hb : born ≤ w.past.length) (h : TakeAt w born now locks writes allowed target consumer stage)
    (hs : TakeNext allowed target consumer
      { db := e2eeBackend.applyAll w.db writes, seq := w.seq, now := now, locked := locked }
      stage stage' ls ws) :
    TakeAt w born now (locks ++ ls ++ ws.flatMap Write.guards) (writes ++ ws) allowed target
      consumer stage' := by
  rw [append_assoc]
  cases hs with
  | select ha =>
    have hw : writes = [] := h
    subst hw
    refine ⟨rfl, fun c hc => ?_⟩
    have hmem : c ∈ w.db.availablePackages target now := (mem_insertionSort _).1 hc
    obtain ⟨hrow, hc⟩ := mem_filter.1 hmem
    simp only [Bool.and_eq_true, decide_eq_true_eq] at hc
    exact World.seen_of_db hb ⟨ha, c, Table.get_of_mem hrow, hc.1, hc.2⟩
  | refuse ha =>
    have hw : writes = [] := h
    exact ⟨by simp [hw], by simp⟩
  | exhausted =>
    obtain ⟨rfl, -⟩ := h
    rfl
  | skip p ps =>
    obtain ⟨rfl, hc⟩ := h
    exact ⟨rfl, fun c hmem => hc c (mem_cons_of_mem _ hmem)⟩
  | lock p ps row hp ha =>
    obtain ⟨rfl, hc⟩ := h
    have hid : row.id = p.id := Table.key_of_get hp
    refine ⟨rfl, by simp [hid], ?_, ha, ?_⟩
    · rw [hid]
      exact hp
    · rw [hid]
      exact hc p mem_cons_self
  | update row =>
    obtain ⟨rfl, hcl⟩ := h
    exact ⟨row, rfl, rfl, hcl.grow _⟩

/-! ### What a commit does -/

/-- The writes of a call that is about to commit, and the rows it makes them against. -/
inductive Effect (w : Backend.World) : List Write → Prop where
  | idle {ws : List Write} (h : ∀ x ∈ ws, x.table ≠ .keyPackages) : Effect w ws
  | publish {ps : List KeyPackage} (hf : Fresh w.db ps) : Effect w (ps.map .insertKeyPackage)
  | take {row : KeyPackage} {consumer : Uuid} {now : Timestamp}
      (hrow : w.db.keyPackages.get row.id = some row) (ha : row.available now = true) :
      Effect w [.putKeyPackage (row.consume consumer now)]

theorem effect_of_takeAt {consumer : Uuid} {claimed : Option KeyPackage}
    (h : TakeAt w born now locks writes allowed target consumer (.commit claimed)) :
    Effect w writes := by
  cases claimed with
  | none =>
    have hw : writes = [] := h
    exact .idle (by simp [hw])
  | some p =>
    obtain ⟨row, rfl, rfl, hcl⟩ := h
    exact .take hcl.stored hcl.available

variable {tx : Backend.Tx} {out : Response}

theorem effect_of_commit (ht : Backend.InTables tx) (h : Assertion w tx)
    (hs : tx.stmt w locked = .commit out) : Effect w tx.writes := by
  cases hr : tx.req.isPackage with
  | false => exact .idle fun x hx he => Request.tables_of_not_package hr (he ▸ ht x hx)
  | true =>
    obtain ⟨req, now, born, stage, locks, writes, covered⟩ := tx
    cases req with
    | publishKeyPackages user deviceId packages =>
      obtain ⟨ps, rfl, hf, -⟩ := h
      exact .publish hf
    | takeKeyPackage user target consumer =>
      change takeStatement (fun db => db.mayTake user target consumer) target consumer _ stage
        = _ at hs
      obtain ⟨claimed, rfl, -⟩ := take_commit hs
      exact effect_of_takeAt h
    | takeKeyPackageForRoom roomId user target consumer =>
      change takeStatement (fun db => db.mayTakeForRoom roomId user target consumer) target
        consumer _ stage = _ at hs
      obtain ⟨claimed, rfl, -⟩ := take_commit hs
      exact effect_of_takeAt h
    | _ => simp [Request.isPackage] at hr

/-- An effect is a move. -/
theorem packageStep_of_effect (h : Effect w ws) :
    PackageStep w.db (e2eeBackend.applyAll w.db ws) := by
  cases h with
  | idle h => exact .idle (keyPackages_of_table h w.db)
  | publish hf => exact .publish _ hf (rows_publish hf)
  | take hrow ha => exact .take _ _ _ hrow ha rfl

/-- **Every commit is a move.** -/
theorem packageStep_of_commit (ht : Backend.InTables tx) (h : Assertion w tx)
    (hs : tx.stmt w locked = .commit out) :
    PackageStep w.db (tx.see w.db) :=
  packageStep_of_effect (effect_of_commit ht h hs)

/-! ### Non-interference -/

/-- A reference a publication holds is not published by the commit of another call. -/
theorem ref_of_commit {u : Backend.Tx} (ht : Backend.InTables tx) (h : Assertion w tx)
    (hs : tx.stmt w locked = .commit out) (hc : Locks.compatible tx.locks u.locks = true)
    {ref : Bytes} (hl : (.packageRef ref, .update) ∈ u.locks)
    (habs : ∀ q ∈ w.db.keyPackages.rows, q.packageRef ≠ ref) :
    ∀ q ∈ (tx.see w.db).keyPackages.rows, q.packageRef ≠ ref := by
  intro q hq
  have heff := effect_of_commit ht h hs
  have hcov := tx.covered
  simp only [Program.Tx.see] at hq
  generalize tx.writes = ws at heff hq hcov
  cases heff with
  | idle hw =>
    rw [keyPackages_of_table hw] at hq
    exact habs q hq
  | @publish ps hf =>
    rw [rows_publish hf] at hq
    rcases mem_append.1 hq with hq | hq
    · exact habs q hq
    · intro he
      have hheld : (LockKey.packageRef ref, LockMode.update) ∈ tx.locks :=
        hcov (.insertKeyPackage q) (mem_map_of_mem hq) (.packageRef ref, .update)
          (by simp [e2eeBackend, Write.guards, he])
      have := Locks.not_isWrite_of_protects (Locks.compatible_comm hc) hl rfl hheld
      simp [LockMode.isWrite] at this
  | @take row consumer now hrow ha =>
    rcases Table.mem_put hq with ⟨hq, -⟩ | rfl
    · exact habs q hq
    · exact habs row (Table.mem_of_get hrow)

theorem publishAt_other {w : Backend.World} {tx u : Backend.Tx}
    {locked : LockKey → LockMode → Bool} {out : Response} (ht : Backend.InTables tx)
    (h : Assertion w tx) (hs : tx.stmt w locked = .commit out)
    (hc : Locks.compatible tx.locks u.locks = true) {deviceId : Uuid}
    (hu : PublishAt w u.writes deviceId) :
    PublishAt (e2eeBackend.commit w tx out) u.writes deviceId := by
  obtain ⟨ps, hw, hf, hdev⟩ := hu
  have hcov : ∀ p ∈ ps, (LockKey.keyPackage p.id, LockMode.update) ∈ u.locks ∧
      (LockKey.packageRef p.packageRef, LockMode.update) ∈ u.locks := by
    intro p hp
    have hmem : .insertKeyPackage p ∈ u.writes := hw ▸ mem_map_of_mem hp
    exact ⟨u.covered _ hmem _ (by simp [e2eeBackend, Write.guards]),
      u.covered _ hmem _ (by simp [e2eeBackend, Write.guards])⟩
  refine ⟨ps, hw, ⟨fun p hp => ?_, fun p hp => ?_, hf.distinctIds, hf.distinctRefs, hf.unused⟩,
    hdev⟩
  · exact ((guarded_keyPackage p.id).see_eq hc (hcov p hp).1 rfl w.db).trans (hf.ids p hp)
  · exact ref_of_commit ht h hs hc (hcov p hp).2 (hf.refs p hp)

theorem takeAt_other {w : Backend.World} {tx u : Backend.Tx} {out : Response}
    (hc : Locks.compatible tx.locks u.locks = true) {born : ℕ} {now : Timestamp}
    {writes : List Write} {allowed : Db → Bool} {target consumer : Uuid} {stage : TakeStage}
    (hu : TakeAt w born now u.locks writes allowed target consumer stage) :
    TakeAt (e2eeBackend.commit w tx out) born now u.locks writes allowed target consumer
      stage := by
  have hoff : ∀ id, Offered w born now allowed target id →
      Offered (e2eeBackend.commit w tx out) born now allowed target id := fun id h =>
    Program.seen_commit h tx out
  have hclaim : ∀ row, Claiming w born now u.locks allowed target row →
      Claiming (e2eeBackend.commit w tx out) born now u.locks allowed target row := by
    intro row h
    refine ⟨h.lock, ?_, h.available, hoff _ h.offered⟩
    exact ((guarded_keyPackage row.id).see_eq hc h.lock rfl w.db).trans h.stored
  cases stage with
  | select => exact hu
  | tryLock cs => exact ⟨hu.1, fun c hmem => hoff _ (hu.2 c hmem)⟩
  | update row => exact ⟨hu.1, hclaim row hu.2⟩
  | commit claimed =>
    cases claimed with
    | none => exact hu
    | some p =>
      obtain ⟨row, hp, hw, hcl⟩ := hu
      exact ⟨row, hp, hw, hclaim row hcl⟩

theorem At.later {w' : Backend.World} (hl : w.Later w') {r : Request} {stage : r.Stage}
    (h : At w born now locks writes r stage) : At w' born now locks writes r stage := by
  have hclaim : ∀ allowed target row, Claiming w born now locks allowed target row →
      Claiming w' born now locks allowed target row := fun allowed target row h =>
    ⟨h.lock, by rw [hl.db, h.stored], h.available, hl.seen h.offered⟩
  have htake : ∀ allowed target consumer (stage : TakeStage),
      TakeAt w born now locks writes allowed target consumer stage →
      TakeAt w' born now locks writes allowed target consumer stage := by
    intro allowed target consumer stage h
    cases stage with
    | select => exact h
    | tryLock cs => exact ⟨h.1, fun c hmem => hl.seen (h.2 c hmem)⟩
    | update row => exact ⟨h.1, hclaim _ _ row h.2⟩
    | commit claimed =>
      cases claimed with
      | none => exact h
      | some p =>
        obtain ⟨row, hp, hw, hcl⟩ := h
        exact ⟨row, hp, hw, hclaim _ _ row hcl⟩
  cases r with
  | publishKeyPackages user deviceId packages =>
    obtain ⟨ps, hw, hf, hdev⟩ := h
    refine ⟨ps, hw, ⟨?_, ?_, hf.distinctIds, hf.distinctRefs, hf.unused⟩, hdev⟩
    · rw [hl.db]
      exact hf.ids
    · rw [hl.db]
      exact hf.refs
  | takeKeyPackage | takeKeyPackageForRoom => exact htake _ _ _ _ h
  | _ => trivial

/-- **The outline of the key packages.** -/
theorem outline : Program.Outline e2eeBackend (fun _ => True)
    (fun w tx => Backend.InTables tx ∧ tx.born ≤ w.past.length) (fun _ => True) Assertion where
  quiet := fun _ _ => trivial
  stable := fun hl h => At.later hl h
  start := by
    intro w r _ _
    cases r with
    | publishKeyPackages => exact ⟨[], rfl, fresh_nil _, by simp⟩
    | takeKeyPackage | takeKeyPackageForRoom => exact rfl
    | _ => trivial
  next := by
    intro w tx locked loc ls ws n _ hB _ h hs
    obtain ⟨req, now, born, stage, locks, writes, covered⟩ := tx
    cases req with
    | publishKeyPackages user deviceId packages =>
      obtain ⟨hnext, rfl⟩ := publish_next hs
      exact publishAt_next h hnext
    | takeKeyPackage user target consumer =>
      change takeStatement (fun db => db.mayTake user target consumer) target consumer _ stage
        = _ at hs
      obtain ⟨hnext, rfl⟩ := take_next hs
      exact takeAt_next hB.2 h hnext
    | takeKeyPackageForRoom roomId user target consumer =>
      change takeStatement (fun db => db.mayTakeForRoom roomId user target consumer) target
        consumer _ stage = _ at hs
      obtain ⟨hnext, rfl⟩ := take_next hs
      rw [World.draw_zero]
      exact takeAt_next hB.2 h hnext
    | _ => trivial
  commit := fun _ _ _ _ _ _ => trivial
  other := by
    intro w tx u locked out _ hB _ _ h hu hc hs
    have hpublish := @publishAt_other w tx u locked out hB.1 h hs hc
    have htake := @takeAt_other w tx u out hc
    obtain ⟨req, now, born, stage, locks, writes, covered⟩ := u
    cases req with
    | publishKeyPackages user deviceId packages => exact hpublish hu
    | takeKeyPackage | takeKeyPackageForRoom => exact htake hu
    | _ => trivial
  reject := fun _ _ _ _ _ => trivial

/-- The assertions hold in every reachable state. -/
theorem holds (db : Db) : Program.Holds e2eeBackend db (fun _ => True)
    (fun w tx => Assertion w tx ∧ Backend.InTables tx) := by
  have hB : Program.Holds e2eeBackend db (fun _ => True)
      (fun w tx => Backend.InTables tx ∧ tx.born ≤ w.past.length) := by
    intro s hs
    have ht := Backend.inTables_holds db s hs
    have hh := Program.history_holds db s hs
    exact ⟨trivial, fun i tx htx => ⟨ht.2 i tx htx, hh.2 i tx htx⟩⟩
  intro s hs
  refine ⟨trivial, fun i tx htx => ⟨?_, ((hB s hs).2 i tx htx).1⟩⟩
  exact ((outline.holds hB trivial) s hs).2 i tx htx

end KeyPackages

end RedcodeIm
