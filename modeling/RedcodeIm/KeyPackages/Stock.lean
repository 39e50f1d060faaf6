import RedcodeIm.KeyPackages.SingleUse

/-!
# The stock of key packages

A publication counts the available packages of its device after inserting its own, and
fails when they are too many.  The count sees what is committed and what the publication
itself inserted, and nothing of another publication in flight: the lock both take on the
device row is shared.

* `Counted` — a publication between its count and its commit.
* `CountsLast` — no publication commits while another of the device is there.
* `key_package_stock` — the bound holds along every run of that kind.
* `publications_overlap` — two publications that overlap are both accepted.
* `key_package_stock_exceeded` — a run in which the bound is broken.
-/

namespace RedcodeIm

open ReadCommitted Program.State List

/-! ## Counting -/

/-- The number of available packages of a device among the rows. -/
def stockOf (rows : List KeyPackage) (deviceId : Uuid) (now : Timestamp) : ℕ :=
  rows.countP fun p => p.deviceId = deviceId && p.available now

theorem length_availablePackages (db : Db) (deviceId : Uuid) (now : Timestamp) :
    (db.availablePackages deviceId now).length = stockOf db.keyPackages.rows deviceId now := by
  rw [Db.availablePackages, stockOf, countP_eq_length_filter]

theorem stockOf_append (rows ps : List KeyPackage) (deviceId : Uuid) (now : Timestamp) :
    stockOf (rows ++ ps) deviceId now = stockOf rows deviceId now + stockOf ps deviceId now :=
  countP_append

/-- Packages only expire. -/
theorem stockOf_mono (rows : List KeyPackage) (deviceId : Uuid) {now now' : Timestamp}
    (h : now ≤ now') : stockOf rows deviceId now' ≤ stockOf rows deviceId now := by
  refine countP_mono_left fun p _ hp => ?_
  simp only [Bool.and_eq_true, decide_eq_true_eq, available_iff] at hp ⊢
  obtain ⟨hd, hc, he⟩ := hp
  exact ⟨hd, hc, Nat.lt_of_le_of_lt h he⟩

/-- Packages of one device are no stock of another. -/
theorem stockOf_other {rows : List KeyPackage} {deviceId other : Uuid}
    (h : ∀ p ∈ rows, p.deviceId = other) (hne : deviceId ≠ other) (now : Timestamp) :
    stockOf rows deviceId now = 0 := by
  refine countP_eq_zero.2 fun p hp hav => ?_
  simp only [Bool.and_eq_true, decide_eq_true_eq] at hav
  exact hne (hav.1 ▸ h p hp)

/-- A package that is consumed is stock no more. -/
theorem stockOf_consume {db : Db} {row : KeyPackage}
    (hrow : db.keyPackages.get row.id = some row) (consumer deviceId : Uuid)
    (now now' : Timestamp) :
    stockOf (db.keyPackages.put (row.consume consumer now)).rows deviceId now'
      ≤ stockOf db.keyPackages.rows deviceId now' := by
  have hget : db.keyPackages.get (row.consume consumer now).id = some row := hrow
  have hput := Table.rows_put_of_some hget
  rw [hput, stockOf, stockOf, countP_map]
  refine countP_mono_left fun p _ hp => ?_
  simp only [Function.comp_apply] at hp
  split at hp
  · simp [KeyPackage.available, KeyPackage.consume] at hp
  · exact hp

/-! ## Publications between their count and their commit -/

/-- A publication of the device that has inserted packages, has counted the stock and has
not committed yet. -/
def Counted (tx : Backend.Tx) (deviceId : Uuid) : Prop :=
  tx.writes ≠ [] ∧
    match tx.req, tx.loc with
    | .publishKeyPackages _ device _, .commit _ => device = deviceId
    | _, _ => False

/-- No publication that has inserted packages commits while another of its device that has
is between its count and its commit. -/
def CountsLast (s : Backend.State) (a : Action Request) : Prop :=
  ∀ i tx deviceId, a = .stmt i → s.tx i = some tx → Counted tx deviceId →
    ∀ j u, j ≠ i → s.tx j = some u → ¬ Counted u deviceId

variable {w : Backend.World} {tx : Backend.Tx}

/-- A publication that has counted has inserted packages of its device and nothing else. -/
theorem publishAt_of_counted {deviceId : Uuid} (h : KeyPackages.Assertion w tx)
    (hc : Counted tx deviceId) : KeyPackages.PublishAt w tx.writes deviceId := by
  obtain ⟨req, now, born, stage, locks, writes, covered⟩ := tx
  obtain ⟨-, hc⟩ := hc
  cases req with
  | publishKeyPackages user device packages =>
    cases stage with
    | commit n =>
      have hd : device = deviceId := hc
      exact hd ▸ h
    | _ => exact absurd hc id
  | _ => exact absurd hc id

/-- What a publication that has counted will add to the stock. -/
theorem stockOf_see {deviceId : Uuid} (h : KeyPackages.PublishAt w tx.writes deviceId)
    (now : Timestamp) :
    ∃ ps, tx.writes = ps.map .insertKeyPackage ∧
      stockOf (tx.see w.db).keyPackages.rows deviceId now
        = stockOf w.db.keyPackages.rows deviceId now + stockOf ps deviceId now := by
  obtain ⟨ps, hw, hf, -⟩ := h
  refine ⟨ps, hw, ?_⟩
  rw [Program.Tx.see, hw, rows_publish hf, stockOf_append]

/-! ## The bound -/

/-- The bound, and the count of every publication about to commit. -/
structure StockInv (s : Backend.State) : Prop where
  bound : ∀ deviceId,
    stockOf s.db.keyPackages.rows deviceId s.now ≤ maxAvailableKeyPackagesPerDevice
  counted : ∀ i tx deviceId, s.tx i = some tx → Counted tx deviceId →
    stockOf (tx.see s.db).keyPackages.rows deviceId tx.now ≤ maxAvailableKeyPackagesPerDevice

/-- No transaction is ahead of the clock. -/
theorem now_holds (db : Db) : Program.Holds e2eeBackend db (fun _ => True)
    (fun w tx => tx.now ≤ w.now) := by
  refine Program.Outline.holds ?_ (Program.holds_true db) trivial
  exact ⟨fun _ _ => trivial, fun hl h => Nat.le_trans h hl.now, fun _ _ _ => Nat.le_refl _,
    fun _ _ _ h _ => h, fun _ _ _ _ _ _ => trivial, fun _ _ _ _ _ h _ _ => h,
    fun _ _ _ _ _ => trivial⟩

/-- Only a publication inserts packages. -/
theorem stock_of_effect {ws : List Write} (h : KeyPackages.Effect w ws)
    (hins : ∀ p, .insertKeyPackage p ∉ ws) (deviceId : Uuid) (now : Timestamp) :
    stockOf (e2eeBackend.applyAll w.db ws).keyPackages.rows deviceId now
      ≤ stockOf w.db.keyPackages.rows deviceId now := by
  cases h with
  | idle hk => rw [keyPackages_of_table hk]
  | @publish ps hf =>
    cases ps with
    | nil => exact Nat.le_refl _
    | cons p ps => exact absurd (by simp) (hins p)
  | take hrow ha => exact stockOf_consume hrow _ deviceId _ now

theorem no_insert_of_takeAt {born : ℕ} {now : Timestamp} {locks : Locks LockKey}
    {writes : List Write} {allowed : Db → Bool} {target consumer : Uuid}
    {claimed : Option KeyPackage}
    (h : KeyPackages.TakeAt w born now locks writes allowed target consumer (.commit claimed))
    (p : KeyPackage) : .insertKeyPackage p ∉ writes := by
  cases claimed with
  | none =>
    have hw : writes = [] := h
    simp [hw]
  | some q =>
    obtain ⟨row, -, rfl, -⟩ := h
    simp

/-- What a commit does to the stock of a device: a publication of it leaves what it has
counted, every other call leaves no more than there was. -/
theorem stock_of_commit {locked : LockKey → LockMode → Bool} {out : Response}
    (ht : Backend.InTables tx) (h : KeyPackages.Assertion w tx)
    (hs : tx.stmt w locked = .commit out) (deviceId : Uuid) :
    Counted tx deviceId ∨ ∀ now, stockOf (tx.see w.db).keyPackages.rows deviceId now
      ≤ stockOf w.db.keyPackages.rows deviceId now := by
  have heff := KeyPackages.effect_of_commit ht h hs
  have hother : tx.req.isPackage = false → ∀ p, .insertKeyPackage p ∉ tx.writes := by
    intro hr p hp
    exact Request.tables_of_not_package hr (ht _ hp)
  obtain ⟨req, now, born, stage, locks, writes, covered⟩ := tx
  cases req with
  | publishKeyPackages user device packages =>
    obtain ⟨n, rfl, -⟩ := publish_commit hs
    obtain ⟨ps, hw, hf, hdev⟩ := h
    subst hw
    by_cases hd : device = deviceId
    · by_cases hps : ps = []
      · subst hps
        exact Or.inr fun now => Nat.le_refl _
      · exact Or.inl ⟨by simpa using hps, hd⟩
    · refine Or.inr fun now' => ?_
      simp only [Program.Tx.see]
      rw [rows_publish hf, stockOf_append, stockOf_other hdev (Ne.symm hd)]
      exact Nat.le_refl _
  | takeKeyPackage user target consumer =>
    change takeStatement (fun db => db.mayTake user target consumer) target consumer _ stage
      = _ at hs
    obtain ⟨claimed, rfl, -⟩ := take_commit hs
    exact Or.inr fun now' => stock_of_effect heff (no_insert_of_takeAt h) deviceId now'
  | takeKeyPackageForRoom roomId user target consumer =>
    change takeStatement (fun db => db.mayTakeForRoom roomId user target consumer) target
      consumer _ stage = _ at hs
    obtain ⟨claimed, rfl, -⟩ := take_commit hs
    exact Or.inr fun now' => stock_of_effect heff (no_insert_of_takeAt h) deviceId now'
  | _ => exact Or.inr fun now' => stock_of_effect heff (hother rfl) deviceId now'

/-- A publication that has counted does so at its commit. -/
theorem counted_next {locked : LockKey → LockMode → Bool} {loc : tx.req.Stage} {ls : Locks LockKey}
    {ws : List Write} {n : ℕ} (hs : tx.stmt w locked = .next loc ls ws n) {deviceId : Uuid}
    (hc : Counted (tx.advance loc ls ws) deviceId) :
    stockOf ((tx.advance loc ls ws).see w.db).keyPackages.rows deviceId tx.now
      ≤ maxAvailableKeyPackagesPerDevice := by
  obtain ⟨req, now, born, stage, locks, writes, covered⟩ := tx
  obtain ⟨-, hc⟩ := hc
  cases req with
  | publishKeyPackages user device packages =>
    obtain ⟨hnext, -⟩ := publish_next hs
    cases hnext with
    | count inserted hle =>
      have hd : device = deviceId := hc
      subst hd
      rw [length_availablePackages] at hle
      simpa [Program.Tx.see, Program.Tx.advance] using hle
    | _ => exact absurd hc id
  | _ => exact absurd hc id

/-- **The invariant holds along every run in which each publication counts last.** -/
theorem stockInv_of_reach {db : Db} (hdb : db.Initial) {s : Backend.State}
    (hr : Program.ReachUnder CountsLast (init db) s) : StockInv s := by
  induction hr with
  | refl =>
    refine ⟨fun deviceId => ?_, fun i tx deviceId htx => by simp at htx⟩
    have hrows : (init db : Backend.State).db.keyPackages.rows = [] := hdb.keyPackages
    rw [hrows]
    exact Nat.zero_le _
  | @step s s' a hr hok hstep ih =>
    have hA := (KeyPackages.holds db s hr.reach).2
    have hA' := (KeyPackages.holds db s' (hr.reach.step trivial hstep)).2
    have hnow := (now_holds db s hr.reach).2
    cases Program.step_cases hstep with
    | begin r =>
      refine ⟨ih.bound, fun j u deviceId hu hc => ?_⟩
      rw [tx_push] at hu
      by_cases hj : j = s.txs.length
      · rw [if_pos hj] at hu
        rw [← Option.some.inj hu] at hc
        exact absurd rfl hc.1
      · rw [if_neg hj] at hu
        exact ih.counted j u deviceId hu hc
    | next i tx loc ls ws n htx hs hl =>
      refine ⟨ih.bound, fun j u deviceId hu hc => ?_⟩
      rw [tx_set htx] at hu
      by_cases hj : j = i
      · rw [if_pos hj] at hu
        rw [← Option.some.inj hu] at hc ⊢
        exact counted_next hs hc
      · rw [if_neg hj] at hu
        exact ih.counted j u deviceId hu hc
    | commit i tx out htx hs =>
      have hB := hA i tx htx
      refine ⟨fun deviceId => ?_, fun j u deviceId hu hc => ?_⟩
      · -- a publication leaves what it has counted, at a time no earlier than its own
        rcases stock_of_commit hB.2 hB.1 hs deviceId with hc | hle
        · exact Nat.le_trans (stockOf_mono _ _ (hnow i tx htx)) (ih.counted i tx deviceId htx hc)
        · exact Nat.le_trans (hle s.now) (ih.bound deviceId)
      · have hu' := hu
        rw [tx_set htx] at hu
        by_cases hj : j = i
        · simp [hj] at hu
        · rw [if_neg hj] at hu
          -- the other has counted too, so this was no publication of the device
          rcases stock_of_commit hB.2 hB.1 hs deviceId with hct | hle
          · exact absurd hc (hok i tx deviceId rfl htx hct j u hj hu)
          · have hp := publishAt_of_counted (hA j u hu).1 hc
            have hp' := publishAt_of_counted (hA' j u hu').1 hc
            obtain ⟨ps, hw, hsee⟩ := stockOf_see hp u.now
            obtain ⟨ps', hw', hsee'⟩ := stockOf_see hp' u.now
            have hps : ps' = ps := by
              rw [hw] at hw'
              exact (map_injective_iff.2 (fun a b h => Write.insertKeyPackage.inj h) hw').symm
            have hcount := ih.counted j u deviceId hu hc
            have hless : stockOf (tx.see s.db).keyPackages.rows deviceId u.now
              ≤ stockOf s.db.keyPackages.rows deviceId u.now := hle u.now
            rw [hsee']
            subst hps
            change stockOf (tx.see s.db).keyPackages.rows deviceId u.now + _ ≤ _
            omega
    | reject i tx err htx hs | abort i tx htx =>
      refine ⟨ih.bound, fun j u deviceId hu hc => ?_⟩
      rw [tx_set htx] at hu
      by_cases hj : j = i
      · simp [hj] at hu
      · rw [if_neg hj] at hu
        exact ih.counted j u deviceId hu hc
    | tick n =>
      refine ⟨fun deviceId => ?_, ih.counted⟩
      exact Nat.le_trans (stockOf_mono _ _ (Nat.le_add_right _ _)) (ih.bound deviceId)

/-- The stock of all devices, and what becomes of a publication that would exceed it. -/
structure StockKept (s : Backend.State) : Prop where
  /-- No device has more available packages than it may. -/
  bound : ∀ deviceId,
    (s.db.availablePackages deviceId s.now).length ≤ maxAvailableKeyPackagesPerDevice
  /-- A publication that counts too many fails, and every row stays as it is. -/
  refused : ∀ (i : ℕ) (user deviceId : Uuid) (packages : List NewKeyPackage) (now born n : ℕ)
    (locks : Locks LockKey) (writes : List Write) covered,
    let tx : Backend.Tx :=
      { req := .publishKeyPackages user deviceId packages, now := now, born := born,
        loc := PublishStage.count n, locks := locks, writes := writes, covered := covered }
    s.tx i = some tx →
    maxAvailableKeyPackagesPerDevice < ((tx.see s.db).availablePackages deviceId now).length →
    ∃ s', Program.step s (.stmt i) = some s' ∧ s'.db = s.db ∧ s'.tx i = none ∧
      s'.hist = s.hist ++ [tx.finish s.past.length (.error (.rateLimitExceeded
        s!"每台设备最多保留 {maxAvailableKeyPackagesPerDevice} 个可用 KeyPackage"))]

/-- **The stock stays within its bound along every run in which each publication counts
last.** -/
theorem key_package_stock {db : Db} (hdb : db.Initial) {s : Backend.State}
    (hr : Program.ReachUnder CountsLast (init db) s) : StockKept s := by
  have hinv := stockInv_of_reach hdb hr
  refine ⟨fun deviceId => ?_, ?_⟩
  · rw [length_availablePackages]
    exact hinv.bound deviceId
  · intro i user deviceId packages now born n locks writes covered tx htx hcount
    have hs : tx.stmt s.toWorld (s.locked i) = .fail (.rateLimitExceeded
        s!"每台设备最多保留 {maxAvailableKeyPackagesPerDevice} 个可用 KeyPackage") := by
      change publishKeyPackages user deviceId packages _ (.count n) = _
      simp only [publishKeyPackages]
      rw [if_pos hcount]
    refine ⟨_, Program.step_fail htx hs, rfl, ?_, rfl⟩
    rw [tx_set htx, if_pos rfl]

/-- Calls that run one at a time count last. -/
theorem countsLast_of_alone {s : Backend.State} {a : Action Request}
    (h : (s.txs.dropLast.all fun t => t.isNone) = true) : CountsLast s a := by
  intro i tx deviceId _ htx _ j u hj hu
  have hi := tx_of_dropLast_none h htx
  have hj' := tx_of_dropLast_none h hu
  exact absurd (hj'.trans hi.symm) hj

/-- A publication of device `21`, alone. -/
def Sample.published : Backend.State :=
  (Program.runUnder (P := e2eeBackend) (fun s _ => s.txs.dropLast.all fun t => t.isNone)
    (.init (Db.withRooms [1]))
    (setup ++ alone 5 5 (.publishKeyPackages 2 21 [newPackage 1]))).get
    (by decide)

open Sample

theorem key_package_stock_sample :
    (published.db.availablePackages 21 published.now).length = 1 ∧
      StockKept published :=
  ⟨by decide, key_package_stock (Db.initial_withRooms [1])
    (Program.reachUnder_of_runUnder (fun _ _ h => countsLast_of_alone h) (Option.some_get _).symm)⟩

/-! ## Publications that overlap -/

/-- A publication at a stage that has inserted some rows, and holds no locks but those of
the device and of these rows. -/
def Publishes (tx : Backend.Tx) (user deviceId : Uuid) (packages : List NewKeyPackage)
    (now : Timestamp) (stage : PublishStage) (rows : List KeyPackage) : Prop :=
  ∃ (born : ℕ) (locks : Locks LockKey) (writes : List Write) (covered : _),
    tx = { req := .publishKeyPackages user deviceId packages, now := now, born := born,
           loc := stage, locks := locks, writes := writes, covered := covered } ∧
    writes = rows.map .insertKeyPackage ∧
    ∀ l ∈ locks, l = (.device deviceId, .share) ∨ ∃ p ∈ rows,
      l = (.keyPackage p.id, .update) ∨ l = (.packageRef p.packageRef, .update)

/-- No package of one list has the id or the reference of one of the other. -/
def Apart (rows rows' : List KeyPackage) : Prop :=
  ∀ p ∈ rows, ∀ q ∈ rows', p.id ≠ q.id ∧ p.packageRef ≠ q.packageRef

variable {s : Backend.State} {i : ℕ} {user deviceId : Uuid} {packages : List NewKeyPackage}
  {rows : List KeyPackage} {ps : List NewKeyPackage}

/-- Two publications of a device with packages apart do not keep each other waiting. -/
theorem compatible_of_apart {tx u : Backend.Tx} {user' : Uuid} {packages' : List NewKeyPackage}
    {now now' : Timestamp} {stage stage' : PublishStage} {rows' : List KeyPackage}
    (h : Publishes tx user deviceId packages now stage rows)
    (h' : Publishes u user' deviceId packages' now' stage' rows') (ha : Apart rows rows') :
    Locks.compatible tx.locks u.locks = true := by
  obtain ⟨born, locks, writes, covered, rfl, -, hl⟩ := h
  obtain ⟨born', locks', writes', covered', rfl, -, hl'⟩ := h'
  refine Locks.compatible_iff.2 fun l hmem l' hmem' hkey => ?_
  rcases hl l hmem with rfl | ⟨p, hp, rfl | rfl⟩ <;>
    rcases hl' l' hmem' with rfl | ⟨q, hq, rfl | rfl⟩ <;> first | rfl | cases hkey | skip
  · exact absurd (LockKey.keyPackage.inj hkey) (ha p hp q hq).1
  · exact absurd (LockKey.packageRef.inj hkey) (ha p hp q hq).2

/-- All other calls in flight are publications of the device with packages apart. -/
def Beside (s : Backend.State) (i : ℕ) (deviceId : Uuid) (rows : List KeyPackage) : Prop :=
  ∀ j u, j ≠ i → s.tx j = some u → ∃ user packages now stage rows',
    Publishes u user deviceId packages now stage rows' ∧ Apart rows rows'

theorem Beside.mono {rows' : List KeyPackage} (h : Beside s i deviceId rows)
    (hsub : ∀ p ∈ rows', p ∈ rows) : Beside s i deviceId rows' := by
  intro j u hj hu
  obtain ⟨user, packages, now, stage, others, hp, ha⟩ := h j u hj hu
  exact ⟨user, packages, now, stage, others, hp, fun p hp => ha p (hsub p hp)⟩

/-- The state after a statement of a publication: only its own transaction has moved. -/
structure Moved (s s' : Backend.State) (i : ℕ) : Prop where
  reach : Program.Reach s s'
  world : s'.toWorld = s.toWorld
  others : ∀ j, j ≠ i → s'.tx j = s.tx j

theorem Moved.trans {s₁ s₂ : Backend.State} (h : Moved s s₁ i) (h' : Moved s₁ s₂ i) :
    Moved s s₂ i :=
  ⟨h.reach.trans h'.reach, h'.world.trans h.world,
    fun j hj => (h'.others j hj).trans (h.others j hj)⟩

theorem Moved.beside {s' : Backend.State} (h : Moved s s' i) (hb : Beside s i deviceId rows) :
    Beside s' i deviceId rows :=
  fun j u hj hu => hb j u hj (h.others j hj ▸ hu)

/-- A statement of a publication that is not kept waiting. -/
theorem moved_of_next {now : Timestamp} {stage stage' : PublishStage} {new : List KeyPackage}
    {ls : Locks LockKey} {tx : Backend.Tx} (htx : s.tx i = some tx)
    (h : Publishes tx user deviceId packages now stage rows)
    (hs : publishKeyPackages user deviceId packages
      { db := e2eeBackend.applyAll s.db (rows.map .insertKeyPackage), seq := s.seq, now := now,
        locked := s.locked i } stage = .next stage' ls (new.map .insertKeyPackage) 0)
    (hls : ∀ l ∈ ls, l = (.device deviceId, .share)) (hb : Beside s i deviceId (rows ++ new)) :
    ∃ s' tx', Moved s s' i ∧ s'.tx i = some tx' ∧
      Publishes tx' user deviceId packages now stage' (rows ++ new) := by
  obtain ⟨born, locks, writes, covered, rfl, rfl, hl⟩ := h
  have hnext : Publishes (Program.Tx.advance (P := e2eeBackend)
      { req := .publishKeyPackages user deviceId packages, now := now, born := born,
        loc := stage, locks := locks, writes := rows.map .insertKeyPackage, covered := covered }
      stage' ls (new.map .insertKeyPackage)) user deviceId packages now stage' (rows ++ new) := by
    refine ⟨born, _, _, _, rfl, (map_append ..).symm, fun l hmem => ?_⟩
    rcases mem_append.1 hmem with hmem | hmem
    · rcases mem_append.1 hmem with hmem | hmem
      · rcases hl l hmem with hl | ⟨p, hp, hl⟩
        · exact Or.inl hl
        · exact Or.inr ⟨p, mem_append_left _ hp, hl⟩
      · exact Or.inl (hls l hmem)
    · obtain ⟨x, hx, hlx⟩ := mem_flatMap.1 hmem
      obtain ⟨p, hp, rfl⟩ := mem_map.1 hx
      refine Or.inr ⟨p, mem_append_right _ hp, ?_⟩
      simpa [e2eeBackend, Write.guards] using hlx
  have hstep := Program.step_next htx hs fun j u hj hu => by
    obtain ⟨user', packages', now', stage'', rows', hp, ha⟩ := hb j u hj hu
    exact compatible_of_apart hnext hp ha
  refine ⟨_, _, ⟨Program.ReachUnder.refl.step trivial hstep, rfl, fun j hj => ?_⟩, ?_, hnext⟩
  · rw [tx_set htx, if_neg hj]
  · rw [tx_set htx, if_pos rfl]

theorem Fresh.left {db : Db} {ps qs : List KeyPackage} (h : Fresh db (ps ++ qs)) : Fresh db ps :=
  ⟨fun p hp => h.ids p (mem_append_left _ hp),
    fun p hp => h.refs p (mem_append_left _ hp),
    (nodup_append.1 (map_append ▸ h.distinctIds)).1,
    (nodup_append.1 (map_append ▸ h.distinctRefs)).1,
    fun p hp => h.unused p (mem_append_left _ hp)⟩

theorem Fresh.after {db db' : Db} {ps qs : List KeyPackage} (h : Fresh db (ps ++ qs))
    (hrows : db'.keyPackages.rows = db.keyPackages.rows ++ ps) : Fresh db' qs := by
  have hid := h.distinctIds
  have href := h.distinctRefs
  rw [map_append, nodup_append] at hid href
  refine ⟨fun q hq => Table.get_eq_none_iff.2 fun x hx => ?_, fun q hq x hx => ?_, hid.2.1,
    href.2.1, fun q hq => h.unused q (mem_append_right _ hq)⟩
  · rw [hrows] at hx
    rcases mem_append.1 hx with hx | hx
    · exact Table.get_eq_none_iff.1 (h.ids q (mem_append_right _ hq)) x hx
    · exact hid.2.2 _ (mem_map_of_mem hx) _ (mem_map_of_mem hq)
  · rw [hrows] at hx
    rcases mem_append.1 hx with hx | hx
    · exact h.refs q (mem_append_right _ hq) x hx
    · exact href.2.2 _ (mem_map_of_mem hx) _ (mem_map_of_mem hq)

theorem Fresh.right {db : Db} {ps qs : List KeyPackage} (h : Fresh db (ps ++ qs)) : Fresh db qs :=
  ⟨fun p hp => h.ids p (mem_append_right _ hp),
    fun p hp => h.refs p (mem_append_right _ hp),
    (nodup_append.1 (map_append ▸ h.distinctIds)).2.1,
    (nodup_append.1 (map_append ▸ h.distinctRefs)).2.1,
    fun p hp => h.unused p (mem_append_right _ hp)⟩

/-- A package that is new to the table and to the rows inserted before it is inserted. -/
theorem publish_insert {db : Db} {now seq : ℕ} {locked : LockKey → LockMode → Bool}
    {p : NewKeyPackage} {k : ℕ} (hc : (p.row deviceId now).checks = true)
    (hf : Fresh db (rows ++ [p.row deviceId now])) :
    publishKeyPackages user deviceId packages
      { db := e2eeBackend.applyAll db (rows.map .insertKeyPackage), seq := seq, now := now,
        locked := locked } (.insert (p :: ps) k)
      = .next (.insert ps (k + 1)) [] ([p.row deviceId now].map .insertKeyPackage) 0 := by
  have hrows := rows_publish hf.left
  have hmem : p.row deviceId now ∈ rows ++ [p.row deviceId now] := by simp
  have hid : (e2eeBackend.applyAll db (rows.map .insertKeyPackage)).keyPackages.get p.id
      = none := by
    refine Table.get_eq_none_iff.2 fun x hx => ?_
    rw [hrows] at hx
    rcases mem_append.1 hx with hx | hx
    · exact Table.get_eq_none_iff.1 (hf.ids _ hmem) x hx
    · have hd := hf.distinctIds
      rw [map_append, nodup_append] at hd
      exact hd.2.2 x.id (mem_map_of_mem hx) p.id (by simp [NewKeyPackage.row])
  have href : ((e2eeBackend.applyAll db (rows.map .insertKeyPackage)).keyPackages.rows.any
      fun x => x.packageRef = p.packageRef) = false := by
    refine any_eq_false.2 fun x hx => ?_
    rw [decide_eq_true_eq]
    rw [hrows] at hx
    rcases mem_append.1 hx with hx | hx
    · exact hf.refs _ hmem x hx
    · have hd := hf.distinctRefs
      rw [map_append, nodup_append] at hd
      exact hd.2.2 x.packageRef (mem_map_of_mem hx) p.packageRef (by simp [NewKeyPackage.row])
  have hrow : (p.row deviceId now).packageRef = p.packageRef ∧ (p.row deviceId now).id = p.id :=
    ⟨rfl, rfl⟩
  simp only [publishKeyPackages, hc, hrow, href, hid, Bool.not_true, Bool.false_eq_true, if_false,
    Option.isSome_none, map_cons, map_nil]

/-- The packages of a request are inserted one after the other. -/
theorem moved_of_inserts {now : Timestamp} {tx : Backend.Tx} {k : ℕ} (htx : s.tx i = some tx)
    (h : Publishes tx user deviceId packages now (.insert ps k) rows)
    (hc : ∀ p ∈ ps, (p.row deviceId now).checks = true)
    (hf : Fresh s.db (rows ++ ps.map fun p => p.row deviceId now))
    (hb : Beside s i deviceId (rows ++ ps.map fun p => p.row deviceId now)) :
    ∃ s' tx', Moved s s' i ∧ s'.tx i = some tx' ∧
      Publishes tx' user deviceId packages now (.insert [] (k + ps.length))
        (rows ++ ps.map fun p => p.row deviceId now) := by
  induction ps generalizing s tx k rows with
  | nil => exact ⟨s, tx, ⟨.refl, rfl, fun _ _ => rfl⟩, htx, by simpa using h⟩
  | cons p ps ih =>
    have hsplit : rows ++ (p :: ps).map (fun p => p.row deviceId now)
        = (rows ++ [p.row deviceId now]) ++ ps.map fun p => p.row deviceId now := by simp
    rw [hsplit] at hf hb
    have hstmt : publishKeyPackages user deviceId packages
        { db := e2eeBackend.applyAll s.db (rows.map .insertKeyPackage), seq := s.seq, now := now,
          locked := s.locked i } (.insert (p :: ps) k)
        = .next (.insert ps (k + 1)) [] ([p.row deviceId now].map .insertKeyPackage) 0 :=
      publish_insert (hc p mem_cons_self) hf.left
    obtain ⟨s₁, tx₁, hm₁, htx₁, h₁⟩ := moved_of_next htx h hstmt (by simp)
      (hb.mono fun x hx => mem_append_left _ hx)
    obtain ⟨s₂, tx₂, hm₂, htx₂, h₂⟩ := ih htx₁ h₁ (fun q hq => hc q (mem_cons_of_mem _ hq))
      (by rw [hm₁.world]; exact hf) (hm₁.beside hb)
    refine ⟨s₂, tx₂, hm₁.trans hm₂, htx₂, ?_⟩
    rw [hsplit, length_cons, show k + (ps.length + 1) = k + 1 + ps.length by omega]
    exact h₂

/-- Publications only share the lock on their device. -/
theorem not_locked_of_beside (hb : Beside s i deviceId rows) :
    s.locked i (.device deviceId) .share = false := by
  refine any_eq_false.2 fun u hu => ?_
  obtain ⟨j, hj, hu⟩ := mem_others.1 hu
  obtain ⟨user, packages, now, stage, rows', ⟨born, locks, writes, covered, rfl, -, hl⟩, -⟩ :=
    hb j u hj hu
  have hcompat : Locks.compatible [(LockKey.device deviceId, LockMode.share)] locks = true := by
    refine Locks.compatible_iff.2 fun l hmem l' hmem' hkey => ?_
    rw [mem_singleton.1 hmem] at hkey ⊢
    rcases hl l' hmem' with rfl | ⟨p, -, rfl | rfl⟩
    · rfl
    · cases hkey
    · cases hkey
  simp [hcompat]

/-- A publication that counts no more than it may runs up to its commit, whatever other
publications of the device are in flight. -/
theorem counted_of_begin {d : Device} (hd : s.db.userDevice user deviceId = some d)
    (hact : d.status = .active) (hv : ∀ p ∈ ps, p.protocolVersion = d.protocolVersion)
    (hc : ∀ p ∈ ps, (p.row deviceId s.now).checks = true)
    (hf : Fresh s.db (ps.map fun p => p.row deviceId s.now))
    (hle : stockOf s.db.keyPackages.rows deviceId s.now + ps.length ≤
      maxAvailableKeyPackagesPerDevice)
    (hb : Beside s s.txs.length deviceId (ps.map fun p => p.row deviceId s.now)) :
    ∃ s' tx, Moved s s' s.txs.length ∧ s'.tx s.txs.length = some tx ∧
      Publishes tx user deviceId ps s.now (.commit ps.length)
        (ps.map fun p => p.row deviceId s.now) := by
  let rows := ps.map fun p => p.row deviceId s.now
  let tx₀ : Backend.Tx := Program.Tx.begin (.publishKeyPackages user deviceId ps) s.past.length
    s.now
  have hm₀ : Moved s (s.push tx₀) s.txs.length := by
    refine ⟨Program.ReachUnder.refl.step (a := .begin (.publishKeyPackages user deviceId ps))
      trivial rfl, rfl, fun j hj => ?_⟩
    rw [tx_push, if_neg hj]
  have htx₀ : (s.push tx₀).tx s.txs.length = some tx₀ := by rw [tx_push, if_pos rfl]
  have h₀ : Publishes tx₀ user deviceId ps s.now .lockDevice [] :=
    ⟨s.past.length, [], [], _, rfl, rfl, by simp⟩
  have hb₀ := hm₀.beside hb
  -- the lock on the device is shared
  have hlock : publishKeyPackages user deviceId ps
      { db := e2eeBackend.applyAll s.db (([] : List KeyPackage).map .insertKeyPackage),
        seq := s.seq, now := s.now, locked := (s.push tx₀).locked s.txs.length } .lockDevice
      = .next (.insert ps 0) [(.device deviceId, .share)]
          (([] : List KeyPackage).map .insertKeyPackage) 0 := by
    have hany : (ps.any fun p => p.protocolVersion ≠ d.protocolVersion) = false := by simpa using hv
    simp only [publishKeyPackages, map_nil, Program.applyAll_nil, hd,
      not_locked_of_beside hb₀, hact, hany, Bool.false_eq_true, if_false, ne_eq,
      not_true_eq_false]
  obtain ⟨s₁, tx₁, hm₁, htx₁, h₁⟩ := moved_of_next htx₀ h₀ hlock (by simp) (hb₀.mono (by simp))
  obtain ⟨s₂, tx₂, hm₂, htx₂, h₂⟩ := moved_of_inserts htx₁ h₁ hc
    (by rw [hm₁.world]; exact hf) (hm₁.beside hb₀)
  have hb₂ := hm₂.beside (hm₁.beside hb₀)
  have hw₂ : s₂.toWorld = s.toWorld := hm₂.world.trans hm₁.world
  rw [append_nil, nil_append, Nat.zero_add] at h₂
  have hdone : publishKeyPackages user deviceId ps
      { db := e2eeBackend.applyAll s₂.db (rows.map .insertKeyPackage), seq := s₂.seq,
        now := s.now, locked := s₂.locked s.txs.length } (.insert [] ps.length)
      = .next (.count ps.length) [] (([] : List KeyPackage).map .insertKeyPackage) 0 := rfl
  obtain ⟨s₃, tx₃, hm₃, htx₃, h₃⟩ := moved_of_next htx₂ h₂ hdone (by simp) (hb₂.mono (by simp))
  have hw₃ : s₃.toWorld = s.toWorld := hm₃.world.trans hw₂
  rw [append_nil] at h₃
  have hcount : publishKeyPackages user deviceId ps
      { db := e2eeBackend.applyAll s₃.db (rows.map .insertKeyPackage), seq := s₃.seq,
        now := s.now, locked := s₃.locked s.txs.length } (.count ps.length)
      = .next (.commit ps.length) [] (([] : List KeyPackage).map .insertKeyPackage) 0 := by
    have hlen : stockOf (ps.map fun p => p.row deviceId s.now) deviceId s.now ≤ ps.length := by
      refine Nat.le_trans countP_le_length ?_
      rw [length_map]
    simp only [publishKeyPackages]
    rw [length_availablePackages, hw₃, rows_publish hf, stockOf_append, if_neg (by omega)]
    rfl
  obtain ⟨s₄, tx₄, hm₄, htx₄, h₄⟩ := moved_of_next htx₃ h₃ hcount (by simp)
    ((hm₃.beside hb₂).mono (by simp))
  rw [append_nil] at h₄
  exact ⟨s₄, tx₄, (((hm₀.trans hm₁).trans hm₂).trans hm₃).trans hm₄, htx₄, h₄⟩

/-- A publication at its commit commits. -/
theorem commit_of_publishes {tx : Backend.Tx} (htx : s.tx i = some tx) {now n : ℕ}
    (h : Publishes tx user deviceId packages now (.commit n) rows) (hf : Fresh s.db rows) :
    ∃ s', Program.Reach s s' ∧ s'.now = s.now ∧ s'.db.devices = s.db.devices ∧
      s'.db.keyPackages.rows = s.db.keyPackages.rows ++ rows ∧ s'.tx i = none ∧
      ∀ j, j ≠ i → s'.tx j = s.tx j := by
  obtain ⟨born, locks, writes, covered, rfl, rfl, -⟩ := h
  have hstep := Program.step_commit htx (.published n) rfl
  refine ⟨_, Program.ReachUnder.refl.step trivial hstep, rfl, ?_, rows_publish hf, ?_, ?_⟩
  · have hdev : ∀ (ps : List KeyPackage) (db : Db),
        (e2eeBackend.applyAll db (ps.map .insertKeyPackage)).devices = db.devices := by
      intro ps
      induction ps with
      | nil => exact fun _ => rfl
      | cons p ps ih => exact fun db => ih _
    exact hdev rows s.db
  · rw [tx_set htx, if_pos rfl]
  · intro j hj
    rw [tx_set htx, if_neg hj]

/-- **Two publications that overlap are both accepted**: each counts what is committed and
its own packages, so each may fill the stock up to the bound. -/
theorem publications_overlap (hidle : ∀ j, s.tx j = none) {d : Device}
    (hd : s.db.userDevice user deviceId = some d) (hact : d.status = .active)
    {qs : List NewKeyPackage} (hv : ∀ p ∈ ps ++ qs, p.protocolVersion = d.protocolVersion)
    (hc : ∀ p ∈ ps ++ qs, (p.row deviceId s.now).checks = true)
    (hf : Fresh s.db ((ps ++ qs).map fun p => p.row deviceId s.now))
    (hps : stockOf s.db.keyPackages.rows deviceId s.now + ps.length ≤
      maxAvailableKeyPackagesPerDevice)
    (hqs : stockOf s.db.keyPackages.rows deviceId s.now + qs.length ≤
      maxAvailableKeyPackagesPerDevice) :
    ∃ s', Program.Reach s s' ∧ (∀ j, s'.tx j = none) ∧ s'.now = s.now ∧
      s'.db.devices = s.db.devices ∧ s'.db.keyPackages.rows
        = s.db.keyPackages.rows ++ (ps ++ qs).map fun p => p.row deviceId s.now := by
  rw [map_append] at hf ⊢
  have hapart : Apart (qs.map fun p => p.row deviceId s.now)
      (ps.map fun p => p.row deviceId s.now) := by
    intro q hq p hp
    have hid := hf.distinctIds
    have href := hf.distinctRefs
    rw [map_append, nodup_append] at hid href
    exact ⟨Ne.symm (hid.2.2 _ (mem_map_of_mem hp) _ (mem_map_of_mem hq)),
      Ne.symm (href.2.2 _ (mem_map_of_mem hp) _ (mem_map_of_mem hq))⟩
  -- the first publication runs up to its commit, alone
  obtain ⟨s₁, tx₁, hm₁, htx₁, h₁⟩ := counted_of_begin hd hact
    (fun p hp => hv p (mem_append_left _ hp)) (fun p hp => hc p (mem_append_left _ hp))
    hf.left hps (fun j u hj hu => by simp [hidle j] at hu)
  have hnone₁ : ∀ j, j ≠ s.txs.length → s₁.tx j = none := fun j hj =>
    (hm₁.others j hj).trans (hidle j)
  have hne : s.txs.length ≠ s₁.txs.length := by
    intro he
    rw [tx_of_length_le (Nat.le_of_eq he.symm)] at htx₁
    cases htx₁
  -- the second does the same beside it
  have hbeside : Beside s₁ s₁.txs.length deviceId (qs.map fun p => p.row deviceId s₁.now) := by
    intro j u hj hu
    by_cases hj₁ : j = s.txs.length
    · rw [hj₁, htx₁, Option.some.injEq] at hu
      subst hu
      rw [hm₁.world]
      exact ⟨user, ps, s.now, _, _, h₁, hapart⟩
    · rw [hnone₁ j hj₁] at hu
      cases hu
  have hworld := hm₁.world
  obtain ⟨s₂, tx₂, hm₂, htx₂, h₂⟩ := @counted_of_begin s₁ user deviceId qs d
    (by rw [hworld]; exact hd) hact (fun p hp => hv p (mem_append_right _ hp))
    (by rw [hworld]; exact fun p hp => hc p (mem_append_right _ hp))
    (by rw [hworld]; exact hf.right) (by rw [hworld]; exact hqs) hbeside
  rw [hworld] at h₂
  have hworld₂ : s₂.toWorld = s.toWorld := hm₂.world.trans hworld
  -- both commit
  obtain ⟨s₃, hr₃, hnow₃, hdev₃, hrows₃, hend₃, hothers₃⟩ := commit_of_publishes
    ((hm₂.others _ hne).trans htx₁) h₁ (by rw [hworld₂]; exact hf.left)
  rw [hworld₂] at hnow₃ hdev₃ hrows₃
  obtain ⟨s₄, hr₄, hnow₄, hdev₄, hrows₄, hend₄, hothers₄⟩ := commit_of_publishes
    ((hothers₃ _ (Ne.symm hne)).trans htx₂) h₂ (hf.after hrows₃)
  refine ⟨s₄, ((hm₁.reach.trans hm₂.reach).trans hr₃).trans hr₄, fun j => ?_,
    hnow₄.trans hnow₃, hdev₄.trans hdev₃, ?_⟩
  · by_cases hj₂ : j = s₁.txs.length
    · rw [hj₂, hend₄]
    · rw [hothers₄ j hj₂]
      by_cases hj₁ : j = s.txs.length
      · rw [hj₁, hend₃]
      · rw [hothers₃ j hj₁, hm₂.others j hj₂, hnone₁ j hj₁]
  · rw [hrows₄, hrows₃, append_assoc]

/-! ### A run that breaks the bound -/

namespace Sample

/-- The packages with the ids from `n` to `n + 99`: as many as one request may publish. -/
def batch (n : ℕ) : List NewKeyPackage := (range 100).map fun k => newPackage (n + k)

/-- The rows of the first `n` packages of device `21`. -/
def stock (n : ℕ) : List KeyPackage := (range n).map fun k => (newPackage k).row 21 0

theorem ref_newPackage {k k' : ℕ} (hk : k < 65536) (hk' : k' < 65536)
    (h : (newPackage k).packageRef = (newPackage k').packageRef) : k = k' := by
  simp only [newPackage, cons.injEq, and_true] at h
  obtain ⟨hhigh, hlow⟩ := h
  have h₁ := congrArg UInt8.toNat hhigh
  have h₂ := congrArg UInt8.toNat hlow
  simp only [UInt8.toNat_ofNat'] at h₁ h₂
  omega

theorem stock_add (n m : ℕ) :
    stock (n + m) = stock n ++ (range m).map fun k => (newPackage (n + k)).row 21 0 := by
  simp [stock, range_add, Function.comp_def]

theorem stockOf_stock (n : ℕ) : stockOf (stock n) 21 0 = n := by
  have hall : ∀ p ∈ stock n, (decide (p.deviceId = 21) && p.available 0) = true := by
    intro p hp
    obtain ⟨k, -, rfl⟩ := mem_map.1 hp
    rfl
  rw [stockOf, countP_eq_length.2 hall, stock, length_map, length_range]

/-- The next packages are fresh. -/
theorem fresh_stock {db : Db} {n m : ℕ} (h : n + m ≤ 65536)
    (hrows : db.keyPackages.rows = stock n) :
    Fresh db ((range m).map fun k => (newPackage (n + k)).row 21 0) := by
  have hempty : Fresh { db with keyPackages := .empty } (stock (n + m)) := by
    refine ⟨fun p _ => rfl, by simp, ?_, ?_, ?_⟩
    · have hids : (stock (n + m)).map KeyPackage.id = range (n + m) := by
        simp [stock, Function.comp_def, NewKeyPackage.row, newPackage]
      rw [hids]
      exact nodup_range
    · have hrefs : (stock (n + m)).map KeyPackage.packageRef
          = (range (n + m)).map fun k => (newPackage k).packageRef := by
        simp [stock, Function.comp_def, NewKeyPackage.row]
      rw [hrefs]
      refine List.Nodup.map_on (fun k hk k' hk' he => ?_) nodup_range
      rw [mem_range] at hk hk'
      exact ref_newPackage (by omega) (by omega) he
    · intro p hp
      obtain ⟨k, -, rfl⟩ := mem_map.1 hp
      rfl
  rw [stock_add] at hempty
  exact hempty.after (by simpa using hrows)

/-- Two publications of a batch each, overlapping. -/
theorem overlap_stock {s : Backend.State} {n : ℕ} (hn : n + 100 ≤ 500)
    (hidle : ∀ j, s.tx j = none) (hnow : s.now = 0) (hd : s.db.devices = start.db.devices)
    (hrows : s.db.keyPackages.rows = stock n) :
    ∃ s', Program.Reach s s' ∧ (∀ j, s'.tx j = none) ∧ s'.now = 0 ∧
      s'.db.devices = start.db.devices ∧ s'.db.keyPackages.rows = stock (n + 200) := by
  have hbatch : (batch n ++ batch (n + 100)).map (fun p => p.row 21 0)
      = (range 200).map fun k => (newPackage (n + k)).row 21 0 := by
    rw [show 200 = 100 + 100 from rfl, range_add]
    simp [batch, Function.comp_def, Nat.add_assoc]
  have huser : ∃ d, s.db.userDevice 2 21 = some d ∧ d.status = .active ∧ d.protocolVersion = 1 := by
    have : s.db.userDevice 2 21 = start.db.userDevice 2 21 := by simp only [Db.userDevice, hd]
    rw [this]
    exact ⟨(start.db.userDevice 2 21).get (by decide), by simp, by decide, by decide⟩
  obtain ⟨d, hud, hact, hver⟩ := huser
  have hmem : ∀ p ∈ batch n ++ batch (n + 100), ∃ k, p = newPackage k := by
    intro p hp
    rcases mem_append.1 hp with hp | hp <;> obtain ⟨k, -, rfl⟩ := mem_map.1 hp <;>
      exact ⟨_, rfl⟩
  have hlen : ∀ m, (batch m).length = 100 := fun m => by simp [batch]
  have hstock : stockOf s.db.keyPackages.rows 21 s.now + 100
      ≤ maxAvailableKeyPackagesPerDevice := by
    rw [hrows, hnow, stockOf_stock]
    exact hn
  obtain ⟨s', hr, hnone, hnow', hdev', hrows'⟩ := publications_overlap hidle hud hact
    (fun p hp => by obtain ⟨k, rfl⟩ := hmem p hp; exact hver.symm)
    (fun p hp => by obtain ⟨k, rfl⟩ := hmem p hp; rw [hnow]; rfl)
    (by rw [hnow, hbatch]; exact fresh_stock (by omega) hrows)
    (by rw [hlen]; exact hstock) (by rw [hlen]; exact hstock)
  refine ⟨s', hr, hnone, hnow'.trans hnow, hdev'.trans hd, ?_⟩
  rw [hrows', hrows, hnow, hbatch, stock_add]

end Sample

/-- **The bound is broken** by three pairs of publications of a hundred packages each. -/
theorem key_package_stock_exceeded : ∃ s deviceId, Backend.Reachable s ∧
    maxAvailableKeyPackagesPerDevice < (s.db.availablePackages deviceId s.now).length := by
  have hidle : ∀ j, start.tx j = none := tx_of_all_none (by decide)
  obtain ⟨s₁, hr₁, hidle₁, hnow₁, hdev₁, hrows₁⟩ :=
    overlap_stock (n := 0) (by omega) hidle (by decide) rfl (by decide)
  obtain ⟨s₂, hr₂, hidle₂, hnow₂, hdev₂, hrows₂⟩ :=
    overlap_stock (by omega) hidle₁ hnow₁ hdev₁ hrows₁
  obtain ⟨s₃, hr₃, hidle₃, hnow₃, hdev₃, hrows₃⟩ :=
    overlap_stock (by omega) hidle₂ hnow₂ hdev₂ hrows₂
  refine ⟨s₃, 21, reachable_start.reach ((hr₁.trans hr₂).trans hr₃), ?_⟩
  rw [length_availablePackages, hrows₃, hnow₃, stockOf_stock]
  decide

end RedcodeIm
