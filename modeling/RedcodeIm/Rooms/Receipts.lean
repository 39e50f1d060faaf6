import RedcodeIm.Rooms.ControlLog
import RedcodeIm.Lib.CursorFeed

/-!
# Receipts of control messages

A receipt is inserted with its control message and never afterwards, so which of a room's
messages a device has a receipt for is settled when they are committed.

* `Db.received` — the control messages of a room that hold a receipt for a device.
* `Receipts.outline` — receipts are written for existing ones or with a new message.
* `Backend.Reachable.received_prefix` — what a device has received only grows at its end.
* `listed_holds` — a listing returns a page of one version.
-/

namespace RedcodeIm

open ReadCommitted EpochLedger List

/-! ## What a device has received -/

/-- The control messages of the room that hold a receipt for the device. -/
def Db.received (db : Db) (roomId deviceId : Uuid) : List ControlMessage :=
  (db.controlLog roomId).filter fun m => (db.receipts.get (m.id, deviceId)).isSome

variable {db : Db}

/-- On an ordered log the select of a listing is a page of what the device has received. -/
theorem receivedAfter_take {roomId deviceId : Uuid}
    (h : CursorFeed.Ordered ControlMessage.sequenceNo (db.controlLog roomId)) (after limit : ℕ) :
    (db.receivedAfter roomId deviceId after).take limit
      = CursorFeed.pageAfter ControlMessage.sequenceNo (db.received roomId deviceId) after
          limit := by
  have hsorted : (((db.controlLog roomId).filter fun m =>
      (db.receipts.get (m.id, deviceId)).isSome && after < m.sequenceNo).insertionSort
        fun a b => a.sequenceNo ≤ b.sequenceNo)
      = (db.controlLog roomId).filter fun m =>
        (db.receipts.get (m.id, deviceId)).isSome && after < m.sequenceNo := by
    refine List.Pairwise.insertionSort_eq ?_
    exact (h.sorted.filter _).imp Nat.le_of_lt
  rw [Db.receivedAfter, hsorted, CursorFeed.pageAfter, Db.received, filter_filter]
  congr 2
  funext m
  rw [Bool.and_comm]

/-- Messages stay, and no receipt is added to or taken from one. -/
structure ReceiptsKept (db db' : Db) : Prop where
  rows : RowsKept db db'
  receipts : ∀ m ∈ db.controls.rows, ∀ d,
    (db'.receipts.get (m.id, d)).isSome = (db.receipts.get (m.id, d)).isSome

theorem ReceiptsKept.refl (db : Db) : ReceiptsKept db db := ⟨.refl db, fun _ _ _ => rfl⟩

theorem ReceiptsKept.trans {a b c : Db} (h : ReceiptsKept a b) (h' : ReceiptsKept b c) :
    ReceiptsKept a c :=
  ⟨h.rows.trans h'.rows, fun m hm d =>
    (h'.receipts m (h.rows.controls m hm) d).trans (h.receipts m hm d)⟩

/-- Writes to existing receipts, or to others, do not change whether one exists. -/
theorem isSome_receipt_applyAll {key : Uuid × Uuid} {ws : List Write}
    (h : ∀ r, .putReceipt r ∈ ws → r.key = key → (db.receipts.get key).isSome = true) :
    ((e2eeBackend.applyAll db ws).receipts.get key).isSome = (db.receipts.get key).isSome := by
  induction ws generalizing db with
  | nil => rfl
  | cons w ws ih =>
    have hstep : ((db.apply w).receipts.get key).isSome = (db.receipts.get key).isSome := by
      cases w with
      | putReceipt r =>
        change ((db.receipts.put r).get key).isSome = _
        rw [Table.get_put]
        by_cases hk : r.key = key
        · rw [if_pos hk, h r mem_cons_self hk]
          rfl
        · rw [if_neg hk]
      | _ => rfl
    refine (ih fun r hr hk => ?_).trans hstep
    exact hstep.trans (h r (mem_cons_of_mem _ hr) hk)

namespace Receipts

/-! ## The outline -/

/-- Every receipt written exists already, or belongs to a message written as well. -/
def Founded (db : Db) (ws : List Write) : Prop :=
  ∀ r, .putReceipt r ∈ ws → (db.receipts.get r.key).isSome = true ∨
    ∃ m, .insertControl m ∈ ws ∧ m.id = r.controlMessageId

variable {ws : List Write}

theorem Founded.append {db : Db} {ws' : List Write} (h : Founded db ws)
    (h' : ∀ r, .putReceipt r ∈ ws' → (db.receipts.get r.key).isSome = true ∨
      ∃ m, .insertControl m ∈ ws ++ ws' ∧ m.id = r.controlMessageId) : Founded db (ws ++ ws') := by
  intro r hr
  rcases mem_append.1 hr with hr | hr
  · rcases h r hr with hs | ⟨m, hm, hid⟩
    · exact Or.inl hs
    · exact Or.inr ⟨m, mem_append_left _ hm, hid⟩
  · exact h' r hr

section

variable (w : Backend.World) (born : ℕ) (writes : List Write)

/-- The messages are those the select of a listing returned. -/
def Paged (roomId deviceId : Uuid) (after limit : ℕ) (messages : List ControlMessage) : Prop :=
  w.Seen born fun v => messages = (v.receivedAfter roomId deviceId after).take limit

/-- What holds of a listing at each of its stages. -/
def ListAt (roomId deviceId : Uuid) (after limit : ℕ) : ListStage → Prop
  | .checkDevice | .select => writes = []
  | .lockReceipts ms | .markDelivered ms =>
    writes = [] ∧ Paged w born roomId deviceId after limit ms
  | .commit ms => Paged w born roomId deviceId after limit ms

/-- A consumption has written nothing before its update. -/
def ConsumeAt : ConsumeStage → Prop
  | .update => writes = []
  | .commit _ => True

end

/-- What holds of a call at a stage. -/
def At (w : Backend.World) (born : ℕ) (writes : List Write) : (r : Request) → r.Stage → Prop
  | .listControlMessages roomId _ deviceId after limit, stage =>
    ListAt w born writes roomId deviceId after limit stage
  | .consumeControlMessage .., stage => ConsumeAt writes stage
  | _, _ => True

/-- The assertion of a call in flight. -/
def Assertion (w : Backend.World) (tx : Backend.Tx) : Prop :=
  Founded w.db tx.writes ∧ At w tx.born tx.writes tx.req tx.loc

/-- A page and the receipts of it, which exist. -/
theorem mem_markDelivered {db : Db} {deviceId : Uuid} {ms : List ControlMessage}
    {now : Timestamp} {r : ControlReceipt} (h : .putReceipt r ∈ db.markDelivered deviceId ms now) :
    (db.receipts.get r.key).isSome = true := by
  obtain ⟨m, -, hm⟩ := mem_filterMap.1 h
  obtain ⟨x, hx, hr⟩ := Option.map_eq_some_iff.1 hm
  have hkey : x.key = (m.id, deviceId) := Table.key_of_get hx
  obtain rfl := (Write.putReceipt.inj hr).symm
  have hsame : ControlReceipt.key { x with deliveredAt := some (x.deliveredAt.getD now) }
    = (m.id, deviceId) := hkey
  rw [hsame, hx]
  rfl

variable {w : Backend.World} {tx : Backend.Tx} {locked : LockKey → LockMode → Bool}

/-- A statement writes receipts that exist, or those of its own message. -/
theorem founded_next {loc : tx.req.Stage} {ls : Locks LockKey} {n : ℕ}
    (hcontrol : ControlLog.Assertion w tx) (h : Assertion w tx)
    (hs : tx.stmt w locked = .next loc ls ws n) : Founded w.db (tx.writes ++ ws) := by
  refine h.1.append fun r hr => ?_
  have htable := tables_of_next hs hr
  obtain ⟨req, now, born, stage, locks, writes, covered⟩ := tx
  cases req with
  | listControlMessages roomId user deviceId after limit =>
    cases (list_next hs).1 with
    | markDelivered ms =>
      obtain ⟨-, hw, -⟩ := h
      subst hw
      exact Or.inl (mem_markDelivered hr)
    | _ => simp at hr
  | consumeControlMessage roomId user deviceId messageId =>
    cases stage with
    | commit rows =>
      simp only [Program.Tx.stmt, e2eeBackend, storeStatement, consumeControlMessage] at hs
      split at hs <;> cases hs
    | update =>
      obtain ⟨-, hw⟩ := h
      have hw : writes = [] := hw
      subst hw
      change consumeControlMessage roomId user deviceId messageId _ .update = _ at hs
      obtain ⟨-, -, rfl | ⟨x, x', hx, hkey, rfl⟩⟩ := consume_next hs
      · simp at hr
      · rw [mem_singleton, Write.putReceipt.injEq] at hr
        left
        rw [hr, hkey]
        exact Option.isSome_iff_exists.2 ⟨x, hx⟩
  | submitControlMessage roomId user input =>
    have hown : ∀ (record : ControlMessage) (db : Db) (ds : List Uuid),
        .putReceipt r ∈ db.insertReceipts record.id ds → r.controlMessageId = record.id := by
      intro record db ds hmem
      obtain ⟨d, -, hd⟩ := mem_map.1 hmem
      rw [← Write.putReceipt.inj hd]
    cases submit_next hs with
    | insertReceipts record | insertReceipt record =>
      obtain ⟨state, rest, -, -, hw⟩ := hcontrol
      have hmem : .insertControl record ∈ writes := by
        change writes = _ at hw
        rw [hw]
        exact mem_cons_self
      exact Or.inr ⟨record, mem_append_left _ hmem, (hown record _ _ hr).symm⟩
    | advanceEpoch record =>
      split at hr <;> simp at hr
    | _ => simp at hr
  | _ => simp [Write.table, Request.tables] at htable

theorem At.later {w' : Backend.World} {born : ℕ} {writes : List Write} {r : Request}
    {stage : r.Stage} (hseen : ∀ p, w.Seen born p → w'.Seen born p) (h : At w born writes r stage) :
    At w' born writes r stage := by
  cases r with
  | listControlMessages roomId user deviceId after limit =>
    cases stage with
    | checkDevice | select => exact h
    | lockReceipts ms | markDelivered ms => exact ⟨h.1, hseen _ h.2⟩
    | commit ms => exact hseen _ h
  | consumeControlMessage => exact h
  | _ => trivial

theorem at_next {loc : tx.req.Stage} {ls : Locks LockKey} {n : ℕ} (hb : tx.born ≤ w.past.length)
    (h : At w tx.born tx.writes tx.req tx.loc) (hs : tx.stmt w locked = .next loc ls ws n) :
    At w tx.born (tx.writes ++ ws) tx.req loc := by
  obtain ⟨req, now, born, stage, locks, writes, covered⟩ := tx
  cases req with
  | listControlMessages roomId user deviceId after limit =>
    cases (list_next hs).1 with
    | checkDevice hd hm =>
      have hw : writes = [] := h
      subst hw
      exact rfl
    | select =>
      have hw : writes = [] := h
      subst hw
      exact ⟨rfl, World.seen_of_db hb rfl⟩
    | lockReceipts ms =>
      obtain ⟨hw, hp⟩ := h
      subst hw
      cases hms : ms.isEmpty with
      | true => exact hp
      | false => exact ⟨rfl, hp⟩
    | markDelivered ms => exact h.2
  | consumeControlMessage roomId user deviceId messageId =>
    cases stage with
    | update =>
      simp only [Program.Tx.stmt, e2eeBackend, storeStatement, consumeControlMessage] at hs
      repeat' split at hs
      all_goals cases hs
      all_goals trivial
    | commit rows =>
      simp only [Program.Tx.stmt, e2eeBackend, storeStatement, consumeControlMessage] at hs
      split at hs <;> cases hs
  | _ => trivial

/-- Receipts that exist go on existing. -/
theorem founded_commit {u : Backend.Tx} {out : Response} (h : Founded w.db u.writes) :
    Founded (e2eeBackend.commit w tx out).db u.writes := by
  intro r hr
  refine (h r hr).imp (fun hs => ?_) id
  change (((e2eeBackend.applyAll w.db tx.writes).receipts.get r.key).isSome = true)
  rw [isSome_receipt_applyAll fun _ _ _ => hs]
  exact hs

/-- **The outline of the receipts.** -/
theorem outline : Program.Outline e2eeBackend ControlLog.Inv
    (fun w tx => ControlLog.Assertion w tx ∧ tx.born ≤ w.past.length) (fun _ => True)
    Assertion where
  quiet := fun _ _ => trivial
  stable := by
    intro w w' u hl h
    refine ⟨?_, At.later (fun p hp => hl.seen hp) h.2⟩
    rw [hl.db]
    exact h.1
  start := by
    intro w r _ _
    refine ⟨fun x hx => by simp [Program.Tx.begin] at hx, ?_⟩
    cases r <;> first | exact rfl | trivial
  next := by
    intro w tx locked loc ls ws n _ hB _ h hs
    have hfounded := founded_next hB.1 h hs
    have hat := at_next hB.2 h.2 hs
    exact ⟨hfounded, At.later (fun p hp => (w.quiet_draw n).toLater.seen hp) hat⟩
  commit := fun _ _ _ _ _ _ => trivial
  other := by
    intro w tx u locked out _ _ _ _ h hu _ _
    exact ⟨founded_commit hu.1, At.later (fun p hp => Program.seen_commit hp tx out) hu.2⟩
  reject := fun _ _ _ _ _ => trivial

/-- The assertions, with what they rest on. -/
theorem holds {db : Db} (h : db.Initial) : Program.Holds e2eeBackend db ControlLog.Inv
    (fun w tx => Assertion w tx ∧ ControlLog.Assertion w tx) := by
  have hB : Program.Holds e2eeBackend db ControlLog.Inv
      (fun w tx => ControlLog.Assertion w tx ∧ tx.born ≤ w.past.length) := by
    intro s hs
    have hc := ControlLog.holds h s hs
    have hh := Program.history_holds db s hs
    exact ⟨hc.1, fun i tx htx => ⟨hc.2 i tx htx, hh.2 i tx htx⟩⟩
  intro s hs
  exact ⟨(hB s hs).1, fun i tx htx =>
    ⟨(outline.holds hB trivial s hs).2 i tx htx, ((hB s hs).2 i tx htx).1⟩⟩

/-- **No commit adds a receipt to a message that was there before.** -/
theorem receiptsKept_of_commit (hcontrol : ControlLog.Assertion w tx) (h : Assertion w tx) :
    ReceiptsKept w.db (tx.see w.db) := by
  refine ⟨rowsKept_applyAll tx.writes w.db, fun m hm d => isSome_receipt_applyAll ?_⟩
  intro r hr hkey
  rcases h.1 r hr with hs | ⟨x, hx, hid⟩
  · rwa [← hkey]
  · obtain ⟨input, state, hi⟩ := ControlLog.inserted_of_insertControl hcontrol hx
    have hxm : x.id = m.id := by
      rw [hid]
      exact congrArg Prod.fst hkey
    exact absurd hxm.symm (Table.get_eq_none_iff.1 hi.absent m hm)

end Receipts

/-! ## Versions -/

theorem receiptsKept_versions (h : db.Initial) : Program.Holds e2eeBackend db
    (fun w => (w.past ++ [w.db]).Pairwise ReceiptsKept) (fun _ _ => True) :=
  Program.versions_holds ReceiptsKept.refl ReceiptsKept.trans (Receipts.holds h)
    fun _ hB _ => Receipts.receiptsKept_of_commit hB.2 hB.1

/-- **What a device has received only grows at its end**, as long as the log of the room
does. -/
theorem received_prefix {db' : Db} (h : ReceiptsKept db db') {roomId : Uuid}
    (hlog : db.controlLog roomId <+: db'.controlLog roomId) (deviceId : Uuid) :
    db.received roomId deviceId <+: db'.received roomId deviceId := by
  obtain ⟨new, hnew⟩ := hlog
  rw [Db.received, Db.received, ← hnew, filter_append]
  have hold : (db.controlLog roomId).filter (fun m => (db'.receipts.get (m.id, deviceId)).isSome)
      = (db.controlLog roomId).filter fun m => (db.receipts.get (m.id, deviceId)).isSome := by
    refine filter_congr fun m hm => ?_
    exact h.receipts m (Db.mem_controlLog.1 hm).1 deviceId
  rw [hold]
  exact prefix_append _ _

/-- A listing that has ended returned a page of a version it ran on. -/
theorem listed_holds (h : db.Initial) : Program.Holds e2eeBackend db
    (fun w => ∀ f ∈ w.hist, ∀ roomId user deviceId after limit page,
      f.req = .listControlMessages roomId user deviceId after limit →
      f.result = .ok (.controls page) → ∃ n v, f.born ≤ n ∧ n < f.closed ∧
        w.version n = some v ∧ page = (v.receivedAfter roomId deviceId after).take limit)
    (fun _ _ => True) := by
  refine Program.records_hold (Q := fun w f => ∀ roomId user deviceId after limit page,
      f.req = .listControlMessages roomId user deviceId after limit →
      f.result = .ok (.controls page) → ∃ n v, f.born ≤ n ∧ n < f.closed ∧
        w.version n = some v ∧ page = (v.receivedAfter roomId deviceId after).take limit)
    ?_ (Receipts.holds h) ?_ ?_
  · intro w w' f hkeep hq roomId user deviceId after limit page hreq hres
    obtain ⟨n, v, hn, hlt, hv, hpage⟩ := hq roomId user deviceId after limit page hreq hres
    exact ⟨n, v, hn, hlt, hkeep n v hv, hpage⟩
  · intro w tx locked out _ hB hs roomId user deviceId after limit page hreq hres
    obtain ⟨req, now, born, stage, locks, writes, covered⟩ := tx
    obtain rfl : req = .listControlMessages roomId user deviceId after limit := hreq
    obtain ⟨ms, rfl, rfl⟩ := list_commit hs
    obtain rfl : ms = page := Response.controls.inj (Except.ok.inj hres)
    obtain ⟨n, v, hn, hv, hpage⟩ := hB.1.2
    have hlt : n < w.past.length + 1 := by
      obtain ⟨hlen, -⟩ := List.getElem?_eq_some_iff.1 hv
      rwa [length_append, length_singleton] at hlen
    exact ⟨n, v, hn, hlt, e2eeBackend.version_commit hv _ _, hpage⟩
  · intro w tx locked err _ _ _ roomId user deviceId after limit page _ hres
    cases hres

end RedcodeIm
