import RedcodeIm.Rooms.Receipts

/-!
# Delivery of control messages through a cursor

A device polls `list_control_messages` with the sequence number of the last message it has
processed.  While submissions run in any order with the polls, the pages follow one another.

* `Session` — the polls of a device, and all they returned.
* `Session.prefix_received` — what was returned is a prefix of what the device has received.
* `cursor_delivery` — each message is delivered once and in order, and none comes too late.
-/

namespace RedcodeIm

open ReadCommitted ControlMessage Program ListStage CursorFeed

/-! ## Sessions -/

/-- The polls of a device that follow one another, each with the cursor left by the ones
before it and with a limit of its own, and the messages they returned. -/
inductive Session (s : Backend.State) (roomId deviceId : Uuid) :
    List Backend.Call → List ControlMessage → Prop where
  | start : Session s roomId deviceId [] []
  | poll {calls : List Backend.Call} {seen page : List ControlMessage} {f : Backend.Call}
      {userId : Uuid} {limit : ℕ} (h : Session s roomId deviceId calls seen) (hf : f ∈ s.hist)
      (hreq : f.req = .listControlMessages roomId userId deviceId
        (cursor sequenceNo seen) limit)
      (hlimit : 1 ≤ limit) (hafter : ∀ g ∈ calls, g.closed ≤ f.born)
      (hres : f.result = .ok (.controls page)) :
      Session s roomId deviceId (calls ++ [f]) (seen ++ page)

/-- A poll of the session that was answered with fewer messages than it asked for. -/
def Backend.Call.Short (f : Backend.Call) : Prop :=
  ∃ roomId userId deviceId after limit page,
    f.req = .listControlMessages roomId userId deviceId after limit ∧
      f.result = .ok (.controls page) ∧ page.length < limit

/-- The control messages of a room, as a device receives them. -/
structure CursorDelivery (s : Backend.State) (roomId deviceId : Uuid) : Prop where
  /-- What the device has received is in the order of the sequence numbers, each once. -/
  ordered : (s.db.received roomId deviceId).Pairwise fun a b => a.sequenceNo < b.sequenceNo
  /-- The pages returned so far are, one after the other, the beginning of it. -/
  delivered : ∀ calls seen, Session s roomId deviceId calls seen →
    seen <+: s.db.received roomId deviceId
  /-- After a short page they are all of it, as of a version the last poll ran on. -/
  drained : ∀ calls f seen, Session s roomId deviceId (calls ++ [f]) seen → f.Short →
    ∃ n v, f.born ≤ n ∧ n < f.closed ∧ s.version n = some v ∧ seen = v.received roomId deviceId
  /-- The next poll of an active device of a current member returns what comes next. -/
  polled : ∀ calls seen, Session s roomId deviceId calls seen → ∀ userId,
    s.db.deviceActive deviceId userId = true → s.db.isMember roomId userId = true → ∀ limit,
      ∃ w, serial 5 s.toWorld (Program.Tx.begin (P := e2eeBackend)
          (.listControlMessages roomId userId deviceId
            (cursor sequenceNo seen) limit) s.past.length s.now)
        = some (w, .ok (.controls (((s.db.received roomId deviceId).drop seen.length).take limit)))
  /-- Whatever is committed later in the room has a larger sequence number than all there is,
  and what the device receives of it comes after all it has received. -/
  later : ∀ s', Program.Reach s s' →
    s.db.received roomId deviceId <+: s'.db.received roomId deviceId ∧
      ∃ new, s'.db.controlLog roomId = s.db.controlLog roomId ++ new ∧
        ∀ m ∈ s.db.controlLog roomId, ∀ m' ∈ new, m.sequenceNo < m'.sequenceNo

/-! ## Versions of a room -/

/-- What a later version has of a room and the receipts of a device. -/
structure Grown (db db' : Db) : Prop where
  log : ∀ roomId, db.controlLog roomId <+: db'.controlLog roomId
  received : ∀ roomId deviceId, db.received roomId deviceId <+: db'.received roomId deviceId

theorem Grown.refl (db : Db) : Grown db db :=
  ⟨fun _ => List.prefix_refl _, fun _ _ => List.prefix_refl _⟩

theorem Grown.trans {a b c : Db} (h : Grown a b) (h' : Grown b c) : Grown a c :=
  ⟨fun room => (h.log room).trans (h'.log room),
    fun room d => (h.received room d).trans (h'.received room d)⟩

theorem grown_versions {db : Db} (h : db.Initial) : Program.Holds e2eeBackend db
    (fun w => (w.past ++ [w.db]).Pairwise Grown) (fun _ _ => True) := by
  intro s hs
  have hkept := (receiptsKept_versions h s hs).1
  have hsteps := (ControlLog.holds h s hs).1.versions
  refine ⟨(List.pairwise_and_iff.2 ⟨hkept, hsteps⟩).imp fun {a b} hab => ?_, fun _ _ _ => trivial⟩
  obtain ⟨hk, hl⟩ := hab
  have hlog : ∀ room, a.controlLog room <+: b.controlLog room := by
    intro room
    rw [← Db.entries_ledger a, ← Db.entries_ledger b]
    exact (hl room).extends.entries
  exact ⟨hlog, fun room d => received_prefix hk (hlog room) d⟩

theorem ControlLog.Inv.ordered {w : Backend.World} (h : ControlLog.Inv w) (roomId : Uuid) :
    CursorFeed.Ordered sequenceNo (w.db.controlLog roomId) := by
  have hsorted := (h.sound roomId).sorted
  rw [Db.entries_ledger] at hsorted
  exact ⟨hsorted, fun m hm => (h.drawn m (Db.mem_controlLog.1 hm).1).1⟩

/-! ## A poll -/

/-- Every poll of the device returned a page of what it had received in a version the poll
ran on. -/
def PollsPaged (s : Backend.State) (roomId deviceId : Uuid) : Prop :=
  ∀ f ∈ s.hist, ∀ userId after limit page,
    f.req = .listControlMessages roomId userId deviceId after limit →
    f.result = .ok (.controls page) → ∃ n v, f.born ≤ n ∧ n < f.closed ∧
      s.version n = some v ∧ CursorFeed.Ordered sequenceNo
        (v.received roomId deviceId) ∧
      page = pageAfter sequenceNo (v.received roomId deviceId) after limit

variable {s : Backend.State} {roomId deviceId : Uuid} {calls : List Backend.Call}
  {seen : List ControlMessage}

/-- The run lemma of sessions: at any version after the polls, what they returned is the
beginning of what the device has received. -/
theorem Session.prefix_received (hgrown : (s.past ++ [s.db]).Pairwise Grown)
    (hpage : PollsPaged s roomId deviceId) (h : Session s roomId deviceId calls seen) {n : ℕ}
    {v : Db} (hv : s.version n = some v) (hn : ∀ g ∈ calls, g.closed ≤ n) :
    seen <+: v.received roomId deviceId := by
  induction h generalizing n v with
  | start => exact List.nil_prefix
  | @poll calls seen page f userId limit _ hf hreq _ hafter hres ih =>
    obtain ⟨k, u, hk, hlt, hu, hord, rfl⟩ := hpage f hf userId _ limit page hreq hres
    -- the version the poll read comes after all the polls before it
    have hseen := ih hu fun g hg => Nat.le_trans (hafter g hg) hk
    have hclosed := hn f (by simp)
    have hkn : k ≤ n := by omega
    have hgrow := World.rel_of_version Grown.refl hgrown hkn hu hv
    exact (CursorFeed.append_page_prefix hord hseen limit).trans (hgrow.received roomId deviceId)

theorem Session.mem_hist (h : Session s roomId deviceId calls seen) {f : Backend.Call}
    (hf : f ∈ calls) :
    f ∈ s.hist := by
  induction h with
  | start => simp at hf
  | poll _ hmem _ _ _ _ ih =>
    rcases List.mem_append.1 hf with hf | hf
    · exact ih hf
    · rw [List.mem_singleton.1 hf]
      exact hmem

/-- A short last page ends what the device had received in the version it was read from. -/
theorem Session.drained (hgrown : (s.past ++ [s.db]).Pairwise Grown)
    (hpage : PollsPaged s roomId deviceId) {f : Backend.Call}
    (h : Session s roomId deviceId (calls ++ [f]) seen) (hshort : f.Short) :
    ∃ n v, f.born ≤ n ∧ n < f.closed ∧ s.version n = some v ∧
      seen = v.received roomId deviceId := by
  generalize hall : calls ++ [f] = all at h
  cases h with
  | start => simp at hall
  | @poll calls' seen page f' userId limit hbefore hf hreq _ hafter hres =>
    obtain ⟨rfl, hlast⟩ := List.append_inj' hall rfl
    obtain rfl : f = f' := List.singleton_inj.1 hlast
    obtain ⟨_, _, _, _, limit', page', hreq', hres', hlt⟩ := hshort
    obtain ⟨-, -, -, -, rfl⟩ := Request.listControlMessages.inj (hreq.symm.trans hreq')
    obtain rfl := Response.controls.inj (Except.ok.inj (hres.symm.trans hres'))
    obtain ⟨k, u, hk, hclosed, hu, hord, rfl⟩ := hpage f hf userId _ limit page hreq hres
    have hseen := hbefore.prefix_received hgrown hpage hu fun g hg => Nat.le_trans (hafter g hg) hk
    exact ⟨k, u, hk, hclosed, hu, append_page_eq hord hseen hlt⟩

/-- A poll alone returns the page after its cursor. -/
theorem serial_poll {w : Backend.World} {roomId userId deviceId : Uuid} {after limit : ℕ}
    (hd : w.db.deviceActive deviceId userId = true) (hm : w.db.isMember roomId userId = true) :
    ∃ w', serial 5 w (Program.Tx.begin (P := e2eeBackend)
        (.listControlMessages roomId userId deviceId after limit) w.past.length w.now)
      = some (w', .ok (.controls ((w.db.receivedAfter roomId deviceId after).take limit))) := by
  let page := (w.db.receivedAfter roomId deviceId after).take limit
  let rows : Locks LockKey := page.map fun m => (.receipt m.id deviceId, .update)
  let tx₀ : Backend.Tx :=
    Program.Tx.begin (.listControlMessages roomId userId deviceId after limit) w.past.length w.now
  let tx₁ : Backend.Tx := tx₀.advance select [] []
  let tx₂ : Backend.Tx := tx₁.advance (lockReceipts page) [] []
  have h₀ : tx₀.stmt w (fun _ _ => false) = .next select [] [] 0 := by
    change listControlMessages roomId userId deviceId after limit
      ⟨w.db, w.seq, w.now, fun _ _ => false⟩ .checkDevice = _
    simp only [listControlMessages, hd, hm, Bool.and_self, if_true]
    rfl
  have h₁ : tx₁.stmt w (fun _ _ => false) = .next (lockReceipts page) [] [] 0 := rfl
  cases hp : page.isEmpty with
  | true =>
    have h₂ : tx₂.stmt w (fun _ _ => false) = .next (commit page) rows [] 0 := by
      change listControlMessages roomId userId deviceId after limit
        ⟨w.db, w.seq, w.now, fun _ _ => false⟩ (.lockReceipts page) = _
      simp only [listControlMessages, hp, if_true]
      rfl
    have h₃ : (tx₂.advance (commit page) rows []).stmt w (fun _ _ => false)
        = .commit (.controls page) := rfl
    exact ⟨_, (serial_next h₀).trans ((serial_next h₁).trans
      ((serial_next h₂).trans (serial_commit h₃)))⟩
  | false =>
    have h₂ : tx₂.stmt w (fun _ _ => false) = .next (markDelivered page) rows [] 0 := by
      change listControlMessages roomId userId deviceId after limit
        ⟨w.db, w.seq, w.now, fun _ _ => false⟩ (.lockReceipts page) = _
      simp only [listControlMessages, hp, Bool.false_eq_true, if_false]
      rfl
    let tx₃ : Backend.Tx := tx₂.advance (markDelivered page) rows []
    have h₃ : tx₃.stmt w (fun _ _ => false)
        = .next (commit page) [] (w.db.markDelivered deviceId page w.now) 0 := rfl
    have h₄ : (tx₃.advance (commit page) []
        (w.db.markDelivered deviceId page w.now)).stmt w (fun _ _ => false)
        = .commit (.controls page) := rfl
    exact ⟨_, (serial_next h₀).trans ((serial_next h₁).trans
      ((serial_next h₂).trans ((serial_next h₃).trans (serial_commit h₄))))⟩

/-! ## Every reachable state -/

/-- **Control messages are delivered once and in order**, in every reachable state and for
every device. -/
theorem cursor_delivery {s : Backend.State} (hs : Backend.Reachable s) (roomId deviceId : Uuid) :
    CursorDelivery s roomId deviceId := by
  have hinv := hs.controlLog
  have hreach := hs
  obtain ⟨db, hdb, hr⟩ := hs
  have hgrown := (grown_versions hdb s hr).1
  have hrec := (history_holds db s hr).1
  have hlisted := (listed_holds hdb s hr).1
  have hordered : ∀ {n : ℕ} {v : Db}, s.version n = some v →
      CursorFeed.Ordered sequenceNo (v.controlLog roomId) := by
    intro n v hv
    have hn : n ≤ s.past.length := by
      obtain ⟨hn, -⟩ := List.getElem?_eq_some_iff.1 hv
      rw [List.length_append, List.length_singleton] at hn
      omega
    have hlog := (World.rel_of_version Grown.refl hgrown hn hv s.version_length).log roomId
    exact (hinv.ordered roomId).sublist hlog.sublist
  -- what a poll returned is a page of what the device had received in the version it read
  have hpage : PollsPaged s roomId deviceId := by
    intro f hf userId after limit page hreq hres
    obtain ⟨n, v, hn, hlt, hv, rfl⟩ := hlisted f hf _ _ _ _ _ _ hreq hres
    exact ⟨n, v, hn, hlt, hv, (hordered hv).filter _, receivedAfter_take (hordered hv) after limit⟩
  have hreceived : CursorFeed.Ordered sequenceNo
      (s.db.received roomId deviceId) := (hinv.ordered roomId).filter _
  have hseen : ∀ calls seen, Session s roomId deviceId calls seen →
      seen <+: s.db.received roomId deviceId := by
    intro calls seen h
    refine h.prefix_received hgrown hpage s.version_length fun g hg => ?_
    exact (hrec g (h.mem_hist hg)).closed
  refine ⟨hreceived.sorted, hseen, ?_, ?_, ?_⟩
  · intro calls f seen h hshort
    exact h.drained hgrown hpage hshort
  · intro calls seen h userId hd hm limit
    obtain ⟨w, hw⟩ := @serial_poll s.toWorld roomId userId deviceId
      (cursor sequenceNo seen) limit hd hm
    refine ⟨w, hw.trans ?_⟩
    rw [receivedAfter_take (hinv.ordered roomId), pageAfter,
      filter_after_prefix hreceived (hseen calls seen h)]
  · intro s' hr'
    have hgrow := rel_of_reach Grown.refl Grown.trans (grown_versions hdb) hr hr'
    obtain ⟨new, hnew⟩ := hgrow.log roomId
    refine ⟨hgrow.received roomId deviceId, new, hnew.symm, fun m hm m' hm' => ?_⟩
    have hsorted := ((hreach.reach hr').controlLog.ordered roomId).sorted
    rw [← hnew] at hsorted
    exact (List.pairwise_append.1 hsorted).2.2 m hm m' hm'

/-- The sample after device `21` has polled three times, one message at a time. -/
def Sample.polled : Backend.State :=
  (run afterWelcome
    (alone 7 5 (.listControlMessages 1 2 21 0 1)
      ++ alone 8 5 (.listControlMessages 1 2 21 1 1)
      ++ alone 9 4 (.listControlMessages 1 2 21 2 1))).get (by decide)

open Sample

theorem Sample.reachable_polled : Backend.Reachable polled :=
  reachable_afterWelcome.reach (reach_of_run (Option.some_get _).symm)

theorem cursor_delivery_sample :
    (polled.db.received 1 21).map ControlMessage.id = [50, 51] ∧
      (∃ f g h, Session polled 1 21 [f, g, h] (polled.db.received 1 21)) ∧
      CursorDelivery polled 1 21 := by
  refine ⟨by decide, ⟨polled.hist.get ⟨7, by decide⟩,
    polled.hist.get ⟨8, by decide⟩, polled.hist.get ⟨9, by decide⟩, ?_⟩,
    cursor_delivery reachable_polled 1 21⟩
  have hfirst := Session.start.poll (s := polled) (List.get_mem _ ⟨7, by decide⟩) rfl
    (Nat.le_refl 1) (by decide) rfl
  have hsecond := hfirst.poll (List.get_mem _ ⟨8, by decide⟩) rfl (Nat.le_refl 1) (by decide) rfl
  exact hsecond.poll (List.get_mem _ ⟨9, by decide⟩) rfl (Nat.le_refl 1) (by decide) rfl

end RedcodeIm
