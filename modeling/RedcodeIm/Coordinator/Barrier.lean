import RedcodeIm.Coordinator.Ceiling
import RedcodeIm.Lib.CursorFeed

/-!
# Messages a device cannot get past

A batch of control messages is applied as a whole, so one message that the device can never
process holds up everything from the beginning of its page on.

* `Obstacle`, `Barrier` — a message in the queue that the device cannot process.
* `Barred` — what is true of the device in front of it.
* `Barrier.ceiling` — no page leads past it, so that no sequence of calls does.
-/

namespace RedcodeIm

open Awaiting CursorFeed List DeviceProfile

variable {σ ρ : Type}

/-! ## Barriers -/

/-- A message in the queue of a device: `queue` is the end of the `log`, message number `index`
of it is the one.  `bound` is an epoch of the group, `starts` are the places in the queue where
pages can begin. -/
structure Obstacle where
  log : List ControlMessage
  queue : List ControlMessage
  index : ℕ
  bound : ℕ
  starts : ℕ → Prop

/-- The message of the obstacle cannot be processed on top of the pages before its own: it is
no Commit, or one beyond the next epoch.  The log may have grown when it is listed. -/
structure Barrier (host : Host σ ρ) (groupOf : Bytes → Uuid) (roomId : Uuid) (o : Obstacle) :
    Prop where
  listed : ∀ {device after messages}, host.Gives
    (.api (.listControlMessages roomId device after controlPageLimit)) (.ok messages) →
      ∃ more, Ordered ControlMessage.sequenceNo (o.log ++ more) ∧
        messages = pageAfter ControlMessage.sequenceNo (o.log ++ more) after controlPageLimit
  here : ∀ m ∈ o.queue.take o.index, m.contentType = .welcome → groupOf m.envelope = roomId
  elsewhere : ∀ {room device after messages}, room ≠ roomId → host.Gives
    (.api (.listControlMessages room device after controlPageLimit)) (.ok messages) →
      ∀ m ∈ messages, m.contentType = .welcome → groupOf m.envelope ≠ roomId
  pages : ∀ d, o.starts d → d + 100 ≤ o.index → o.starts (d + 100) ∧
    ∀ m ∈ (o.queue.drop d).take 100, m.epoch ≤ o.bound
  message : ∃ m, o.queue[o.index]? = some m ∧ (m.contentType ≠ .commit ∨
    o.bound + 1 < m.epoch ∧ ∀ m' ∈ o.queue.take o.index, m'.epoch + 1 < m.epoch)
  /-- The server takes Commits only beyond the epoch after the bound. -/
  refused : ∀ {input}, host.Gives (.api (.submitControlMessage roomId input)) (.ok ()) →
    input.contentType = .commit → o.bound + 1 < input.epoch

/-- A number of messages of the queue have been read, and the obstacle is not among them. -/
def InFront (o : Obstacle) (cursor d : ℕ) : Prop :=
  o.log.filter (fun m => decide (cursor < m.sequenceNo)) = o.queue.drop d ∧ d ≤ o.index ∧ o.starts d

/-- The device has joined, or it will with a Welcome before the message. -/
def Enters (o : Obstacle) (d : ℕ) (joined : Bool) : Prop :=
  joined = true ∨ ∃ j m, d ≤ j ∧ j < o.index ∧ o.queue[j]? = some m ∧ m.contentType = .welcome

/-- A profile of a device that has not got past the message. -/
def ProfileBarred (roomId : Uuid) (o : Obstacle) (p : DeviceProfile) : Prop :=
  ∃ d, InFront o (p.cursor roomId) d ∧ Enters o d (p.joined roomId)

/-- The obstacle, as a limit of the device. -/
def Obstacle.limit (o : Obstacle) (roomId : Uuid) : Limit where
  bound := o.bound
  known := ProfileBarred roomId o
  reads := fun n => ∃ d, InFront o n d
  stale := fun _ => False

/-- The device has not got past the message. -/
abbrev Barred (epochOf : σ → Uuid → ℕ) (roomId : Uuid) (o : Obstacle) : DeviceStore σ → Prop :=
  Under epochOf roomId (o.limit roomId)

namespace Barrier

variable {host : Host σ ρ} {epochOf : σ → Uuid → ℕ} {groupOf : Bytes → Uuid} {roomId : Uuid}
  {o : Obstacle}

variable {messages : List ControlMessage} {state state' : σ}

/-- A batch with the message in it is not processed. -/
theorem blocked (hmls : MlsEpochs host epochOf groupOf) {i : ℕ} {m : ControlMessage}
    (hget : messages[i]? = some m)
    (hm : m.contentType ≠ .commit ∨ epochOf state roomId + 1 < m.epoch ∧
      ∀ j m', j < i → messages[j]? = some m' → m'.epoch + 1 < m.epoch) :
    ¬ Processed host roomId messages state state' := by
  intro h
  obtain ⟨hi, rfl⟩ := List.getElem?_eq_some_iff.1 hget
  rw [← take_append_drop i messages, drop_eq_getElem_cons hi] at h
  obtain ⟨middle, hbefore, hrest⟩ := processed_append h
  cases hrest with
  | cons hcommit hgives _ =>
    rcases hm with hm | ⟨hstate, hall⟩
    · exact hm hcommit
    · have hnext : messages[i].epoch = epochOf middle roomId + 1 := (hmls.processCommit hgives).1
      rcases processed_epoch hmls hbefore with he | ⟨m', hm', he⟩
      · omega
      · obtain ⟨j, hj⟩ := getElem?_of_mem hm'
        rw [getElem?_take] at hj
        split at hj
        case isFalse => cases hj
        case isTrue hji =>
          have := hall j m' hji hj
          omega

variable (b : Barrier host groupOf roomId o)

include b

theorem index_lt : o.index < o.queue.length := by
  obtain ⟨m, hm, -⟩ := b.message
  exact (List.getElem?_eq_some_iff.1 hm).1

/-- The page that is listed in front of the message begins as the queue goes on. -/
theorem listed_eq {cursor d : ℕ} (hfront : InFront o cursor d) {device : Uuid}
    (h : host.Gives (.api (.listControlMessages roomId device cursor controlPageLimit)) (.ok
      messages)) :
    ∃ more, Ordered ControlMessage.sequenceNo (o.log ++ more) ∧
      messages = (o.queue.drop d ++ more).take 100 := by
  obtain ⟨more, hordered, rfl⟩ := b.listed h
  refine ⟨more, hordered, ?_⟩
  -- the message has not been read, so what was added after it has not
  have hunread : ∃ m ∈ o.log, cursor < m.sequenceNo := by
    obtain ⟨m, hm⟩ := exists_mem_of_ne_nil (o.queue.drop d) (ne_nil_of_length_pos (by
      have := b.index_lt
      have := hfront.2.1
      rw [length_drop]
      omega))
    rw [← hfront.1, mem_filter, decide_eq_true_eq] at hm
    exact ⟨m, hm⟩
  obtain ⟨m, hm, hcursor⟩ := hunread
  have hmore : more.filter (fun e => decide (cursor < e.sequenceNo)) = more :=
    filter_eq_self.2 fun e he => decide_eq_true (hcursor.trans
      ((pairwise_append.1 hordered.sorted).2.2 m hm e he))
  rw [pageAfter, filter_append, hfront.1, hmore]
  rfl

omit b in
theorem getElem?_page {queue more : List ControlMessage} {d j : ℕ} (hj : j < 100)
    (hd : d + j < queue.length) :
    ((queue.drop d ++ more).take 100)[j]? = queue[d + j]? := by
  rw [getElem?_take_of_lt hj, getElem?_append_left (by rw [length_drop]; omega),
    getElem?_drop]

/-- The batch that holds the message is not applied. -/
theorem page_short (hmls : MlsEpochs host epochOf groupOf) {more : List ControlMessage} {d : ℕ}
    (hd : d ≤ o.index) {joined : Bool} (henter : Enters o d joined)
    (hstate : epochOf state roomId ≤ o.bound)
    (h : Batched host roomId ((o.queue.drop d ++ more).take 100) state state' joined) :
    d + 100 ≤ o.index := by
  by_contra hshort
  have hlength := b.index_lt
  obtain ⟨bad, hbad, hcannot⟩ := b.message
  have hpage : ∀ j, d + j ≤ o.index → ((o.queue.drop d ++ more).take 100)[j]? = o.queue[d + j]? :=
    fun j hj => getElem?_page (by omega) (by omega)
  have hbefore : ∀ j m, d + j < o.index → o.queue[d + j]? = some m →
      m ∈ o.queue.take o.index := fun j m hj hm =>
    mem_of_getElem? ((getElem?_take_of_lt hj).trans hm)
  obtain ⟨i, hi⟩ := Nat.exists_eq_add_of_le hd
  have hget := (hpage i hi.symm.le).trans (hi ▸ hbad)
  cases h with
  | member hprocessed =>
    refine blocked hmls hget (hcannot.imp_right fun hc => ⟨by omega, fun j m' hj hm' => ?_⟩)
      hprocessed
    rw [hpage j (by omega)] at hm'
    exact hc.2 m' (hbefore j m' (by omega) hm')
  | @welcome first welcome _ entered hindex hwelcome hcommit hjoin hrest =>
    -- the Welcome it joins with is no later than the one the invariant knows of
    obtain ⟨hlt, -, hmin⟩ := findIdx?_eq_some_iff_getElem.1 hindex
    have hfirst : first < i := by
      rcases henter with hj | ⟨j, m, hkj, hji, hm, hw⟩
      · cases hj
      · obtain ⟨j, rfl⟩ := Nat.exists_eq_add_of_le hkj
        by_contra hle
        have hjm := (hpage j (by omega)).trans hm
        obtain ⟨hjlt, hjm⟩ := List.getElem?_eq_some_iff.1 hjm
        refine hmin j (by omega) ?_
        rw [hjm]
        exact decide_eq_true hw
    have hjoined : welcome ∈ o.queue.take o.index :=
      hbefore first welcome (by omega) ((hpage first (by omega)).symm.trans hwelcome)
    have hroom : groupOf welcome.envelope = roomId :=
      b.here welcome hjoined (welcomeIndex_spec hindex hwelcome)
    have hentered : epochOf entered roomId = welcome.epoch := by
      have := (hmls.joinGroup hjoin).1
      rwa [hroom] at this
    have hdrop : ∀ j, (((o.queue.drop d ++ more).take 100).drop (first + 1))[j]?
        = ((o.queue.drop d ++ more).take 100)[first + 1 + j]? := fun j => getElem?_drop
    refine blocked hmls (i := i - (first + 1)) (m := bad) ?_
      (hcannot.imp_right fun hc => ⟨?_, fun j m' hj hm' => ?_⟩) hrest
    · rw [hdrop, show first + 1 + (i - (first + 1)) = i by omega]
      exact hget
    · rw [hentered]
      exact hc.2 welcome hjoined
    · rw [hdrop, hpage _ (by omega)] at hm'
      exact hc.2 m' (hbefore _ m' (by omega) hm')

/-- A page that is applied leads to the next one. -/
theorem page_next (hmls : MlsEpochs host epochOf groupOf) {cursor d : ℕ}
    (hfront : InFront o cursor d) {joined : Bool} (henter : Enters o d joined)
    (hstate : epochOf state roomId ≤ o.bound) {device : Uuid}
    (hlist : host.Gives (.api (.listControlMessages roomId device cursor controlPageLimit)) (.ok
      messages)) {last : ControlMessage} (hlast : messages.getLast? = some last)
    (h : Batched host roomId messages state state' joined) :
    InFront o last.sequenceNo (d + 100) ∧ epochOf state' roomId ≤ o.bound := by
  obtain ⟨more, hordered, rfl⟩ := b.listed_eq hfront hlist
  have hnext := b.page_short hmls hfront.2.1 henter hstate h
  have hlength := b.index_lt
  obtain ⟨hstart, hpages⟩ := b.pages d hfront.2.2 hnext
  -- the whole page is from the queue
  rw [take_append_of_le_length (by rw [length_drop]; omega)] at h hlast
  have hsub : ∀ m ∈ (o.queue.drop d).take 100, m ∈ o.queue.take o.index := by
    intro m hm
    obtain ⟨j, hj⟩ := getElem?_of_mem hm
    rw [getElem?_take] at hj
    split at hj
    case isFalse => cases hj
    case isTrue hlt =>
      rw [getElem?_drop] at hj
      exact mem_of_getElem? ((getElem?_take_of_lt (by omega)).trans hj)
  refine ⟨⟨?_, hnext, hstart⟩, ?_⟩
  · have hleft : o.log.filter (fun m => decide (cursor < m.sequenceNo))
        = (o.queue.drop d).take 100 ++ o.queue.drop (d + 100) := by
      rw [hfront.1, ← drop_drop, take_append_drop]
    exact filter_after_last (hordered.sublist (sublist_append_left _ _)) hleft hlast
  · rcases batched_epoch hmls h (fun m hm => b.here m (hsub m hm)) with he | ⟨m, hm, he⟩
    · omega
    · have := hpages m hm
      omega

/-- No page leads past the message. -/
theorem ceiling (hmls : MlsEpochs host epochOf groupOf) :
    Ceiling host epochOf groupOf roomId (o.limit roomId) where
  commit := by
    rintro p ⟨d, hfront, henter⟩ room last
    exact ⟨d, hfront, henter.imp_left
      (joined_withCommit_of_joined p room roomId last)⟩
  elsewhereRead := by
    rintro p room ⟨d, hfront, henter⟩ hne n
    refine ⟨d, ?_, ?_⟩
    · rw [cursor_withCursor_of_ne p room roomId n hne]
      exact hfront
    · exact henter
  read := by
    rintro p n - ⟨d, hfront⟩ last
    refine ⟨d, ?_, Or.inl (joined_withCommit _ _ _)⟩
    rw [cursor_withCommit, cursor_withCursor]
    exact hfront
  status := by
    intro p p' h hsequences hcommits
    have hc : p'.cursor roomId = p.cursor roomId := by simp [DeviceProfile.cursor, hsequences]
    have hj : p'.joined roomId = p.joined roomId := by simp [joined, hcommits]
    obtain ⟨d, hfront, henter⟩ := h
    exact ⟨d, hc ▸ hfront, hj ▸ henter⟩
  page := by
    rintro p state state' messages last ⟨d, hfront, henter⟩ hstate hlist hlast hbatch
    obtain ⟨hnext, hepoch⟩ := b.page_next hmls hfront henter hstate hlist hlast hbatch
    exact ⟨⟨d + 100, hnext⟩, hepoch⟩
  elsewhere := b.elsewhere
  refused haccepted hcommit hle := absurd (b.refused haccepted hcommit) (Nat.not_lt.2 hle)
  fresh _ := not_false

end Barrier

end RedcodeIm
