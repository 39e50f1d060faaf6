import RedcodeIm.H5.ChatStore
import RedcodeIm.Lib.Machine

/-!
# Refreshing the chats

`refreshChats` of the chat store.  A call that finds a refresh going on asks its loop for another
round and awaits the same promise; the call that runs the loop resets the flags behind it.

* `ChatRefresh.act` — the store between two microtasks.
* `Coalesces.act` — what every act keeps, unless a call begins behind the last check of a loop and
  before the flags are reset.
* `losesNoRequest` — **no request is lost** in a run without such a call.
* `lost_behind_last_check` — one is lost in a run with it.
* `fetches_asked_for` — there are no more fetches than calls, in any run.
-/

namespace RedcodeIm.H5

open List

/-- What the loop of `refreshChats` awaits. -/
inductive RefreshAwait where
  | fetchChats
  | persistChatSummaries
  deriving DecidableEq

/-- A call that awaits `refreshChatsPromise`: how many times the chats had been fetched, or begun
to be, when it began, and whether it runs the loop. -/
structure RefreshCall where
  begun : ℕ
  leads : Bool
  deriving DecidableEq

/-- The chat store as far as `refreshChats` goes, between two microtasks. -/
structure ChatRefresh where
  chats : Chats
  error : String
  refreshing : Bool
  refreshChatsQueued : Bool
  /-- `refreshChatsPromise` is not `null`. -/
  refreshChatsPromise : Bool
  /-- Where the loop is that the promise is of; `none` once it has returned. -/
  loop : Option RefreshAwait
  /-- The calls that the promise has yet to continue. -/
  awaiting : List RefreshCall
  /-- The continuations of calls that are queued as microtasks. -/
  microtasks : List RefreshCall
  /-- How many times `fetchChats` has been called, and how many of these calls are over. -/
  fetches : ℕ
  fetched : ℕ
  /-- The calls that have returned, and how many fetches were over then. -/
  returned : List (RefreshCall × ℕ)

/-- What happens in a microtask. -/
inductive RefreshAct where
  /-- Somebody calls `refreshChats`. -/
  | refreshChats
  /-- `fetchChats` is answered, or throws what may have a message. -/
  | fetched (reply : Except (Option String) Chats)
  /-- The chats are stored and the rooms subscribed, or one of these throws. -/
  | persisted (failure : Option (Option String))
  /-- The call whose continuation is the first of the queue goes on. -/
  | resume

namespace ChatRefresh

/-- A round of the loop, up to its first `await`. -/
def round (w : ChatRefresh) : ChatRefresh :=
  { w with
    refreshChatsQueued := false
    error := ""
    loop := some .fetchChats
    fetches := w.fetches + 1 }

/-- `while (refreshChatsQueued)`; a loop that returns continues whoever awaits it. -/
def check (w : ChatRefresh) : ChatRefresh :=
  if w.refreshChatsQueued then w.round
  else { w with loop := none, awaiting := [], microtasks := w.microtasks ++ w.awaiting }

/-- The handler of the loop. -/
def failed (w : ChatRefresh) (message : Option String) : ChatRefresh :=
  { w with error := message.getD "加载会话失败" }

/-- `await refreshChatsPromise`. -/
def awaitPromise (w : ChatRefresh) (call : RefreshCall) : ChatRefresh :=
  if w.refreshChatsPromise ∧ w.loop ≠ none then { w with awaiting := w.awaiting ++ [call] }
  else { w with microtasks := w.microtasks ++ [call] }

/-- `refreshChats`, up to its `await`. -/
def refreshChats (w : ChatRefresh) : ChatRefresh :=
  if w.refreshing then { w with refreshChatsQueued := true }.awaitPromise ⟨w.fetches, false⟩
  else { { w with refreshing := true }.round with refreshChatsPromise := true }.awaitPromise
    ⟨w.fetches, true⟩

/-- `refreshChats`, behind its `await`. -/
def finish (w : ChatRefresh) (call : RefreshCall) : ChatRefresh :=
  let w := { w with returned := w.returned ++ [(call, w.fetched)] }
  if call.leads then
    { w with refreshing := false, refreshChatsPromise := false, refreshChatsQueued := false }
  else w

def act (w : ChatRefresh) : RefreshAct → Option ChatRefresh
  | .refreshChats => some w.refreshChats
  | .fetched reply =>
    if w.loop = some .fetchChats then
      let w := { w with fetched := w.fetched + 1 }
      match reply with
      | .ok chats => some { w with chats := sortChats chats, loop := some .persistChatSummaries }
      | .error message => some (w.failed message).check
    else none
  | .persisted failure =>
    if w.loop = some .persistChatSummaries then
      match failure with
      | none => some w.check
      | some message => some (w.failed message).check
    else none
  | .resume =>
    match w.microtasks with
    | [] => none
    | call :: rest => some ({ w with microtasks := rest }.finish call)

/-- Nobody has called `refreshChats` yet. -/
def idle (chats : Chats) (error : String) : ChatRefresh :=
  ⟨chats, error, false, false, false, none, [], [], 0, 0, []⟩

/-- A call that has returned has seen the end of a fetch that was started after it began, and the
store is not said to be refreshing when no call is running. -/
structure Served (w : ChatRefresh) : Prop where
  returned : ∀ r ∈ w.returned, r.1.begun < r.2
  settled : w.awaiting = [] → w.microtasks = [] → w.refreshing = false

/-- No request is lost, in runs whose acts meet a condition. -/
def LosesNoRequest (chats : Chats) (error : String) (G : ChatRefresh → RefreshAct → Prop) : Prop :=
  ∀ w, Machine.Reach act G (idle chats error) w → w.Served

/-- **The condition**.  No call begins when the loop has returned and the flags are not reset. -/
def BeforeLastCheck (w : ChatRefresh) (a : RefreshAct) : Prop :=
  a = .refreshChats → w.refreshing = true → w.loop ≠ none

/-! ## The invariant -/

/-- The loop and the calls that await it fit one another. -/
structure Shares (w : ChatRefresh) : Prop where
  /-- One call runs the loop. -/
  leader : (w.awaiting ++ w.microtasks).countP RefreshCall.leads = w.refreshing.toNat
  shared : w.loop ≠ none → w.refreshing = true ∧ w.refreshChatsPromise = true
  ended : w.loop = none → w.awaiting = []
  /-- A call that awaits the loop is served by a round that has begun or that it has asked for. -/
  awaiting : ∀ c ∈ w.awaiting, c.begun < w.fetches ∨
    w.refreshChatsQueued = true ∧ c.begun = w.fetches
  continued : ∀ c ∈ w.microtasks, c.begun < w.fetched ∧ (c.leads = true → w.loop = none)
  returned : ∀ r ∈ w.returned, r.1.begun < r.2

/-- And of the fetches at most the last goes on. -/
structure Coalesces (w : ChatRefresh) : Prop extends Shares w where
  counted : w.fetches = w.fetched + if w.loop = some .fetchChats then 1 else 0

variable {w w' : ChatRefresh}

theorem coalesces_idle (chats : Chats) (error : String) : Coalesces (idle chats error) where
  leader := rfl
  shared h := absurd rfl h
  ended _ := rfl
  awaiting _ hc := absurd hc not_mem_nil
  continued _ hc := absurd hc not_mem_nil
  returned _ hr := absurd hr not_mem_nil
  counted := rfl

theorem Coalesces.served (h : Coalesces w) : w.Served where
  returned := h.returned
  settled hawaiting hmicrotasks := by
    have hleader := h.leader
    rw [hawaiting, hmicrotasks] at hleader
    cases hrefreshing : w.refreshing with
    | false => rfl
    | true =>
      rw [hrefreshing] at hleader
      cases hleader

/-- A fetch is over. -/
theorem Shares.fetched (h : Shares w) : Shares { w with fetched := w.fetched + 1 } where
  leader := h.leader
  shared := h.shared
  ended := h.ended
  awaiting := h.awaiting
  continued c hc := (h.continued c hc).imp_left Nat.lt_succ_of_lt
  returned := h.returned

theorem Shares.failed (h : Shares w) (message : Option String) : Shares (w.failed message) :=
  ⟨h.leader, h.shared, h.ended, h.awaiting, h.continued, h.returned⟩

/-- The last check of a round. -/
theorem Shares.check (h : Shares w) (hloop : w.loop ≠ none) (hcounted : w.fetches = w.fetched) :
    Coalesces w.check := by
  unfold ChatRefresh.check
  split
  · refine ⟨⟨h.leader, fun _ => h.shared hloop, fun hnone => (by cases hnone), fun c hc => .inl ?_,
      fun c hc => ?_, h.returned⟩, congrArg (· + 1) hcounted⟩
    · show c.begun < w.fetches + 1
      rcases h.awaiting c hc with hlt | ⟨-, heq⟩ <;> omega
    · obtain ⟨hlt, hleads⟩ := h.continued c hc
      exact ⟨hlt, fun hleader => absurd (hleads hleader) hloop⟩
  · rename_i hqueued
    refine ⟨⟨?_, fun hsome => absurd rfl hsome, fun _ => rfl,
      fun c hc => absurd hc not_mem_nil, fun c hc => ⟨?_, fun _ => rfl⟩, h.returned⟩, hcounted⟩
    · rw [← h.leader, nil_append, countP_append, countP_append, Nat.add_comm]
    · rcases mem_append.1 hc with hc | hc
      · exact (h.continued c hc).1
      · rcases h.awaiting c hc with hlt | ⟨hqueued', -⟩
        · exact hcounted ▸ hlt
        · exact absurd hqueued' hqueued

theorem Coalesces.refreshChats (h : Coalesces w)
    (hG : w.refreshing = true → w.loop ≠ none) : Coalesces w.refreshChats := by
  unfold ChatRefresh.refreshChats
  split
  · rename_i hrefreshing
    have hloop := hG hrefreshing
    unfold awaitPromise
    rw [if_pos ⟨(h.shared hloop).2, hloop⟩]
    refine ⟨⟨?_, h.shared, fun hnone => absurd hnone hloop, fun c hc => ?_, h.continued,
      h.returned⟩, h.counted⟩
    · rw [← h.leader]
      simp
    · rcases mem_append.1 hc with hc | hc
      · exact (h.awaiting c hc).imp_right fun hasked => ⟨rfl, hasked.2⟩
      · rw [mem_singleton.1 hc]
        exact .inr ⟨rfl, rfl⟩
  · rename_i hrefreshing
    have hloop : w.loop = none := by
      by_contra hloop
      exact hrefreshing (h.shared hloop).1
    have hnobody : (w.awaiting ++ w.microtasks).countP RefreshCall.leads = 0 := by
      rw [h.leader, Bool.eq_false_iff.2 hrefreshing]
      rfl
    have hcounted : w.fetches = w.fetched := by simpa [hloop] using h.counted
    refine ⟨⟨?_, fun _ => ⟨rfl, rfl⟩, fun hnone => (by cases hnone), fun c hc => .inl ?_,
      fun c hc => ⟨(h.continued c hc).1, fun hleads => ?_⟩, h.returned⟩, congrArg (· + 1) hcounted⟩
    · show (w.awaiting ++ [_] ++ w.microtasks).countP RefreshCall.leads = 1
      rw [countP_append] at hnobody
      simp only [countP_append, countP_singleton, if_true]
      omega
    · have hc : c ∈ w.awaiting ++ [⟨w.fetches, true⟩] := hc
      rw [h.ended hloop, nil_append, mem_singleton] at hc
      rw [hc]
      exact Nat.lt_succ_self _
    · exact absurd hleads (countP_eq_zero.1 hnobody c (mem_append_right _ hc))

/-- The next continuation of the queue. -/
theorem Coalesces.finish {c : RefreshCall} {rest : List RefreshCall} (h : Coalesces w)
    (hc : w.microtasks = c :: rest) : Coalesces ({ w with microtasks := rest }.finish c) := by
  obtain ⟨hbegun, hleads⟩ := h.continued c (hc ▸ mem_cons_self)
  have hleader := h.leader
  rw [hc, countP_append, countP_cons] at hleader
  have hrest : ∀ d ∈ rest, d.begun < w.fetched ∧ (d.leads = true → w.loop = none) := fun d hd =>
    h.continued d (hc ▸ mem_cons_of_mem c hd)
  have hreturned : ∀ r ∈ w.returned ++ [(c, w.fetched)], r.1.begun < r.2 := by
    intro r hr
    rcases mem_append.1 hr with hr | hr
    · exact h.returned r hr
    · rw [mem_singleton.1 hr]
      exact hbegun
  unfold ChatRefresh.finish
  split
  · rename_i hlead
    have hloop := hleads hlead
    rw [if_pos hlead] at hleader
    refine ⟨⟨?_, fun hsome => absurd hloop hsome, h.ended, fun d hd => ?_, hrest, hreturned⟩,
      h.counted⟩
    · show (w.awaiting ++ rest).countP RefreshCall.leads = 0
      have hle : w.refreshing.toNat ≤ 1 := Bool.toNat_le _
      rw [countP_append]
      omega
    · rw [show w.awaiting = [] from h.ended hloop] at hd
      cases hd
  · rename_i hlead
    rw [if_neg hlead] at hleader
    refine ⟨⟨?_, h.shared, h.ended, h.awaiting, hrest, hreturned⟩, h.counted⟩
    rw [← hleader]
    exact countP_append

/-- **Every act** that meets the condition keeps the invariant. -/
theorem Coalesces.act {a : RefreshAct} (h : Coalesces w) (hG : BeforeLastCheck w a)
    (hact : w.act a = some w') : Coalesces w' := by
  unfold ChatRefresh.act at hact
  cases a with
  | refreshChats =>
    cases hact
    exact h.refreshChats (hG rfl)
  | fetched reply =>
    dsimp only at hact
    split at hact
    · rename_i hloop
      have hcounted : w.fetches = w.fetched + 1 := by simpa [hloop] using h.counted
      have hsome : w.loop ≠ none := by simp [hloop]
      cases reply with
      | ok chats =>
        cases hact
        refine ⟨⟨h.leader, fun _ => h.shared hsome, fun hnone => (by cases hnone), h.awaiting,
          fun c hc => ?_, h.returned⟩, hcounted⟩
        obtain ⟨hlt, hleads⟩ := h.continued c hc
        exact ⟨Nat.lt_succ_of_lt hlt, fun hleader => absurd (hleads hleader) hsome⟩
      | error message =>
        cases hact
        exact (h.toShares.fetched.failed message).check hsome hcounted
    · cases hact
  | persisted failure =>
    dsimp only at hact
    split at hact
    · rename_i hloop
      have hcounted : w.fetches = w.fetched := by simpa [hloop] using h.counted
      have hsome : w.loop ≠ none := by simp [hloop]
      cases failure with
      | none =>
        cases hact
        exact h.toShares.check hsome hcounted
      | some message =>
        cases hact
        exact (h.toShares.failed message).check hsome hcounted
    · cases hact
  | resume =>
    dsimp only at hact
    split at hact
    · cases hact
    · rename_i c rest hc
      cases hact
      exact h.finish hc

/-- **No request is lost**, in every run without a call between a last check and the reset. -/
theorem losesNoRequest (chats : Chats) (error : String) :
    LosesNoRequest chats error BeforeLastCheck := by
  intro w hreach
  exact (hreach.invariant (fun _ _ _ h hG hact => h.act hG hact)
    (coalesces_idle chats error)).served

/-! ## Fetches -/

/-- Every fetch, and the one that is queued, has been asked for by a call of its own. -/
def AskedFor (w : ChatRefresh) : Prop :=
  w.fetches + w.refreshChatsQueued.toNat ≤ (w.awaiting ++ w.microtasks).length + w.returned.length

theorem AskedFor.check (h : AskedFor w) : AskedFor w.check := by
  unfold ChatRefresh.check
  split
  · rename_i hqueued
    simpa [AskedFor, round, hqueued] using h
  · simpa [AskedFor, Nat.add_comm] using h

theorem askedFor_act {a : RefreshAct} (h : AskedFor w)
    (hact : w.act a = some w') : AskedFor w' := by
  cases a with
  | refreshChats =>
    cases hact
    unfold AskedFor at h
    unfold refreshChats awaitPromise
    split <;> split <;> simp [AskedFor, round] at h ⊢ <;> omega
  | fetched reply =>
    simp only [act, Option.ite_none_right_eq_some] at hact
    obtain ⟨-, hact⟩ := hact
    cases reply <;> cases hact
    · exact AskedFor.check (w := failed _ _) h
    · exact h
  | persisted failure =>
    simp only [act, Option.ite_none_right_eq_some] at hact
    obtain ⟨-, hact⟩ := hact
    cases failure <;> cases hact
    · exact h.check
    · exact AskedFor.check (w := failed _ _) h
  | resume =>
    simp only [act] at hact
    split at hact
    · cases hact
    · rename_i call rest hrest
      cases hact
      unfold AskedFor at h
      unfold finish
      split <;> simp [AskedFor, hrest] at h ⊢ <;> omega

/-- Somebody calls `refreshChats` behind the last check of a refresh. -/
def calledBehindLastCheck : List RefreshAct :=
  [.refreshChats, .fetched (.ok Table.empty), .persisted none, .refreshChats, .resume, .resume]

theorem lost_behind_last_check : ¬ LosesNoRequest Table.empty "" fun _ _ => True := by
  intro h
  have hrun : ((Machine.perform act calledBehindLastCheck (idle Table.empty "")).map
      ChatRefresh.returned) = some [(⟨0, true⟩, 1), (⟨1, false⟩, 1)] := by
    decide +kernel
  obtain ⟨w, hw, hreturned⟩ := Option.map_eq_some_iff.1 hrun
  have hserved := (h w (.of_perform (fun _ _ => trivial) hw)).returned (⟨1, false⟩, 1)
    (hreturned ▸ .tail _ (.head _))
  exact absurd hserved (Nat.lt_irrefl 1)

end ChatRefresh

end RedcodeIm.H5
