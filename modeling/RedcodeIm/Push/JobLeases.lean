import RedcodeIm.Push.JobQueue

/-!
# Jobs and their leases

The lease of a claim is a time, and the reports of a worker name the job only.  A worker that takes
longer than its lease reports on a job that another one has claimed since, and a worker that crashes
has not counted its attempt.  Where no job is claimed that another worker is still at, nor one that
was worked on more often than its attempts say, every job has one worker at a time, and is worked on
no more often than it may be.

* `ReportedFirst` — the condition.
* `PushMove`, `pushMove` — all that a statement can do.
* `ThreadInOrder`, `ThreadsApart` — what holds of each job at work, and of each two rounds.
* `jobs_hold` — so the leases hold in every run.
-/

namespace RedcodeIm

open Overlap (Each EachTwo Reach Step)
open List

namespace PushQueue

abbrev State := Overlap.State PushWorld PushCall PushStage (Except AppError Unit)

abbrev Status := Overlap.Status PushStage (Except AppError Unit)

abbrev Condition := Overlap.Condition PushWorld PushCall PushStage (Except AppError Unit) PushChoice

abbrev Act := Overlap.Act PushCall PushChoice ℕ

/-- The jobs that a round is at. -/
def threads : Status → List JobThread
  | .running (.round (.batch _ threads)) => threads
  | _ => []

/-- The number of the claim that a round has made. -/
def claimNumber : Status → ℕ
  | .running (.round (.batch claim _)) => claim
  | _ => 0

/-- **The condition**: no job is claimed that a round is still at, nor one that was worked on more
often than its attempts say. -/
def ReportedFirst (cfg : PushDbQueueConfig) : Condition := fun s i x =>
  ∀ c, s.calls i = some (c, .running (.round .claim)) →
    ∀ r ∈ s.world.picked cfg.batchSize x.round.skipped,
      (∀ j c' st, s.calls j = some (c', st) → ∀ th ∈ threads st, th.job.id ≠ r.id) ∧
        s.world.processed r.id ≤ r.attempts

/-- **Jobs and their leases**: no job is worked on more often than it may be; whoever is to report
on a job was the last to claim it; and a job that is not at its end is due some time. -/
structure JobsHold (cfg : PushDbQueueConfig) (s : State) : Prop where
  processed : ∀ id, s.world.processed id ≤ cfg.maxAttempts
  holders : ∀ i c st, s.calls i = some (c, st) → ∀ th ∈ threads st,
    s.world.claimedBy th.job.id = claimNumber st
  due : ∀ r ∈ s.world.jobs.rows, r.isTerminal = true ∨
    ∃ seconds, r.isDue (s.world.now + seconds) = true

/-- No job is lost, and one that is at its end stays as it is, and is not worked on. -/
def JobsKept (w w' : PushWorld) : Prop :=
  ∀ id r, w.jobs.get id = some r → ∃ r', w'.jobs.get id = some r' ∧
    (r.isTerminal = true → r' = r ∧ w'.processed id = w.processed id)

/-! ## What a claim does -/

section

variable {cfg : PushDbQueueConfig} {w w' : PushWorld} {rows : List PushJobRecord} {lease limit : ℕ}
  {skipped : List Uuid} {r : PushJobRecord} {id : Uuid}

theorem mem_picked (h : r ∈ w.picked limit skipped) : r ∈ w.jobs.rows ∧ r.isDue w.now = true := by
  have hmem := mem_of_mem_take h
  rw [mem_insertionSort] at hmem
  obtain ⟨hrow, hcheck⟩ := mem_filter.1 hmem
  exact ⟨hrow, (Bool.and_eq_true_iff.1 hcheck).1⟩

theorem nodup_picked (w : PushWorld) (limit : ℕ) (skipped : List Uuid) :
    ((w.picked limit skipped).map (·.id)).Nodup := by
  have hfilter : ((w.jobs.rows.filter fun r => r.isDue w.now && r.id ∉ skipped).map (·.id)).Nodup :=
    w.jobs.nodup.sublist ((filter_sublist).map _)
  have hsorted := ((perm_insertionSort (fun r s : PushJobRecord =>
    r.nextRunAt < s.nextRunAt ∨ (r.nextRunAt = s.nextRunAt ∧ r.createdAt ≤ s.createdAt))
      (w.jobs.rows.filter fun r => r.isDue w.now && r.id ∉ skipped)).map (·.id)).nodup_iff.2 hfilter
  exact hsorted.sublist ((take_sublist _ _).map _)

theorem not_terminal_of_due {now : Timestamp} (h : r.isDue now = true) : r.isTerminal = false := by
  unfold PushJobRecord.isDue at h
  unfold PushJobRecord.isTerminal
  cases hs : r.status <;> simp_all

/-- What claims do to the jobs. -/
structure Claimed (w w' : PushWorld) (rows : List PushJobRecord) (lease : ℕ) : Prop where
  leased : ∀ r ∈ rows, w'.jobs.get r.id = some (w.leased lease r) ∧ w'.claimedBy r.id = w.claims
  others : ∀ id, (∀ r ∈ rows, r.id ≠ id) →
    w'.jobs.get id = w.jobs.get id ∧ w'.claimedBy id = w.claimedBy id
  processed : w'.processed = w.processed
  claims : w'.claims = w.claims
  now : w'.now = w.now

theorem claimed_foldl (lease : ℕ) (hnodup : (rows.map (·.id)).Nodup) :
    Claimed w (rows.foldl (fun w r => w.claim lease r) w) rows lease := by
  induction rows generalizing w with
  | nil => exact ⟨fun r hr => absurd hr not_mem_nil, fun _ _ => ⟨rfl, rfl⟩, rfl, rfl, rfl⟩
  | cons r rows ih =>
    rw [map_cons, nodup_cons] at hnodup
    obtain ⟨hfresh, hnodup⟩ := hnodup
    have hrest := ih (w := w.claim lease r) hnodup
    have hget : ∀ id, (w.claim lease r).jobs.get id =
        if r.id = id then some (w.leased lease r) else w.jobs.get id := fun id =>
      Table.get_put _ _ _
    have hother : ∀ id, r.id ≠ id → (w.claim lease r).claimedBy id = w.claimedBy id := fun id hid =>
      Function.update_of_ne hid.symm _ _
    refine ⟨fun x hx => ?_, fun id hid => ?_, hrest.processed, hrest.claims, hrest.now⟩
    · rcases mem_cons.1 hx with rfl | hx
      · have hkeep := hrest.others x.id fun y hy heq =>
          hfresh (heq ▸ mem_map_of_mem hy)
        refine ⟨hkeep.1.trans ((hget x.id).trans (if_pos rfl)), hkeep.2.trans ?_⟩
        exact Function.update_self ..
      · exact hrest.leased x hx
    · have hkeep := hrest.others id fun y hy => hid y (mem_cons_of_mem _ hy)
      have hne := hid r mem_cons_self
      exact ⟨hkeep.1.trans ((hget id).trans (if_neg hne)), hkeep.2.trans (hother id hne)⟩

end

/-! ## What a statement does -/

/-- All that a statement can do. -/
inductive PushMove (cfg : PushDbQueueConfig) (w : PushWorld) (stage : PushStage) (x : PushChoice)
    (w' : PushWorld) (st : Status) : Prop where
  | quiet (hw : w' = w) (hst : threads st = [] ∨ st = .running stage)
  | enqueued (r : PushJobRecord) (hnew : w.jobs.get r.id = none) (hpending : r.status = .pending)
      (hw : w' = { w with jobs := w.jobs.insert r }) (hst : threads st = [])
  | claimed (rows : List PushJobRecord) (hstage : stage = .round .claim)
      (hrows : rows = w.picked cfg.batchSize x.round.skipped)
      (hclaimed : Claimed { w with claims := w.claims + 1 } w' rows cfg.leaseSeconds)
      (hst : threads st = rows.map fun r => .waiting (w.leased cfg.leaseSeconds r))
      (hnumber : rows ≠ [] → claimNumber st = w.claims + 1)
  | begun (claim : ℕ) (pre post : List JobThread) (job : PushJobRecord)
      (hstage : stage = .round (.batch claim (pre ++ .waiting job :: post)))
      (hattempts : job.attempts < cfg.maxAttempts) (hw : w' = w.process job.id)
      (hst : st = .running (.round (.batch claim (pre ++ .processing job :: post))))
  | ended (claim : ℕ) (pre post : List JobThread) (th : JobThread) (report : JobReport)
      (hstage : stage = .round (.batch claim (pre ++ th :: post))) (hw : w' = w)
      (hst : st = .running (.round (.batch claim (pre ++ .reporting th.job report :: post))))
  | marked (claim : ℕ) (pre post : List JobThread) (job : PushJobRecord) (report : JobReport)
      (refused : Bool)
      (hstage : stage = .round (.batch claim (pre ++ .reporting job report :: post)))
      (hw : w' = w.mark job.id report refused) (hst : threads st = pre ++ post)
      (hnumber : pre ++ post ≠ [] → claimNumber st = claim)

section

variable {cfg : PushDbQueueConfig} {w w' : PushWorld} {x : PushChoice} {stage : PushStage}
  {st st' : Status} {claim : ℕ} {ts : List JobThread}

theorem threads_batchOf : threads ((batchOf claim ts).map PushStage.round).status = ts := by
  unfold batchOf
  split
  · rename_i h
    rw [h]
    rfl
  · rfl

theorem claimNumber_batchOf (h : ts ≠ []) :
    claimNumber ((batchOf claim ts).map PushStage.round).status = claim := by
  rw [batchOf, if_neg h]
  rfl

theorem status_batchOf (h : ts ≠ []) :
    ((batchOf claim ts).map PushStage.round).status = .running (.round (.batch claim ts)) := by
  rw [batchOf, if_neg h]
  rfl

/-- Every statement makes one of these moves. -/
theorem pushMove (cfg : PushDbQueueConfig) (w : PushWorld) (x : PushChoice) (stage : PushStage) :
    PushMove cfg w stage x (pushStatement cfg w x stage).1
      (pushStatement cfg w x stage).2.status := by
  cases stage with
  | enqueue jobType payload nextRunAt =>
    simp only [pushStatement, PushWorld.enqueue]
    split
    · rename_i h
      split at h
      · rename_i hcheck
        cases h
        simp only [Bool.and_eq_true, Option.isNone_iff_eq_none] at hcheck
        exact .enqueued ⟨x.id, jobType, payload, .pending, 0, nextRunAt, none, w.now, w.now⟩
          hcheck.2 rfl rfl rfl
      · cases h
    · exact .quiet rfl (.inl rfl)
  | round stage =>
    cases stage with
    | claim =>
      simp only [pushStatement, runPushDbQueueOnce]
      split
      · have hclaimed := claimed_foldl (w := { w with claims := w.claims + 1 }) cfg.leaseSeconds
          (nodup_picked w cfg.batchSize x.round.skipped)
        refine .claimed _ rfl rfl hclaimed ?_ fun hne => ?_
        · rw [threads_batchOf]
          simp [PushWorld.claimDueJobs]
        · rw [claimNumber_batchOf (by simpa [PushWorld.claimDueJobs] using hne)]
          exact hclaimed.claims
      · exact .quiet rfl (.inl rfl)
    | batch claim ts =>
      simp only [pushStatement, runPushDbQueueOnce]
      cases hth : ts[x.round.thread]? with
      | none =>
        refine .quiet rfl ?_
        by_cases hts : ts = []
        · exact .inl (by rw [threads_batchOf, hts])
        · exact .inr (status_batchOf hts)
      | some th =>
        obtain ⟨hlt, hget⟩ := List.getElem?_eq_some_iff.1 hth
        have hsplit : ts = ts.take x.round.thread ++ th :: ts.drop (x.round.thread + 1) := by
          rw [← hget, cons_getElem_drop_succ, take_append_drop]
        generalize ts.take x.round.thread = pre at hsplit
        generalize ts.drop (x.round.thread + 1) = post at hsplit
        subst hsplit
        cases th with
        | waiting job =>
          simp only [JobThread.advance]
          split
          · refine .ended claim pre post (.waiting job) (.failed "超过最大重试次数，已停止处理") rfl rfl ?_
            simp [status_batchOf, JobThread.job]
          · rename_i hattempts
            refine .begun claim pre post job rfl (Nat.lt_of_not_le hattempts) rfl ?_
            simp [status_batchOf]
        | processing job =>
          refine .ended claim pre post (.processing job)
            (x.round.outcome.report cfg w.now job.attempts) rfl rfl ?_
          simp [JobThread.advance, status_batchOf, JobThread.job]
        | reporting job report =>
          refine .marked claim pre post job report x.round.refused rfl rfl ?_ fun hne => ?_
          · simp [JobThread.advance, threads_batchOf]
          · simp only [JobThread.advance, Option.toList_none, append_nil]
            exact claimNumber_batchOf hne

end

/-! ## What holds of the jobs at work -/

/-- What holds of a job that a round is at: the round was the last to claim it, it is as it was
claimed, and until the round begins with it, it was not worked on more often than it has
attempts. -/
structure ThreadInOrder (w : PushWorld) (claim : ℕ) (th : JobThread) : Prop where
  holder : w.claimedBy th.job.id = claim
  row : ∃ r, w.jobs.get th.job.id = some r ∧ r.isTerminal = false ∧ r.attempts = th.job.attempts
  fresh : th.isBegun = false → w.processed th.job.id ≤ th.job.attempts

/-- What holds of a round. -/
structure RoundInOrder (w : PushWorld) (st : Status) : Prop where
  nodup : ((threads st).map (·.job.id)).Nodup
  each : ∀ th ∈ threads st, ThreadInOrder w (claimNumber st) th

/-- No two rounds are at the same job. -/
def ThreadsApart (_ : PushCall) (st : Status) (_ : PushCall) (st' : Status) : Prop :=
  ∀ th ∈ threads st, ∀ th' ∈ threads st', th.job.id ≠ th'.job.id

section

variable {cfg : PushDbQueueConfig} {w w' : PushWorld} {x : PushChoice} {stage : PushStage}
  {st st' : Status} {claim : ℕ} {th : JobThread}

/-- What happens to other jobs does not matter to a job. -/
theorem ThreadInOrder.congr (h : ThreadInOrder w claim th)
    (hholder : w'.claimedBy th.job.id = w.claimedBy th.job.id)
    (hrow : w'.jobs.get th.job.id = w.jobs.get th.job.id)
    (hprocessed : w'.processed th.job.id = w.processed th.job.id) : ThreadInOrder w' claim th := by
  obtain ⟨hclaim, hr, hfresh⟩ := h
  exact ⟨hholder.trans hclaim, hrow ▸ hr, fun hb => hprocessed ▸ hfresh hb⟩

theorem roundInOrder_nil (h : threads st = []) : RoundInOrder w st := by
  refine ⟨by rw [h]; exact nodup_nil, fun th hth => ?_⟩
  rw [h] at hth
  cases hth

theorem get_mark_ne {jobId id : Uuid} {report : JobReport} {refused : Bool} (h : jobId ≠ id) :
    (w.mark jobId report refused).jobs.get id = w.jobs.get id := by
  unfold PushWorld.mark
  split
  · rename_i r hget
    have hid : r.id = jobId := Table.key_of_get hget
    split
    · rfl
    · refine Table.get_put_ne ?_
      cases report <;> exact hid ▸ h
  · rfl

@[simp] theorem processed_mark (w : PushWorld) (jobId : Uuid) (report : JobReport)
    (refused : Bool) : (w.mark jobId report refused).processed = w.processed := by
  unfold PushWorld.mark
  split
  · split <;> rfl
  · rfl

@[simp] theorem claimedBy_mark (w : PushWorld) (jobId : Uuid) (report : JobReport)
    (refused : Bool) : (w.mark jobId report refused).claimedBy = w.claimedBy := by
  unfold PushWorld.mark
  split
  · split <;> rfl
  · rfl

variable (h : PushMove cfg w stage x w' st)

include h

/-- A statement leaves the jobs of the other rounds alone. -/
theorem PushMove.others
    (hclaims : stage = .round .claim → ∀ r ∈ w.picked cfg.batchSize x.round.skipped, th.job.id ≠
      r.id) (hapart : ∀ own ∈ threads (.running stage), own.job.id ≠ th.job.id)
    (hth : ThreadInOrder w claim th) : ThreadInOrder w' claim th := by
  cases h with
  | quiet hw | ended _ _ _ _ _ _ hw => exact hw ▸ hth
  | enqueued r hnew hpending hw =>
    subst hw
    obtain ⟨old, hold, -⟩ := hth.row
    refine hth.congr rfl (Table.get_insert_ne fun hid => ?_) rfl
    rw [← hid, hnew] at hold
    cases hold
  | claimed rows hstage hrows hclaimed =>
    obtain ⟨hjobs, hholder⟩ := hclaimed.others th.job.id fun r hr =>
      (hclaims hstage r (hrows ▸ hr)).symm
    exact hth.congr hholder hjobs (congrFun hclaimed.processed _)
  | begun n pre post job hstage hattempts hw =>
    subst hstage
    subst hw
    have hne : job.id ≠ th.job.id := hapart (.waiting job) (by simp [threads])
    exact hth.congr rfl rfl (Function.update_of_ne hne.symm _ _)
  | marked n pre post job report refused hstage hw =>
    subst hstage
    subst hw
    have hne : job.id ≠ th.job.id := hapart (.reporting job report) (by simp [threads])
    exact hth.congr (by simp) (get_mark_ne hne) (by simp)

omit h in
/-- One job of a round, and the others. -/
theorem RoundInOrder.split {n : ℕ} {pre post : List JobThread}
    (h : RoundInOrder w (.running (.round (.batch n (pre ++ th :: post))))) :
    ThreadInOrder w n th ∧ ((th :: (pre ++ post)).map (·.job.id)).Nodup ∧
      ∀ other ∈ pre ++ post, ThreadInOrder w n other ∧ th.job.id ≠ other.job.id := by
  have hnodup : ((th :: (pre ++ post)).map (·.job.id)).Nodup := by
    have hall : ((pre ++ th :: post).map (·.job.id)).Nodup := h.nodup
    rw [map_append, map_cons] at hall
    rw [map_cons, map_append]
    exact nodup_middle.1 hall
  refine ⟨h.each th (mem_append_right _ mem_cons_self), hnodup, fun other hother =>
    ⟨h.each other ?_, fun heq => ?_⟩⟩
  · rcases mem_append.1 hother with hpre | hpost
    · exact mem_append_left _ hpre
    · exact mem_append_right _ (mem_cons_of_mem _ hpost)
  · rw [map_cons, nodup_cons] at hnodup
    exact hnodup.1 (heq ▸ mem_map_of_mem hother)

omit h in
/-- A round goes on with one of its jobs elsewhere. -/
theorem roundInOrder_replace {n : ℕ} {pre post : List JobThread} {new : JobThread}
    (hnodup : ((th :: (pre ++ post)).map (·.job.id)).Nodup) (hid : new.job.id = th.job.id)
    (hnew : ThreadInOrder w n new) (hothers : ∀ other ∈ pre ++ post, ThreadInOrder w n other) :
    RoundInOrder w (.running (.round (.batch n (pre ++ new :: post)))) := by
  refine ⟨?_, fun other hother => ?_⟩
  · show ((pre ++ new :: post).map (·.job.id)).Nodup
    rw [map_append, map_cons, nodup_middle, ← map_append, hid]
    exact hnodup
  · rcases mem_append.1 hother with hpre | hpost
    · exact hothers other (mem_append_left _ hpre)
    · rcases mem_cons.1 hpost with rfl | hpost
      · exact hnew
      · exact hothers other (mem_append_right _ hpost)

/-- A statement keeps the jobs of its own round in order. -/
theorem PushMove.self (hround : RoundInOrder w (.running stage))
    (hclaims : stage = .round .claim → ∀ r ∈ w.picked cfg.batchSize x.round.skipped, w.processed
      r.id ≤ r.attempts) : RoundInOrder w' st := by
  cases h with
  | quiet hw hst =>
    subst hw
    rcases hst with hst | rfl
    · exact roundInOrder_nil hst
    · exact hround
  | enqueued r _ _ _ hst => exact roundInOrder_nil hst
  | claimed rows hstage hrows hclaimed hst hnumber =>
    refine ⟨?_, fun th hth => ?_⟩
    · rw [hst, map_map]
      exact hrows ▸ nodup_picked _ _ _
    · rw [hst] at hth
      obtain ⟨r, hr, rfl⟩ := mem_map.1 hth
      obtain ⟨hjob, hholder⟩ := hclaimed.leased r hr
      have hopen : r.isTerminal = false := not_terminal_of_due (mem_picked (hrows ▸ hr)).2
      rw [hnumber (ne_nil_of_mem hr)]
      refine ⟨hholder, ⟨_, hjob, hopen, rfl⟩, fun _ => ?_⟩
      rw [hclaimed.processed]
      exact hclaims hstage r (hrows ▸ hr)
  | begun n pre post job hstage _ hw hst =>
    subst hstage
    subst hw
    subst hst
    obtain ⟨hown, hnodup, hothers⟩ := hround.split
    refine roundInOrder_replace hnodup rfl ⟨hown.holder, hown.row, fun hb => by cases hb⟩
      fun other hother => ?_
    obtain ⟨hold, hne⟩ := hothers other hother
    exact hold.congr rfl rfl (Function.update_of_ne (Ne.symm hne) _ _)
  | ended n pre post own report hstage hw hst =>
    subst hstage
    subst hw
    subst hst
    obtain ⟨hown, hnodup, hothers⟩ := hround.split
    exact roundInOrder_replace hnodup rfl ⟨hown.holder, hown.row, fun hb => by cases hb⟩
      fun other hother => (hothers other hother).1
  | marked n pre post job report refused hstage hw hst hnumber =>
    subst hstage
    subst hw
    obtain ⟨hown, hnodup, hothers⟩ := hround.split
    rw [map_cons, nodup_cons] at hnodup
    refine ⟨hst ▸ hnodup.2, fun other hother => ?_⟩
    rw [hst] at hother
    obtain ⟨hold, hne⟩ := hothers other hother
    rw [hnumber (ne_nil_of_mem hother)]
    exact hold.congr (by simp) (get_mark_ne hne) (by simp)

/-- The jobs that a round is at after a statement are those it was at, unless it has just claimed
them. -/
theorem PushMove.ids (hth : th ∈ threads st) :
    (∃ own ∈ threads (.running stage), own.job.id = th.job.id) ∨
      (stage = .round .claim ∧ ∃ r ∈ w.picked cfg.batchSize x.round.skipped, r.id = th.job.id) := by
  cases h with
  | quiet _ hst =>
    rcases hst with hst | rfl
    · rw [hst] at hth
      cases hth
    · exact .inl ⟨th, hth, rfl⟩
  | enqueued r _ _ _ hst =>
    rw [hst] at hth
    cases hth
  | claimed rows hstage hrows _ hst =>
    rw [hst] at hth
    obtain ⟨r, hr, rfl⟩ := mem_map.1 hth
    exact .inr ⟨hstage, r, hrows ▸ hr, rfl⟩
  | begun n pre post job hstage _ _ hst =>
    subst hstage
    subst hst
    rcases mem_append.1 hth with hpre | hpost
    · exact .inl ⟨th, mem_append_left _ hpre, rfl⟩
    · rcases mem_cons.1 hpost with rfl | hpost
      · exact .inl ⟨.waiting job, mem_append_right _ mem_cons_self, rfl⟩
      · exact .inl ⟨th, mem_append_right _ (mem_cons_of_mem _ hpost), rfl⟩
  | ended n pre post own report hstage _ hst =>
    subst hstage
    subst hst
    rcases mem_append.1 hth with hpre | hpost
    · exact .inl ⟨th, mem_append_left _ hpre, rfl⟩
    · rcases mem_cons.1 hpost with rfl | hpost
      · exact .inl ⟨own, mem_append_right _ mem_cons_self, rfl⟩
      · exact .inl ⟨th, mem_append_right _ (mem_cons_of_mem _ hpost), rfl⟩
  | marked n pre post job report refused hstage _ hst =>
    subst hstage
    rw [hst] at hth
    rcases mem_append.1 hth with hpre | hpost
    · exact .inl ⟨th, mem_append_left _ hpre, rfl⟩
    · exact .inl ⟨th, mem_append_right _ (mem_cons_of_mem _ hpost), rfl⟩

/-- No job is worked on more often than it may be. -/
theorem PushMove.processed (hround : RoundInOrder w (.running stage))
    (hw : ∀ id, w.processed id ≤ cfg.maxAttempts) : ∀ id, w'.processed id ≤ cfg.maxAttempts := by
  intro id
  cases h with
  | quiet hw' | enqueued _ _ _ hw' | ended _ _ _ _ _ _ hw' => exact hw' ▸ hw id
  | claimed rows _ _ hclaimed => exact hclaimed.processed ▸ hw id
  | begun n pre post job hstage hattempts hw' =>
    subst hstage
    subst hw'
    have hfresh : w.processed job.id ≤ job.attempts := hround.split.1.fresh rfl
    show Function.update w.processed job.id _ id ≤ _
    by_cases hid : id = job.id
    · rw [hid, Function.update_self]
      omega
    · rw [Function.update_of_ne hid]
      exact hw id
  | marked n pre post job report refused _ hw' =>
    subst hw'
    rw [processed_mark]
    exact hw id

/-- No job is lost, and one that is at its end stays as it is. -/
theorem PushMove.kept (hround : RoundInOrder w (.running stage)) : JobsKept w w' := by
  intro id r hr
  cases h with
  | quiet hw | ended _ _ _ _ _ _ hw => exact ⟨r, hw ▸ hr, fun _ => ⟨rfl, hw ▸ rfl⟩⟩
  | enqueued new _ _ hw =>
    subst hw
    exact ⟨r, Table.get_insert_of_get hr, fun _ => ⟨rfl, rfl⟩⟩
  | claimed rows _ hrows hclaimed =>
    by_cases hid : ∀ x ∈ rows, x.id ≠ id
    · exact ⟨r, (hclaimed.others id hid).1.trans hr, fun _ => ⟨rfl, congrFun hclaimed.processed id⟩⟩
    · push Not at hid
      obtain ⟨x, hx, rfl⟩ := hid
      obtain ⟨hmem, hdue⟩ := mem_picked (hrows ▸ hx)
      obtain rfl := Option.some.inj ((Table.get_of_mem hmem).symm.trans hr)
      refine ⟨_, (hclaimed.leased x hx).1, fun hterminal => ?_⟩
      rw [not_terminal_of_due hdue] at hterminal
      cases hterminal
  | begun n pre post job hstage _ hw =>
    subst hstage
    subst hw
    refine ⟨r, hr, fun hterminal => ⟨rfl, Function.update_of_ne ?_ _ _⟩⟩
    rintro rfl
    obtain ⟨row, hrow, hopen, -⟩ := hround.split.1.row
    cases hrow.symm.trans hr
    rw [hopen] at hterminal
    cases hterminal
  | marked n pre post job report refused hstage hw =>
    subst hstage
    subst hw
    by_cases hid : job.id = id
    · subst hid
      obtain ⟨row, hrow, hopen, -⟩ := hround.split.1.row
      have heq : row = r := Option.some.inj (hrow.symm.trans hr)
      have hsome : ∃ r', (w.mark job.id report refused).jobs.get job.id = some r' := by
        unfold PushWorld.mark
        rw [hr]
        by_cases hrefused : (refused || !storable (report.row w.now r).lastError) = true
        · exact ⟨r, by simp only [if_pos hrefused]; exact hr⟩
        · have hr' : r.id = job.id := Table.key_of_get hr
          have hkey : (report.row w.now r).id = job.id := by cases report <;> exact hr'
          refine ⟨report.row w.now r, ?_⟩
          simp only [if_neg hrefused]
          rw [← hkey]
          exact Table.get_put_self _ _
      obtain ⟨r', hr'⟩ := hsome
      refine ⟨r', hr', fun hterminal => ?_⟩
      rw [← heq, hopen] at hterminal
      cases hterminal
    · exact ⟨r, (get_mark_ne hid).trans hr, fun _ => ⟨rfl, by simp⟩⟩

end

/-! ## Runs -/

section

variable {cfg : PushDbQueueConfig} {w : PushWorld} {s s' : State}

/-- No two rounds are at the same job. -/
theorem threads_apart (h : Reach (pushQueue cfg) (ReportedFirst cfg) (.idle w) s) :
    EachTwo ThreadsApart s := by
  refine Reach.apart (P := pushQueue cfg) (W := fun _ => True) (L := fun _ _ _ _ => True)
    (fun s' _ => ⟨trivial, fun _ _ _ _ => trivial⟩) ?_ ?_ ?_ ?_ h Overlap.apart_idle
  · intro c st c' st' happ th hth th' hth'
    exact (happ th' hth' th hth).symm
  · intro c c' st' th hth
    cases c <;> cases hth
  · intro s i c stage x _ hR hcall _ hG j c' st' hji hj th hth th' hth'
    rcases (pushMove cfg s.world x stage).ids hth with ⟨own, hown, hid⟩ | ⟨rfl, r, hr, hid⟩
    · exact hid ▸ hR i j c _ c' st' (Ne.symm hji) hcall hj own hown th' hth'
    · exact hid ▸ ((hG c hcall r hr).1 j c' st' hj th' hth').symm
  · intro c c' st' th hth
    cases hth

/-- What holds of the jobs, and of each round. -/
theorem rounds_each (hw : ∀ id, w.processed id = 0)
    (h : Reach (pushQueue cfg) (ReportedFirst cfg) (.idle w) s) :
    Each (fun w => ∀ id, w.processed id ≤ cfg.maxAttempts) (fun w _ _ st => RoundInOrder w st)
      s := by
  have hstrong := h.strengthen (I := EachTwo ThreadsApart) fun s' hs' => threads_apart hs'
  refine hstrong.each (fun s i c _ => ?_) (fun s i c stage x hE hcall _ hG => ?_)
    (fun w i c => roundInOrder_nil rfl) (fun w n hw => ?_) (Overlap.each_idle fun id => ?_)
  · cases c <;> exact roundInOrder_nil rfl
  · have hmove := pushMove cfg s.world x stage
    have hround := hE.2 i c _ hcall
    have hclaims : stage = .round .claim →
        ∀ r ∈ s.world.picked cfg.batchSize x.round.skipped,
          (∀ j c' st, s.calls j = some (c', st) → ∀ th ∈ threads st, th.job.id ≠ r.id) ∧
            s.world.processed r.id ≤ r.attempts := by
      rintro rfl
      exact hG.1 c hcall
    refine ⟨hmove.processed hround hE.1, hmove.self hround fun hstage r hr =>
      (hclaims hstage r hr).2, fun j c' st' hji hj hother => ⟨hother.nodup, fun th hth => ?_⟩⟩
    refine hmove.others (fun hstage r hr => (hclaims hstage r hr).1 j c' st' hj th hth)
      (fun own hown => ?_) (hother.each th hth)
    exact hG.2 i j c _ c' st' (Ne.symm hji) hcall hj own hown th hth
  · exact ⟨hw, fun i c st hst => ⟨hst.nodup, fun th hth => (hst.each th hth).congr rfl rfl rfl⟩⟩
  · rw [hw id]
    exact Nat.zero_le _

theorem JobsKept.refl : JobsKept w w := fun _ r hr => ⟨r, hr, fun _ => ⟨rfl, rfl⟩⟩

theorem JobsKept.trans {w' w'' : PushWorld} (h : JobsKept w w') (h' : JobsKept w' w'') :
    JobsKept w w'' := by
  intro id r hr
  obtain ⟨r', hr', hkeep⟩ := h id r hr
  obtain ⟨r'', hr'', hkeep'⟩ := h' id r' hr'
  refine ⟨r'', hr'', fun hterminal => ?_⟩
  obtain ⟨rfl, hprocessed⟩ := hkeep hterminal
  obtain ⟨rfl, hprocessed'⟩ := hkeep' hterminal
  exact ⟨rfl, hprocessed'.trans hprocessed⟩

theorem kept_step
    (hE : Each (fun w => ∀ id, w.processed id ≤ cfg.maxAttempts)
      (fun w _ _ st => RoundInOrder w st) s)
    (h : Step (pushQueue cfg) (ReportedFirst cfg) s s') : JobsKept s.world s'.world := by
  cases h with
  | start | drop => exact .refl
  | run hcall | lose hcall => exact (pushMove cfg s.world _ _).kept (hE.2 _ _ _ hcall)
  | tick n => exact fun id r hr => ⟨r, hr, fun _ => ⟨rfl, rfl⟩⟩

/-- **Jobs and their leases**, whatever rounds overlap and crash, as long as no job is claimed that
a round is still at, or that was worked on more often than its attempts say. -/
theorem jobs_hold (hw : ∀ id, w.processed id = 0)
    (h : Reach (pushQueue cfg) (ReportedFirst cfg) (.idle w) s) :
    JobsHold cfg s ∧ ∀ s', Reach (pushQueue cfg) (ReportedFirst cfg) s s' →
      JobsKept s.world s'.world := by
  refine ⟨?_, fun s' hs' => ?_⟩
  · have hE := rounds_each hw h
    refine ⟨hE.1, fun i c st hi th hth => ((hE.2 i c st hi).each th hth).holder, fun r _ => ?_⟩
    by_cases hterminal : r.isTerminal = true
    · exact .inl hterminal
    · refine .inr ⟨r.nextRunAt, ?_⟩
      unfold PushJobRecord.isTerminal at hterminal
      unfold PushJobRecord.isDue
      cases hstatus : r.status <;> simp_all
  · induction hs' with
    | refl => exact .refl
    | tail hr hlast ih => exact ih.trans (kept_step (rounds_each hw (h.trans hr)) hlast)

end

/-! ## A lease that is over -/

/-- Jobs are tried twice, with a lease of five seconds. -/
def sampleConfig : PushDbQueueConfig := ⟨true, 2, 10, 5, 2, 1, 60⟩

def noJobs : PushWorld := ⟨100, .empty, 0, fun _ => 0, fun _ => 0⟩

/-- A statement that goes on with the first job, and what has come of it. -/
def go (outcome : PushDbJobOutcome) : PushChoice := ⟨500, ⟨[], 0, outcome, false⟩⟩

/-- A worker claims the job and is at it for longer than its lease; another one claims it, is done
with it, and reports. -/
def slowWorker : List Act :=
  [.start 0 (.enqueue "message" "{}" 100), .run 0 (go .done), .start 1 .round, .run 1 (go .done),
    .run 1 (go .done), .tick 6, .start 2 .round] ++ replicate 4 (.run 2 (go .done))

/-- And then the first one reports. -/
def lateReport : List Act := replicate 2 (.run 1 (go (.retry "timeout")))

theorem done_job_retried :
    ¬ ∀ (cfg : PushDbQueueConfig) (w : PushWorld) (s s' : State), (∀ id, w.processed id = 0) →
      Reach (pushQueue cfg) (fun _ _ _ => True) (.idle w) s →
        Reach (pushQueue cfg) (fun _ _ _ => True) s s' → JobsKept s.world s'.world := by
  intro h
  have hrun : ((Overlap.perform (pushQueue sampleConfig) (fun _ _ _ => true) slowWorker
      (.idle noJobs)).bind fun s =>
        (Overlap.perform (pushQueue sampleConfig) (fun _ _ _ => true) lateReport s).map fun s' =>
          (s, s')).map (fun r => ((r.1.world.jobs.get 500).map (·.status),
            (r.2.world.jobs.get 500).map (·.status))) = some (some .done, some .retry) := by
    decide +kernel
  obtain ⟨⟨s, s'⟩, hstates, hstatus⟩ := Option.map_eq_some_iff.1 hrun
  obtain ⟨s₁, hs, hrest⟩ := Option.bind_eq_some_iff.1 hstates
  obtain ⟨s₂, hs', heq⟩ := Option.map_eq_some_iff.1 hrest
  simp only [Prod.mk.injEq] at heq hstatus
  obtain ⟨rfl, rfl⟩ := heq
  obtain ⟨hbefore, hafter⟩ := hstatus
  obtain ⟨r, hr, hdone⟩ := Option.map_eq_some_iff.1 hbefore
  have hkept := h sampleConfig noJobs s₁ s₂ (fun _ => rfl)
    (Reach.of_perform (fun _ _ _ _ => trivial) hs) (Reach.of_perform (fun _ _ _ _ => trivial) hs')
  obtain ⟨r', hr', hkeep⟩ := hkept 500 r hr
  obtain ⟨rfl, -⟩ := hkeep (by rw [PushJobRecord.isTerminal, hdone]; rfl)
  rw [hr', Option.map_some, hdone] at hafter
  cases hafter

/-- The condition, decided of the first calls. -/
def reportedFirst (cfg : PushDbQueueConfig) (n : ℕ) (s : State) (i : ℕ) (x : PushChoice) : Bool :=
  match s.calls i with
  | some (_, .running (.round .claim)) =>
    (s.world.picked cfg.batchSize x.round.skipped).all fun r =>
      s.allBelow n (fun _ _ st => (threads st).all fun th => th.job.id ≠ r.id) &&
        s.world.processed r.id ≤ r.attempts
  | _ => true

theorem reportedFirst_of_check {cfg : PushDbQueueConfig} {n : ℕ} {s : State} {i : ℕ}
    {x : PushChoice} (hs : s.Below n) (h : reportedFirst cfg n s i x = true) :
    ReportedFirst cfg s i x := by
  intro c hi r hr
  simp only [reportedFirst, hi] at h
  obtain ⟨hthreads, hprocessed⟩ := Bool.and_eq_true_iff.1 (all_eq_true.1 h r hr)
  refine ⟨fun j c' st hj th hth => ?_, of_decide_eq_true hprocessed⟩
  exact of_decide_eq_true (all_eq_true.1 (hs.of_all hthreads hj) th hth)

/-- A job fails at first, and is done when it is due again, by a worker that crashes right after its
report. -/
def triedAgain : List Act :=
  [.start 0 (.enqueue "message" "{}" 100), .run 0 (go .done), .start 1 .round] ++
    replicate 4 (.run 1 (go (.retry "timeout"))) ++ [.tick 1, .start 2 .round] ++
      replicate 3 (.run 2 (go .done)) ++ [.lose 2 (go .done)]

theorem jobs_hold_sample :
    ∃ s, Overlap.perform (pushQueue sampleConfig) (reportedFirst sampleConfig 3) triedAgain
        (.idle noJobs) = some s ∧
      (s.world.jobs.rows.map fun r => (r.id, r.status, r.attempts)) = [(500, .done, 1)] ∧
      JobsHold sampleConfig s := by
  have hrun : (Overlap.perform (pushQueue sampleConfig) (reportedFirst sampleConfig 3) triedAgain
      (.idle noJobs)).map (fun s => s.world.jobs.rows.map fun r => (r.id, r.status, r.attempts)) =
        some [(500, .done, 1)] := by
    decide +kernel
  obtain ⟨s, hs, hrows⟩ := Option.map_eq_some_iff.1 hrun
  refine ⟨s, hs, hrows, (jobs_hold (w := noJobs) (fun _ => rfl) ?_).1⟩
  exact Reach.of_perform_below (fun s i x hs h => reportedFirst_of_check hs h) (by decide)
    (fun j _ => rfl) hs

end PushQueue

end RedcodeIm
