import Mathlib.Algebra.Group.Nat.Defs
import Mathlib.Data.List.Sort
import RedcodeIm.Groups.Administration

/-!
# The queue of push jobs

`push_job_store.rs` and `run_push_db_queue_once` of `push.rs`: workers claim the jobs that are due,
with a lease, work on several of them at a time, and report what has come of each.

* `PushJobRecord`, `PushWorld` — the table, and who has claimed and worked on what.
* `PushWorld.claimDueJobs`, `PushWorld.mark` — the statements of the store.
* `JobThread`, `runPushDbQueueOnce` — a worker's round, job by job.
* `pushQueue` — the system of rounds, and of jobs that are enqueued.
-/

namespace RedcodeIm

open Overlap (Next System)

/-! ## The table -/

/-- `STATUS_PENDING` … `STATUS_RETRY`. -/
inductive PushJobStatus where
  | pending
  | done
  | failed
  | retry
  deriving DecidableEq

/-- A row of `push_job_queue`. -/
structure PushJobRecord where
  id : Uuid
  jobType : String
  payload : String
  status : PushJobStatus
  attempts : ℕ
  nextRunAt : Timestamp
  lastError : Option String
  createdAt : Timestamp
  updatedAt : Timestamp
  deriving DecidableEq

/-- The job is done, or has failed for good. -/
def PushJobRecord.isTerminal (r : PushJobRecord) : Bool := r.status = .done || r.status = .failed

/-- The job is to be run. -/
def PushJobRecord.isDue (now : Timestamp) (r : PushJobRecord) : Bool :=
  (r.status = .pending || r.status = .retry) && r.nextRunAt ≤ now

/-- `PushDbQueueConfig`. -/
structure PushDbQueueConfig where
  enabled : Bool
  jobConcurrency : ℕ
  batchSize : ℕ
  leaseSeconds : ℕ
  maxAttempts : ℕ
  retryBaseSeconds : ℕ
  retryMaxSeconds : ℕ
  deriving DecidableEq

/-- The table; how many claims there were, the last of them that has taken a job, and how often a
job has been worked on. -/
structure PushWorld where
  now : Timestamp
  jobs : Table PushJobRecord.id
  claims : ℕ
  claimedBy : Uuid → ℕ
  processed : Uuid → ℕ

/-- `PushDbJobOutcome`. -/
inductive PushDbJobOutcome where
  | done
  | retry (error : String)
  | failed (error : String)
  deriving DecidableEq

/-- The reports of a worker: `mark_done`, `mark_retry` and `mark_failed`. -/
inductive JobReport where
  | done
  | retry (error : String) (nextRunAt : Timestamp)
  | failed (error : String)
  deriving DecidableEq

/-- What a report makes of a row. -/
def JobReport.row (now : Timestamp) (r : PushJobRecord) : JobReport → PushJobRecord
  | .done => { r with status := .done, lastError := none, updatedAt := now }
  | .retry error nextRunAt =>
    { r with
      status := .retry
      attempts := r.attempts + 1
      lastError := some error
      nextRunAt := nextRunAt
      updatedAt := now }
  | .failed error =>
    { r with
      status := .failed
      attempts := r.attempts + 1
      lastError := some error
      updatedAt := now }

namespace PushWorld

/-- The jobs that a claim picks: those that are due, the earliest first, but for the rows that it
skips because they are locked. -/
def picked (w : PushWorld) (limit : ℕ) (skipped : List Uuid) : List PushJobRecord :=
  ((w.jobs.rows.filter fun r => r.isDue w.now && r.id ∉ skipped).insertionSort fun r s =>
    r.nextRunAt < s.nextRunAt ∨ (r.nextRunAt = s.nextRunAt ∧ r.createdAt ≤ s.createdAt)).take limit

/-- The row of a job that is claimed. -/
def leased (w : PushWorld) (leaseSeconds : ℕ) (r : PushJobRecord) : PushJobRecord :=
  { r with nextRunAt := w.now + leaseSeconds, updatedAt := w.now }

/-- One job is claimed. -/
def claim (w : PushWorld) (leaseSeconds : ℕ) (r : PushJobRecord) : PushWorld :=
  { w with
    jobs := w.jobs.put (w.leased leaseSeconds r)
    claimedBy := Function.update w.claimedBy r.id w.claims }

/-- `claim_due_jobs`. -/
def claimDueJobs (w : PushWorld) (limit leaseSeconds : ℕ) (skipped : List Uuid) :
    PushWorld × List PushJobRecord :=
  let rows := w.picked limit skipped
  (rows.foldl (fun w r => w.claim leaseSeconds r) { w with claims := w.claims + 1 },
    rows.map (w.leased leaseSeconds))

/-- `mark_done`, `mark_retry` and `mark_failed`, which the database may refuse. -/
def mark (w : PushWorld) (jobId : Uuid) (report : JobReport) (refused : Bool) : PushWorld :=
  match w.jobs.get jobId with
  | some r =>
    if refused || !storable (report.row w.now r).lastError then w
    else { w with jobs := w.jobs.put (report.row w.now r) }
  | none => w

/-- A worker sets to work on a job. -/
def process (w : PushWorld) (jobId : Uuid) : PushWorld :=
  { w with processed := Function.update w.processed jobId (w.processed jobId + 1) }

/-- `enqueue`. -/
def enqueue (w : PushWorld) (id : Uuid) (jobType payload : String) (nextRunAt : Timestamp) :
    Except AppError (PushWorld × Uuid) :=
  if storable (some jobType) && storable (some payload) && (w.jobs.get id).isNone then
    let r := ⟨id, jobType, payload, .pending, 0, nextRunAt, none, w.now, w.now⟩
    .ok ({ w with jobs := w.jobs.insert r }, id)
  else .error .databaseError

end PushWorld

/-! ## A round -/

/-- `u64::saturating_mul`. -/
def saturatingMul (a b : ℕ) : ℕ := min (a * b) (2 ^ 64 - 1)

/-- `push_db_next_retry_at`. -/
def pushDbNextRetryAt (cfg : PushDbQueueConfig) (now : Timestamp) (attempts : ℕ) : Timestamp :=
  now + min (saturatingMul cfg.retryBaseSeconds (min (2 ^ min attempts 16) (2 ^ 64 - 1)))
    cfg.retryMaxSeconds

/-- The report on what has come of a job. -/
def PushDbJobOutcome.report (cfg : PushDbQueueConfig) (now : Timestamp) (attempts : ℕ) :
    PushDbJobOutcome → JobReport
  | .done => .done
  | .retry error => .retry error (pushDbNextRetryAt cfg now attempts)
  | .failed error => .failed error

/-- Where a round stands with one of its jobs. -/
inductive JobThread where
  | waiting (job : PushJobRecord)
  | processing (job : PushJobRecord)
  | reporting (job : PushJobRecord) (report : JobReport)
  deriving DecidableEq

def JobThread.job : JobThread → PushJobRecord
  | .waiting job => job
  | .processing job => job
  | .reporting job _ => job

/-- The round has begun with the job. -/
def JobThread.isBegun : JobThread → Bool
  | .waiting _ => false
  | _ => true

inductive RoundStage where
  | claim
  | batch (claim : ℕ) (threads : List JobThread)
  deriving DecidableEq

/-- What a round meets by chance: the rows that a claim skips, the job that gets further, what comes
of it, and whether its report is refused. -/
structure RoundChoice where
  skipped : List Uuid
  thread : ℕ
  outcome : PushDbJobOutcome
  refused : Bool
  deriving DecidableEq

/-- The threads of a batch after one of them: the round is over when there are none. -/
def batchOf (claim : ℕ) (threads : List JobThread) : Next RoundStage (Except AppError Unit) :=
  if threads = [] then .done (.ok ()) else .goto (.batch claim threads)

/-- A job gets further. -/
def JobThread.advance (cfg : PushDbQueueConfig) (w : PushWorld) (x : RoundChoice) :
    JobThread → PushWorld × Option JobThread
  | .waiting job =>
    if cfg.maxAttempts ≤ job.attempts then
      (w, some (.reporting job (.failed "超过最大重试次数，已停止处理")))
    else (w.process job.id, some (.processing job))
  | .processing job => (w, some (.reporting job (x.outcome.report cfg w.now job.attempts)))
  | .reporting job report => (w.mark job.id report x.refused, none)

/-- `run_push_db_queue_once`. -/
def runPushDbQueueOnce (cfg : PushDbQueueConfig) (w : PushWorld) (x : RoundChoice) :
    RoundStage → PushWorld × Next RoundStage (Except AppError Unit)
  | .claim =>
    if cfg.enabled then
      let (w', jobs) := w.claimDueJobs cfg.batchSize cfg.leaseSeconds x.skipped
      (w', batchOf w'.claims (jobs.map .waiting))
    else (w, .done (.ok ()))
  | .batch claim threads =>
    match threads[x.thread]? with
    | none => (w, batchOf claim threads)
    | some th =>
      let (w', th') := th.advance cfg w x
      (w', batchOf claim (threads.take x.thread ++ th'.toList ++ threads.drop (x.thread + 1)))

/-- A job that waits is begun when fewer than `job_concurrency` are at work. -/
def RoundStage.mayAdvance (cfg : PushDbQueueConfig) (x : RoundChoice) : RoundStage → Bool
  | .claim => true
  | .batch _ threads =>
    (threads[x.thread]?).any fun th => th.isBegun || threads.countP (·.isBegun) < cfg.jobConcurrency

/-! ## The system -/

inductive PushCall where
  | enqueue (jobType payload : String) (nextRunAt : Timestamp)
  | round
  deriving DecidableEq

inductive PushStage where
  | enqueue (jobType payload : String) (nextRunAt : Timestamp)
  | round (stage : RoundStage)
  deriving DecidableEq

/-- What a statement draws: the id of a new job, and what a round meets. -/
structure PushChoice where
  id : Uuid
  round : RoundChoice
  deriving DecidableEq

def PushCall.start : PushCall → PushStage
  | .enqueue jobType payload nextRunAt => .enqueue jobType payload nextRunAt
  | .round => .round .claim

/-- The statement at a stage. -/
def pushStatement (cfg : PushDbQueueConfig) (w : PushWorld) (x : PushChoice) :
    PushStage → PushWorld × Next PushStage (Except AppError Unit)
  | .enqueue jobType payload nextRunAt =>
    match w.enqueue x.id jobType payload nextRunAt with
    | .ok (w', _) => (w', .done (.ok ()))
    | .error e => (w, .done (.error e))
  | .round stage =>
    let out := runPushDbQueueOnce cfg w x.round stage
    (out.1, out.2.map .round)

/-- Jobs that are enqueued, and rounds of any number of workers, while seconds go by. -/
def pushQueue (cfg : PushDbQueueConfig) :
    System PushWorld PushCall PushStage (Except AppError Unit) PushChoice ℕ where
  start := PushCall.start
  stmt w _ stage x := pushStatement cfg w x stage
  possible _ _ stage x :=
    match stage with
    | .enqueue .. => true
    | .round stage => stage.mayAdvance cfg x.round
  tick w seconds := { w with now := w.now + seconds }

end RedcodeIm
