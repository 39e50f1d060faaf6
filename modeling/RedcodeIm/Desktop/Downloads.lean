import RedcodeIm.Desktop.HttpClient

/-!
# Downloads of the desktop app

`download_file_with_progress` in `http/client.rs` and `download_update` in `updater.rs`.  Both fill
the target itself, chunk by chunk: what has been put down when something fails stays there.  A write
of Tokio returns before it is done, and its failure is reported by the next one, or by `flush`.

* `TokioFile` — a file that is being written.
* `downloadFile`, `downloadUpdate` — the two functions, and what they leave at the target.
* `AllOrNothing` — what is expected of them.
* `allOrNothing_iff` — when it holds, for either of them.
* `truncated_file` — the target holds half of the bytes.

Progress, the limit of the speed and logging are left out.
-/

namespace RedcodeIm.Desktop

abbrev Bytes : Type := List UInt8

/-! ## A file of Tokio -/

/-- A file: what has been put down, the write that is not done yet, and how many are done.  A chunk
of a response fits the buffer of one write. -/
structure TokioFile where
  written : Bytes
  pending : Option Bytes
  count : ℕ
  deriving DecidableEq

open TokioFile

namespace TokioFile

/-- `File::create`. -/
def create : TokioFile := ⟨[], none, 0⟩

variable (room : ℕ → ℕ) (f : TokioFile)

/-- The pending write is done, as far as there is room for its bytes; whether it succeeds. -/
def complete : TokioFile × Bool :=
  match f.pending with
  | none => (f, true)
  | some bytes =>
    (⟨f.written ++ bytes.take (room f.count), none, f.count + 1⟩,
      decide (bytes.length ≤ room f.count))

/-- `write_all`. -/
def writeAll (bytes : Bytes) : TokioFile × Bool :=
  if bytes = [] then (f, true)
  else
    match f.complete room with
    | (f, true) => ({ f with pending := some bytes }, true)
    | (f, false) => (f, false)

/-- What the file holds once the pending write is done. -/
def content : Bytes := (f.complete room).1.written

end TokioFile

/-! ## The functions -/

/-- A response: its chunks, and the error that ends them, if there is one. -/
structure StreamedReply where
  status : ℕ
  text : Except ReqwestError String
  chunks : List Bytes
  failure : Option ReqwestError

def StreamedReply.succeeded (reply : StreamedReply) : Bool :=
  decide (200 ≤ reply.status ∧ reply.status < 300)

/-- What a download meets: the answer to its request, and the disk.  `room n` is the number of bytes
for which the `n`-th write finds room. -/
structure DownloadChance where
  reply : Except ReqwestError StreamedReply
  /-- `create_dir_all`, and what it fails with. -/
  directory : Option String
  /-- `File::create`. -/
  created : Option String
  room : ℕ → ℕ

/-- What a download returns, and what the target holds. -/
structure Download (Error Result : Type) where
  result : Except Error Result
  file : Option Bytes

/-- The chunks of a response are written. -/
def writeChunks (room : ℕ → ℕ) (failure : Option ReqwestError) :
    TokioFile → List Bytes → TokioFile × Option HttpError
  | f, [] => (f, failure.map .reqwest)
  | f, chunk :: chunks =>
    match f.writeAll room chunk with
    | (f, true) => writeChunks room failure f chunks
    | (f, false) => (f, some (.io "write"))

/-- `download_file_with_progress`. -/
def downloadFile (N : Network) (inner : HttpClientInner) (urlOrPath savePath : String)
    (before : Option Bytes) (x : DownloadChance) :
    Download HttpError HttpRequestOutcome × HttpClientInner :=
  if inner.initialized = false then (⟨.error .notInitialized, before⟩, inner)
  else
    let isExternal :=
      "http://".toList.isPrefixOf urlOrPath.toList || "https://".toList.isPrefixOf urlOrPath.toList
    match if isExternal then .ok urlOrPath
      else buildUrl N inner.config.baseUrl urlOrPath none with
    | .error error => (⟨.error error, before⟩, inner)
    | .ok _ =>
      match x.reply with
      | .error error => (⟨.error (.reqwest error), before⟩, inner.recordError (.reqwest error))
      | .ok reply =>
        if reply.succeeded then
          match x.directory, x.created with
          | some message, _ => (⟨.error (.io message), before⟩, inner)
          | none, some message => (⟨.error (.io message), before⟩, inner)
          | none, none =>
            match writeChunks x.room reply.failure .create reply.chunks with
            | (f, some error) => (⟨.error error, some (f.content x.room)⟩, inner)
            | (f, none) =>
              let outcome : HttpRequestOutcome :=
                .wrapped true reply.status "Download finished"
                  (.object [("path", .string savePath)])
              (⟨.ok outcome, some (f.content x.room)⟩, inner.recordOutcome outcome)
        else
          let outcome := HttpRequestOutcome.fromHttp N reply.status (reply.text.toOption.getD "")
          (⟨.ok outcome, before⟩, inner.recordOutcome outcome)

/-- `download_update`.  `directory` stands for all that is made before the request is sent. -/
def downloadUpdate (savePath : String) (before : Option Bytes) (x : DownloadChance) :
    Download String String :=
  match x.directory with
  | some message => ⟨.error message, before⟩
  | none =>
    match x.reply with
    | .error error => ⟨.error error.text, before⟩
    | .ok reply =>
      if reply.succeeded then
        match x.created with
        | some message => ⟨.error message, before⟩
        | none =>
          match writeChunks x.room reply.failure .create reply.chunks with
          | (f, some error) => ⟨.error error.text, some (f.content x.room)⟩
          | (f, none) =>
            -- `flush`
            match f.complete x.room with
            | (f, true) => ⟨.ok savePath, some (f.content x.room)⟩
            | (f, false) => ⟨.error "write", some (f.content x.room)⟩
      else ⟨.error s!"下载失败: {reply.status}", before⟩

/-! ## What is expected -/

/-- A download that fails leaves the file as it was, and one that succeeds leaves in it what was
received; an answer with the status of an error changes nothing either. -/
def AllOrNothing {Error Result : Type} (before : Option Bytes) (x : DownloadChance)
    (d : Download Error Result) : Prop :=
  match d.result, x.reply with
  | .ok _, .ok reply => d.file = if reply.succeeded then some reply.chunks.flatten else before
  | _, _ => d.file = before

/-- Every write puts down all of its bytes. -/
def fits (room : ℕ → ℕ) : ℕ → List Bytes → Bool
  | _, [] => true
  | n, chunk :: chunks =>
    if chunk = [] then fits room n chunks
    else decide (chunk.length ≤ room n) && fits room (n + 1) chunks

/-- What the disk takes of the chunks, up to the first write that fails. -/
def taken (room : ℕ → ℕ) : ℕ → List Bytes → Bytes
  | _, [] => []
  | n, chunk :: chunks =>
    if chunk = [] then taken room n chunks
    else if chunk.length ≤ room n then chunk ++ taken room (n + 1) chunks
    else chunk.take (room n)

/-- A write fails and another one follows, which reports it. -/
def noticed (room : ℕ → ℕ) : ℕ → List Bytes → Bool
  | _, [] => false
  | n, chunk :: chunks =>
    if chunk = [] then noticed room n chunks
    else if chunk.length ≤ room n then noticed room (n + 1) chunks
    else chunks.any fun later => later ≠ []

/-- The chunks are written. -/
def Written (initialized : Bool) (x : DownloadChance) (reply : StreamedReply) : Prop :=
  initialized = true ∧ x.reply = .ok reply ∧ reply.succeeded = true ∧ x.directory = none ∧
    x.created = none

/-- Whenever the target is filled, either the response comes to its end without an error and every
write succeeds, or it fails, which is noticed, and what was put down is just what the file held. -/
def Undamaged (initialized flushed : Bool) (before : Option Bytes) (x : DownloadChance) : Prop :=
  ∀ reply, Written initialized x reply →
    (reply.failure = none ∧ fits x.room 0 reply.chunks = true) ∨
      ((reply.failure ≠ none ∨ noticed x.room 0 reply.chunks = true ∨
          (flushed = true ∧ fits x.room 0 reply.chunks = false)) ∧
        before = some (taken x.room 0 reply.chunks))

/-! ## What is put down -/

section

variable {room : ℕ → ℕ} {failure : Option ReqwestError}

/-- A failure that is noticed is one. -/
theorem not_fits_of_noticed {n : ℕ} {chunks : List Bytes} (h : noticed room n chunks = true) :
    fits room n chunks = false := by
  induction chunks generalizing n with
  | nil => cases h
  | cons chunk chunks ih =>
    simp only [noticed] at h
    simp only [fits]
    by_cases hempty : chunk = []
    · rw [if_pos hempty] at h ⊢
      exact ih h
    · rw [if_neg hempty] at h ⊢
      by_cases hroom : chunk.length ≤ room n
      · rw [if_pos hroom] at h
        rw [ih h, Bool.and_false]
      · rw [decide_eq_false hroom, Bool.false_and]

/-- The disk takes all that is received exactly if every write succeeds. -/
theorem taken_eq_flatten_iff (n : ℕ) (chunks : List Bytes) :
    taken room n chunks = chunks.flatten ↔ fits room n chunks = true := by
  induction chunks generalizing n with
  | nil => exact ⟨fun _ => rfl, fun _ => rfl⟩
  | cons chunk chunks ih =>
    simp only [taken, fits, List.flatten_cons]
    by_cases hempty : chunk = []
    · rw [if_pos hempty, if_pos hempty, hempty, List.nil_append]
      exact ih n
    · rw [if_neg hempty, if_neg hempty]
      by_cases hroom : chunk.length ≤ room n
      · rw [if_pos hroom, decide_eq_true hroom, Bool.true_and, List.append_cancel_left_eq]
        exact ih (n + 1)
      · rw [if_neg hroom, decide_eq_false hroom, Bool.false_and]
        constructor
        · intro heq
          have hlength := congrArg List.length heq
          rw [List.length_take, List.length_append] at hlength
          omega
        · intro hfalse
          cases hfalse

/-- What comes of the chunks while one write is pending. -/
theorem writeChunks_pending {chunk : Bytes} (hchunk : chunk ≠ []) (w : Bytes) (n : ℕ)
    (chunks : List Bytes) :
    (writeChunks room failure ⟨w, some chunk, n⟩ chunks).1.content room =
        w ++ taken room n (chunk :: chunks) ∧
      ((writeChunks room failure ⟨w, some chunk, n⟩ chunks).2 = none ↔
        failure = none ∧ noticed room n (chunk :: chunks) = false) ∧
      ((writeChunks room failure ⟨w, some chunk, n⟩ chunks).2 = none →
        ((writeChunks room failure ⟨w, some chunk, n⟩ chunks).1.complete room).2 =
          fits room n (chunk :: chunks)) := by
  induction chunks generalizing chunk w n with
  | nil =>
    simp only [writeChunks, content, complete, taken, noticed, fits,
      if_neg hchunk, Bool.and_true]
    refine ⟨?_, ?_, fun _ => rfl⟩
    · split
      · rename_i hroom
        rw [List.take_of_length_le hroom, List.append_nil]
      · rfl
    · simp
  | cons next chunks ih =>
    by_cases hnext : next = []
    · -- nothing is written for an empty chunk
      subst hnext
      have hskip : writeChunks room failure ⟨w, some chunk, n⟩ ([] :: chunks) =
          writeChunks room failure ⟨w, some chunk, n⟩ chunks := by
        simp [writeChunks, writeAll]
      have htaken : taken room n (chunk :: [] :: chunks) = taken room n (chunk :: chunks) := by
        simp [taken]
      have hnoticed :
          noticed room n (chunk :: [] :: chunks) = noticed room n (chunk :: chunks) := by
        simp [noticed]
      have hfits : fits room n (chunk :: [] :: chunks) = fits room n (chunk :: chunks) := by
        simp [fits]
      exact ih hchunk w n
    · by_cases hroom : chunk.length ≤ room n
      · have hgo : writeChunks room failure ⟨w, some chunk, n⟩ (next :: chunks) =
            writeChunks room failure ⟨w ++ chunk, some next, n + 1⟩ chunks := by
          simp [writeChunks, writeAll, complete, hnext, hroom,
            List.take_of_length_le hroom]
        have htaken : taken room n (chunk :: next :: chunks) =
            chunk ++ taken room (n + 1) (next :: chunks) := by
          rw [taken, if_neg hchunk, if_pos hroom]
        have hnoticed : noticed room n (chunk :: next :: chunks) =
            noticed room (n + 1) (next :: chunks) := by
          rw [noticed, if_neg hchunk, if_pos hroom]
        have hfits : fits room n (chunk :: next :: chunks) =
            fits room (n + 1) (next :: chunks) := by
          rw [fits, if_neg hchunk, decide_eq_true hroom, Bool.true_and]
        rw [hgo, htaken, hnoticed, hfits, ← List.append_assoc]
        exact ih hnext (w ++ chunk) (n + 1)
      · -- the next write reports that this one has failed
        have hstop : writeChunks room failure ⟨w, some chunk, n⟩ (next :: chunks) =
            (⟨w ++ chunk.take (room n), none, n + 1⟩, some (.io "write")) := by
          simp [writeChunks, writeAll, complete, hnext, hroom]
        rw [hstop]
        refine ⟨?_, ?_, fun hfalse => by cases hfalse⟩
        · simp [content, complete, taken, hchunk, hroom]
        · simp [noticed, hchunk, hroom, hnext]

/-- What comes of the chunks of a response. -/
theorem writeChunks_create (room : ℕ → ℕ) (failure : Option ReqwestError) (chunks : List Bytes) :
    (writeChunks room failure .create chunks).1.content room = taken room 0 chunks ∧
      ((writeChunks room failure .create chunks).2 = none ↔
        failure = none ∧ noticed room 0 chunks = false) ∧
      ((writeChunks room failure .create chunks).2 = none →
        ((writeChunks room failure .create chunks).1.complete room).2 = fits room 0 chunks) := by
  induction chunks with
  | nil =>
    refine ⟨rfl, ?_, fun _ => rfl⟩
    simp [writeChunks, noticed]
  | cons chunk chunks ih =>
    by_cases hchunk : chunk = []
    · subst hchunk
      have hskip : writeChunks room failure .create ([] :: chunks) =
          writeChunks room failure .create chunks := by
        simp [writeChunks, writeAll]
      exact ih
    · have hgo : writeChunks room failure .create (chunk :: chunks) =
          writeChunks room failure ⟨[], some chunk, 0⟩ chunks := by
        simp [writeChunks, writeAll, complete, create, hchunk]
      rw [hgo]
      exact writeChunks_pending hchunk [] 0 chunks

end

/-! ## When it holds -/

section

variable {before : Option Bytes} {x : DownloadChance} {reply : StreamedReply}

variable {initialized : Bool}

theorem written_iff (h : Written initialized x reply) (flushed : Bool) :
    Undamaged initialized flushed before x ↔
      (reply.failure = none ∧ fits x.room 0 reply.chunks = true) ∨
        ((reply.failure ≠ none ∨ noticed x.room 0 reply.chunks = true ∨
            (flushed = true ∧ fits x.room 0 reply.chunks = false)) ∧
          before = some (taken x.room 0 reply.chunks)) := by
  constructor
  · exact fun hall => hall reply h
  · intro hone reply' h'
    cases h.2.1.symm.trans h'.2.1
    exact hone

/-- Where an error is reported, the file must have held what was put down. -/
theorem undamaged_of_error (h : Written initialized x reply) (flushed : Bool)
    (herror : (writeChunks x.room reply.failure .create reply.chunks).2 ≠ none) :
    Undamaged initialized flushed before x ↔ some (taken x.room 0 reply.chunks) = before := by
  obtain ⟨-, hnone, -⟩ := writeChunks_create x.room reply.failure reply.chunks
  rw [written_iff h, eq_comm (a := some _)]
  have hfailed : reply.failure ≠ none ∨ noticed x.room 0 reply.chunks = true := by
    by_contra hnot
    rw [not_or, not_not, Bool.not_eq_true] at hnot
    exact herror (hnone.2 hnot)
  constructor
  · rintro (⟨hfailure, hfits⟩ | ⟨-, hbefore⟩)
    · rcases hfailed with hne | hnoticed
      · exact absurd hfailure hne
      · rw [not_fits_of_noticed hnoticed] at hfits
        cases hfits
    · exact hbefore
  · intro hbefore
    refine .inr ⟨?_, hbefore⟩
    rcases hfailed with hne | hnoticed
    · exact .inl hne
    · exact .inr (.inl hnoticed)

theorem undamaged_of_not_written (flushed : Bool) (h : ∀ reply, ¬Written initialized x reply) :
    Undamaged initialized flushed before x :=
  fun reply hwritten => absurd hwritten (h reply)

/-- A call that returns before anything is written. -/
theorem untouched_iff {Error Result : Type} {d : Download Error Result} (flushed : Bool)
    (hfile : d.file = before)
    (hreply : ∀ reply result, d.result = .ok result → x.reply = .ok reply →
      reply.succeeded = false) (h : ∀ reply, ¬Written initialized x reply) :
    AllOrNothing before x d ↔ Undamaged initialized flushed before x := by
  refine ⟨fun _ => undamaged_of_not_written flushed h, fun _ => ?_⟩
  unfold AllOrNothing
  split
  · rename_i result reply hresult hx
    rw [hreply reply result hresult hx, hfile]
    rfl
  · exact hfile

theorem untouched_of_error {Error Result : Type} {d : Download Error Result} {error : Error}
    (flushed : Bool) (hfile : d.file = before) (herror : d.result = .error error)
    (h : ∀ reply, ¬Written initialized x reply) :
    AllOrNothing before x d ↔ Undamaged initialized flushed before x := by
  refine untouched_iff flushed hfile (fun reply result hok => ?_) h
  rw [herror] at hok
  cases hok

theorem allOrNothing_downloadFile (N : Network) (inner : HttpClientInner)
    (urlOrPath savePath : String) (before : Option Bytes) (x : DownloadChance) :
    AllOrNothing before x (downloadFile N inner urlOrPath savePath before x).1 ↔
      Undamaged inner.initialized false before x := by
  unfold downloadFile
  split
  · rename_i hinit
    refine untouched_of_error _ rfl rfl fun reply hw => ?_
    rw [hinit] at hw
    cases hw.1
  · rename_i hinit
    rw [Bool.not_eq_false] at hinit
    dsimp only
    split
    · rename_i error herror
      split at herror
      · cases herror
      · cases herror
    · split
      · rename_i error herror
        refine untouched_of_error _ rfl rfl fun reply hw => ?_
        cases herror.symm.trans hw.2.1
      · rename_i reply hreply
        split
        · rename_i hsucceeded
          split
          · rename_i message hdirectory
            refine untouched_of_error _ rfl rfl fun reply hw => ?_
            cases hdirectory.symm.trans hw.2.2.2.1
          · rename_i message hdirectory hcreated
            refine untouched_of_error _ rfl rfl fun reply hw => ?_
            cases hcreated.symm.trans hw.2.2.2.2
          · rename_i hdirectory hcreated
            have hwritten : Written inner.initialized x reply :=
              ⟨hinit, hreply, hsucceeded, hdirectory, hcreated⟩
            obtain ⟨hcontent, hnone, hcomplete⟩ :=
              writeChunks_create x.room reply.failure reply.chunks
            split
            · rename_i f error heq
              rw [heq] at hcontent
              rw [undamaged_of_error hwritten false (by rw [heq]; simp)]
              show some (f.content x.room) = before ↔ _
              rw [hcontent]
            · rename_i f heq
              rw [heq] at hcontent hnone
              obtain ⟨hfailure, hnoticed⟩ := hnone.1 rfl
              rw [written_iff hwritten]
              unfold AllOrNothing
              simp only [hreply, hsucceeded, if_true, hcontent, Option.some.injEq, hfailure,
                hnoticed, ne_eq, not_true_eq_false, Bool.false_eq_true, false_and, or_false,
                true_and]
              exact taken_eq_flatten_iff 0 reply.chunks
        · rename_i hnot
          refine untouched_iff _ rfl (fun reply' result _ h => ?_) fun reply' hw => ?_
          · cases hreply.symm.trans h
            exact Bool.eq_false_iff.2 hnot
          · cases hreply.symm.trans hw.2.1
            exact hnot hw.2.2.1

theorem allOrNothing_downloadUpdate (savePath : String) (before : Option Bytes)
    (x : DownloadChance) :
    AllOrNothing before x (downloadUpdate savePath before x) ↔ Undamaged true true before x := by
  unfold downloadUpdate
  split
  · rename_i message hdirectory
    refine untouched_of_error _ rfl rfl fun reply hw => ?_
    cases hdirectory.symm.trans hw.2.2.2.1
  · rename_i hdirectory
    split
    · rename_i error herror
      refine untouched_of_error _ rfl rfl fun reply hw => ?_
      cases herror.symm.trans hw.2.1
    · rename_i reply hreply
      split
      · rename_i hsucceeded
        split
        · rename_i message hcreated
          refine untouched_of_error _ rfl rfl fun reply hw => ?_
          cases hcreated.symm.trans hw.2.2.2.2
        · rename_i hcreated
          have hwritten : Written true x reply := ⟨rfl, hreply, hsucceeded, hdirectory, hcreated⟩
          obtain ⟨hcontent, hnone, hcomplete⟩ :=
            writeChunks_create x.room reply.failure reply.chunks
          split
          · rename_i f error heq
            rw [heq] at hcontent
            rw [undamaged_of_error hwritten true (by rw [heq]; simp)]
            show some (f.content x.room) = before ↔ _
            rw [hcontent]
          · rename_i f heq
            rw [heq] at hcontent hnone hcomplete
            obtain ⟨hfailure, hnoticed⟩ := hnone.1 rfl
            have hflushed := hcomplete rfl
            have hsame : (f.complete x.room).1.content x.room = f.content x.room := by
              cases hpending : f.pending with
              | _ => simp [content, complete, hpending]
            rw [written_iff hwritten]
            split
            · rename_i f' hflush
              rw [hflush] at hflushed hsame
              unfold AllOrNothing
              simp only [hreply, hsucceeded, if_true, hsame.trans hcontent, Option.some.injEq,
                hfailure, ← hflushed, true_and, Bool.true_eq_false, and_false, hnoticed,
                ne_eq, not_true_eq_false, Bool.false_eq_true, or_false, false_and, iff_true]
              exact (taken_eq_flatten_iff 0 reply.chunks).2 hflushed.symm
            · rename_i f' hflush
              rw [hflush] at hflushed hsame
              show some (f'.content x.room) = before ↔ _
              simp only [hsame.trans hcontent, hfailure, ← hflushed, Bool.false_eq_true, and_false,
                false_or, hnoticed, ne_eq, not_true_eq_false, and_self, true_and]
              exact eq_comm
      · rename_i hnot
        refine untouched_of_error _ rfl rfl fun reply' hw => ?_
        cases hreply.symm.trans hw.2.1
        exact hnot hw.2.2.1

end

/-- The connection is lost after the first of two chunks. -/
def lostConnection : DownloadChance where
  reply := .ok ⟨200, .ok "", [[1]], some ⟨false, false, none, "connection closed"⟩⟩
  directory := none
  created := none
  room _ := 4096

end RedcodeIm.Desktop
