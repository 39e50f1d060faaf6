import RedcodeIm.Attachments.Multipart
import RedcodeIm.Database.Uuids

/-!
# A session ends as its upload does

The status of a session, the upload in the storage and the record of the object are written one
after the other, and what goes wrong on the way is answered with an error or passed over.

* `SessionAgrees` — the session is completed just if the upload is, the record only with the
  session, and a completion can always be brought to its end.
* `Settles`, `CutsOff` — the condition: a session is aborted only while its upload is not completed,
  an upload is completed only while its session is active, and a completion that the storage has
  accepted gets to its update.
* `multipart_agreement` — under the condition it is so in every state.
-/

namespace RedcodeIm

open Overlap (Each Reach Step)

namespace Multipart

abbrev State := Overlap.State MultipartWorld MultipartCall MultipartStage MultipartAnswer

abbrev Status := Overlap.Status MultipartStage MultipartAnswer

abbrev Condition :=
  Overlap.Condition MultipartWorld MultipartCall MultipartStage MultipartAnswer Bool

/-- The session, the upload and the record agree. -/
structure SessionAgrees (parseUuid : String → Except String Uuid) (s : State) : Prop where
  /-- Once nothing is on its way, the session is completed just if the upload is. -/
  ended : (∀ i c stage, s.calls i ≠ some (c, .running stage)) →
    (s.world.session.status = .completed ↔ s.world.upload = .completed)
  record : ∀ r, s.world.record = some r → r.status = .completed →
    s.world.session.status = .completed
  aborted : s.world.session.status = .aborted → ∀ r, s.world.record = some r → r.status ≠ .completed
  /-- A completed upload leaves a session that is completed, or that can still be. -/
  retry : s.world.upload = .completed → ∃ s', Reach (multipart parseUuid) (fun _ _ _ => True) s s' ∧
    s'.world.session.status = .completed

/-- Whatever the steps are, the session, the upload and the record agree. -/
def MultipartAgreement (parseUuid : String → Except String Uuid) (step : State → State → Prop)
    (w : MultipartWorld) : Prop :=
  ∀ s, Relation.ReflTransGen step (.idle w) s → SessionAgrees parseUuid s

/-- A session that begins, of an object whose record is not completed. -/
def beginning (now : Timestamp) (session : MultipartSession) (provider : Option MultipartProvider)
    (record : Option FileUploadRecord) : MultipartWorld :=
  ⟨now, { session with status := .active }, provider, .started,
    record.filter (·.status ≠ .completed)⟩

/-! ## The condition -/

/-- **The condition** on statements: `mark_aborted` finds no active session whose upload is
completed, the storage completes an upload only while its session is active, and `mark_completed`
does not fail. -/
def Settles : Condition := fun s i succeeds =>
  ∀ c stage, s.calls i = some (c, .running stage) →
    (∀ sessionId claims, stage = .abort sessionId claims .markAborted → succeeds = true →
      s.world.session.status = .active → s.world.upload ≠ .completed) ∧
    (∀ sessionId claims reqParts parts,
      stage = .complete sessionId claims reqParts (.storage parts) → succeeds = true →
        s.world.upload = .started → s.world.session.status = .active) ∧
    ∀ sessionId claims reqParts parts,
      stage = .complete sessionId claims reqParts (.markCompleted parts) → succeeds = true

/-- The storage has accepted the completion, which has not come to `mark_completed`. -/
def MultipartStage.accepted : MultipartStage → Bool
  | .complete _ _ _ (.markCompleted _) => true
  | _ => false

/-- A completion is at this point. -/
def Accepted (s : State) : Prop :=
  ∃ i c stage, s.calls i = some (c, .running stage) ∧ MultipartStage.accepted stage = true

/-- A step that cuts off a completion at this point: the call gets no further, or it does not learn
that it has been accepted. -/
def CutsOff (s s' : State) : Prop :=
  (∃ i c stage, s.calls i = some (c, .running stage) ∧ MultipartStage.accepted stage = true ∧
    s'.calls i = some (c, .failed) ∧ s'.world.session.status = .active) ∨
  (s.world.upload ≠ .completed ∧ s'.world.upload = .completed ∧ ¬ Accepted s')

/-! ## What a statement does -/

/-- All that a statement can do. -/
inductive MultipartMove (w : MultipartWorld) (succeeds : Bool) (stage : MultipartStage)
    (w' : MultipartWorld) : Prop where
  | quiet (hstatus : w'.session.status = w.session.status) (hupload : w'.upload = w.upload)
      (hrecord : w'.record = w.record)
  | accepted (sessionId : String) (claims : MultipartClaims) (reqParts : List CompletedPart)
      (parts : List (ℤ × String))
      (hstage : stage = .complete sessionId claims reqParts (.storage parts))
      (hsucceeds : succeeds = true) (hstarted : w.upload = .started)
      (hw : w' = { w with upload := .completed })
  | completed (sessionId : String) (claims : MultipartClaims) (reqParts : List CompletedPart)
      (parts : List (ℤ × String))
      (hstage : stage = .complete sessionId claims reqParts (.markCompleted parts))
      (hstatus : w'.session.status = if w.session.status = .active then .completed
        else w.session.status)
      (hupload : w'.upload = w.upload) (hrecord : w'.record = w.record)
  | recorded (sessionId : String) (claims : MultipartClaims) (reqParts : List CompletedPart)
      (hstage : stage = .complete sessionId claims reqParts .markRecord)
      (hw : w' = w.markRecordCompleted)
  | uploadAborted (hstarted : w.upload = .started) (hw : w' = { w with upload := .aborted })
  | aborted (sessionId : String) (claims : MultipartClaims)
      (hstage : stage = .abort sessionId claims .markAborted) (hsucceeds : succeeds = true)
      (hactive : w.session.status = .active) (hstatus : w'.session.status = .aborted)
      (hupload : w'.upload = w.upload) (hrecord : w'.record = w.record)

/-- What a statement leaves its call to go on with: a completion that has been accepted, or one
whose session has been updated. -/
structure GoesOn (w : MultipartWorld) (stage : MultipartStage) (w' : MultipartWorld)
    (next : Status) : Prop where
  accepted : ∀ stage', next = .running stage' → MultipartStage.accepted stage' = true →
    w'.upload = .completed
  updated : ∀ sessionId claims reqParts,
    next = .running (.complete sessionId claims reqParts .markRecord) →
      MultipartStage.accepted stage = true ∧ w'.session.status =
        if w.session.status = .active then .completed else w.session.status

section

variable {parseUuid : String → Except String Uuid} {w w' : MultipartWorld} {succeeds : Bool}
  {stage : MultipartStage}

theorem MultipartMove.of_eq (h : w' = w) : MultipartMove w succeeds stage w' :=
  .quiet (by rw [h]) (by rw [h]) (by rw [h])

theorem status_updateSession (f : MultipartSession → MultipartSession) :
    (w.updateSession f).session.status =
        (if w.session.status = .active then (f w.session).status else w.session.status) ∧
      (w.updateSession f).upload = w.upload ∧ (w.updateSession f).record = w.record := by
  unfold MultipartWorld.updateSession
  split
  · exact ⟨rfl, rfl, rfl⟩
  · exact ⟨rfl, rfl, rfl⟩

variable (sessionId : String) (claims : MultipartClaims)

theorem commit_move (part : CompletedPart) (st : CommitPartStage) :
    MultipartMove w succeeds stage
      (commitMultipartPart parseUuid sessionId claims part w succeeds st).1 := by
  cases st with
  | load =>
    refine .of_eq ?_
    simp only [commitMultipartPart]
    split
    · rfl
    · split
      · rfl
      · split
        · rfl
        · rfl
  | upsert =>
    simp only [commitMultipartPart]
    split
    · obtain ⟨hstatus, hupload, hrecord⟩ := status_updateSession (w := w) fun s =>
        { s with uploadedParts := s.uploadedParts.set part.partNumber (Text.trim part.etag) }
      refine .quiet (hstatus.trans ?_) hupload hrecord
      exact ite_self _
    · exact .of_eq rfl

variable (reqParts : List CompletedPart)

theorem complete_move (st : CompleteStage) :
    MultipartMove w succeeds (.complete sessionId claims reqParts st)
      (completeMultipartUpload parseUuid sessionId claims reqParts w succeeds st).1 := by
  cases st with
  | load =>
    refine .of_eq ?_
    simp only [completeMultipartUpload]
    split
    · rfl
    · split
      · rfl
      · split
        · rfl
        · rfl
  | provider parts =>
    refine .of_eq ?_
    simp only [completeMultipartUpload]
    split
    · rfl
    · rfl
  | storage parts =>
    simp only [completeMultipartUpload, MultipartWorld.endUpload]
    split
    · rename_i h
      exact .accepted sessionId claims reqParts parts rfl h.2 h.1 rfl
    · exact .of_eq rfl
  | markCompleted parts =>
    simp only [completeMultipartUpload]
    split
    · obtain ⟨hstatus, hupload, hrecord⟩ := status_updateSession (w := w) fun s =>
        { s with
          status := .completed
          uploadedParts := partsMap parts
          completedAt := s.completedAt.or (some w.now) }
      exact .completed sessionId claims reqParts parts rfl hstatus hupload hrecord
    · exact .of_eq rfl
  | markRecord =>
    simp only [completeMultipartUpload]
    split
    · exact .recorded sessionId claims reqParts rfl rfl
    · exact .of_eq rfl
  | audit => exact .of_eq rfl

theorem abort_move (st : AbortStage) :
    MultipartMove w succeeds (.abort sessionId claims st)
      (abortMultipartUpload parseUuid sessionId claims w succeeds st).1 := by
  cases st with
  | load =>
    refine .of_eq ?_
    simp only [abortMultipartUpload]
    split
    · rfl
    · split
      · rfl
      · rfl
  | provider =>
    refine .of_eq ?_
    simp only [abortMultipartUpload]
    split
    · rfl
    · rfl
  | storage =>
    simp only [abortMultipartUpload, MultipartWorld.endUpload]
    split
    · rename_i h
      exact .uploadAborted h.1 rfl
    · exact .of_eq rfl
  | markAborted =>
    simp only [abortMultipartUpload]
    split
    · rename_i hsucceeds
      obtain ⟨hstatus, hupload, hrecord⟩ := status_updateSession (w := w) fun s =>
        { s with status := .aborted }
      by_cases hactive : w.session.status = .active
      · rw [if_pos hactive] at hstatus
        exact .aborted sessionId claims rfl hsucceeds hactive hstatus hupload hrecord
      · rw [if_neg hactive] at hstatus
        exact .quiet hstatus hupload hrecord
    · exact .of_eq rfl

theorem multipart_move (stage : MultipartStage) :
    MultipartMove w succeeds stage (multipartStatement parseUuid w succeeds stage).1 := by
  cases stage with
  | commit sessionId claims part st => exact commit_move sessionId claims part st
  | complete sessionId claims reqParts st => exact complete_move sessionId claims reqParts st
  | abort sessionId claims st => exact abort_move sessionId claims st

/-- A statement after which the call stands nowhere in particular. -/
theorem GoesOn.of_map {Stage : Type} {f : Stage → MultipartStage}
    {out : Overlap.Next Stage MultipartAnswer}
    (h : ∀ st, out = .goto st → MultipartStage.accepted (f st) = false ∧
      ∀ sessionId claims reqParts, f st ≠ .complete sessionId claims reqParts .markRecord) :
    GoesOn w stage w' (out.map f).status := by
  cases out with
  | done answer => exact ⟨(fun _ heq => by cases heq), fun _ _ _ heq => by cases heq⟩
  | goto st =>
    obtain ⟨haccepted, hrecord⟩ := h st rfl
    refine ⟨fun stage' heq hstage' => ?_, fun sessionId claims reqParts heq => ?_⟩
    · cases heq
      rw [haccepted] at hstage'
      cases hstage'
    · exact absurd (Overlap.Status.running.inj heq) (hrecord sessionId claims reqParts)

theorem complete_goesOn (st : CompleteStage) :
    GoesOn w (.complete sessionId claims reqParts st)
      (completeMultipartUpload parseUuid sessionId claims reqParts w succeeds st).1
      ((completeMultipartUpload parseUuid sessionId claims reqParts w succeeds st).2.map
        (.complete sessionId claims reqParts)).status := by
  cases st with
  | load =>
    refine .of_map fun st' heq => ?_
    simp only [completeMultipartUpload] at heq
    split at heq
    · cases heq
    · split at heq
      · cases heq
      · split at heq
        · cases heq
        · cases heq
          exact ⟨rfl, fun _ _ _ heq => by cases heq⟩
  | provider parts =>
    refine .of_map fun st' heq => ?_
    simp only [completeMultipartUpload] at heq
    split at heq
    · cases heq
    · cases heq
      exact ⟨rfl, fun _ _ _ heq => by cases heq⟩
  | storage parts =>
    simp only [completeMultipartUpload, MultipartWorld.endUpload]
    split
    · exact ⟨fun _ _ _ => rfl, fun _ _ _ heq => by cases heq⟩
    · exact ⟨(fun _ heq => by cases heq), fun _ _ _ heq => by cases heq⟩
  | markCompleted parts =>
    simp only [completeMultipartUpload]
    split
    · refine ⟨fun stage' heq hstage' => ?_, fun _ _ _ _ => ⟨rfl, ?_⟩⟩
      · cases heq
        cases hstage'
      · exact (status_updateSession (w := w) _).1
    · exact ⟨(fun _ heq => by cases heq), fun _ _ _ heq => by cases heq⟩
  | markRecord =>
    refine .of_map fun st' heq => ?_
    cases heq
    exact ⟨rfl, fun _ _ _ heq => by cases heq⟩
  | audit =>
    refine .of_map fun st' heq => ?_
    cases heq

theorem multipart_goesOn (stage : MultipartStage) :
    GoesOn w stage (multipartStatement parseUuid w succeeds stage).1
      (multipartStatement parseUuid w succeeds stage).2.status := by
  cases stage with
  | complete sessionId claims reqParts st => exact complete_goesOn sessionId claims reqParts st
  | _ => exact .of_map fun _ _ => ⟨rfl, fun _ _ _ heq => by cases heq⟩

theorem MultipartMove.upload_stays (h : MultipartMove w succeeds stage w')
    (hupload : w.upload = .completed) : w'.upload = .completed := by
  cases h with
  | quiet _ hsame | completed _ _ _ _ _ _ hsame | aborted _ _ _ _ _ _ hsame =>
    exact hsame.trans hupload
  | accepted sessionId claims reqParts parts hstage hsucceeds hstarted hw => rw [hw]
  | recorded sessionId claims reqParts hstage hw =>
    rw [hw]
    exact hupload
  | uploadAborted hstarted hw =>
    rw [hupload] at hstarted
    cases hstarted

theorem MultipartMove.status_stays (h : MultipartMove w succeeds stage w')
    (hcompleted : w.session.status = .completed) : w'.session.status = .completed := by
  cases h with
  | quiet hstatus hsame hrecord => exact hstatus.trans hcompleted
  | accepted _ _ _ _ _ _ _ hw | recorded _ _ _ _ hw | uploadAborted _ hw =>
    rw [hw]
    exact hcompleted
  | completed sessionId claims reqParts parts hstage hstatus hsame hrecord =>
    rw [hstatus, hcompleted]
    rfl
  | aborted sessionId claims hstage hsucceeds hactive hstatus hsame hrecord =>
    rw [hcompleted] at hactive
    cases hactive

end

/-! ## Invariants -/

structure WorldOk (w : MultipartWorld) : Prop where
  completed : w.session.status = .completed → w.upload = .completed
  record : ∀ r, w.record = some r → r.status = .completed → w.session.status = .completed
  aborted : w.session.status = .aborted → w.upload ≠ .completed

/-- A call goes by an upload that is completed, and by a session that is. -/
structure CallOk (w : MultipartWorld) (_ : ℕ) (_ : MultipartCall) (st : Status) : Prop where
  accepted : ∀ stage, st = .running stage → MultipartStage.accepted stage = true →
    w.upload = .completed
  updated : ∀ sessionId claims reqParts,
    st = .running (.complete sessionId claims reqParts .markRecord) → w.session.status = .completed

section

variable {parseUuid : String → Except String Uuid} {s s' : State} {i : ℕ} {c : MultipartCall}
  {stage : MultipartStage} {succeeds : Bool}

/-- A statement that meets the condition keeps the world in order. -/
theorem WorldOk.stmt (h : WorldOk s.world) (hself : CallOk s.world i c (.running stage))
    (hcall : s.calls i = some (c, .running stage)) (hG : Settles s i succeeds) :
    WorldOk (multipartStatement parseUuid s.world succeeds stage).1 := by
  obtain ⟨haborts, haccepts, -⟩ := hG c stage hcall
  have hmove : MultipartMove s.world succeeds stage
      (multipartStatement parseUuid s.world succeeds stage).1 := multipart_move stage
  cases hmove with
  | quiet hstatus hupload hrecord =>
    refine ⟨?_, ?_, ?_⟩
    · rw [hstatus, hupload]
      exact h.completed
    · rw [hstatus, hrecord]
      exact h.record
    · rw [hstatus, hupload]
      exact h.aborted
  | accepted sessionId claims reqParts parts hstage hsucceeds hstarted hw =>
    have hactive := haccepts sessionId claims reqParts parts hstage hsucceeds hstarted
    rw [hw]
    refine ⟨fun _ => rfl, h.record, fun haborted => ?_⟩
    rw [hactive] at haborted
    cases haborted
  | completed sessionId claims reqParts parts hstage hstatus hupload hrecord =>
    have hdone : s.world.upload = .completed := hself.accepted stage rfl (by rw [hstage]; rfl)
    refine ⟨fun _ => hupload.trans hdone, fun r hr hcompleted => ?_, fun haborted => ?_⟩
    · rw [hrecord] at hr
      rw [hstatus, h.record r hr hcompleted]
      rfl
    · rw [hstatus] at haborted
      split at haborted
      · cases haborted
      · exact absurd hdone (h.aborted haborted)
  | recorded sessionId claims reqParts hstage hw =>
    have hdone := hself.updated sessionId claims reqParts (by rw [hstage])
    rw [hw]
    exact ⟨h.completed, fun _ _ _ => hdone, h.aborted⟩
  | uploadAborted hstarted hw =>
    rw [hw]
    refine ⟨fun hcompleted => ?_, h.record, fun _ hupload => by cases hupload⟩
    rw [h.completed hcompleted] at hstarted
    cases hstarted
  | aborted sessionId claims hstage hsucceeds hactive hstatus hupload hrecord =>
    have hnot := haborts sessionId claims hstage hsucceeds hactive
    refine ⟨fun hcompleted => ?_, fun r hr hcompleted => ?_, fun _ => by rwa [hupload]⟩
    · rw [hstatus] at hcompleted
      cases hcompleted
    · rw [hrecord] at hr
      have hdone := h.record r hr hcompleted
      rw [hactive] at hdone
      cases hdone

/-- A completion that has been accepted leaves the session completed. -/
theorem WorldOk.status_of_accepted (h : WorldOk s.world) {w' : MultipartWorld}
    (hupload : s.world.upload = .completed)
    (hstatus : w'.session.status =
      if s.world.session.status = .active then .completed else s.world.session.status) :
    w'.session.status = .completed := by
  rw [hstatus]
  cases hold : s.world.session.status with
  | active => rfl
  | completed => rfl
  | aborted => exact absurd hupload (h.aborted hold)

theorem CallOk.congr {w w' : MultipartWorld} {st : Status} (h : CallOk w i c st)
    (hupload : w.upload = .completed → w'.upload = .completed)
    (hstatus : w.session.status = .completed → w'.session.status = .completed) :
    CallOk w' i c st :=
  ⟨fun stage heq hstage => hupload (h.accepted stage heq hstage),
    fun sessionId claims reqParts heq => hstatus (h.updated sessionId claims reqParts heq)⟩

theorem ok_step (hI : Each WorldOk CallOk s) (h : Step (multipart parseUuid) Settles s s') :
    Each WorldOk CallOk s' := by
  refine Each.step (fun s i c _ => ?_) (fun s i c stage x hI hcall _ hG => ?_)
    (fun _ _ _ => ⟨(fun _ heq => by cases heq), fun _ _ _ heq => by cases heq⟩)
    (fun w t hw => ?_) hI h
  · cases c with
    | _ => exact ⟨(fun _ heq hst => by cases heq; cases hst), fun _ _ _ heq => by cases heq⟩
  · have hself := hI.2 i c _ hcall
    have hmove : MultipartMove s.world x stage (multipartStatement parseUuid s.world x stage).1 :=
      multipart_move stage
    have hnext : GoesOn s.world stage (multipartStatement parseUuid s.world x stage).1
      (multipartStatement parseUuid s.world x stage).2.status := multipart_goesOn stage
    refine ⟨hI.1.stmt hself hcall hG, ⟨hnext.accepted, fun sessionId claims reqParts heq => ?_⟩,
      fun j c' st' _ _ hj => hj.congr hmove.upload_stays hmove.status_stays⟩
    obtain ⟨haccepted, hstatus⟩ := hnext.updated sessionId claims reqParts heq
    exact hI.1.status_of_accepted (hself.accepted stage rfl haccepted) hstatus
  · have hkeep : ∀ i c st, CallOk w i c st → CallOk (w.tick t) i c st := by
      intro i c st h
      cases t with
      | _ => exact h.congr id id
    refine ⟨?_, hkeep⟩
    cases t with
    | setRecord record =>
      refine ⟨hw.completed, fun r hr hcompleted => ?_, hw.aborted⟩
      have hnot := (Option.filter_eq_some_iff.1 hr).2
      rw [hcompleted] at hnot
      cases hnot
    | _ => exact ⟨hw.completed, hw.record, hw.aborted⟩

theorem eq_of_accepted (h : MultipartStage.accepted stage = true) :
    ∃ sessionId claims reqParts parts,
      stage = .complete sessionId claims reqParts (.markCompleted parts) := by
  cases stage with
  | commit | abort => cases h
  | complete sessionId claims reqParts st =>
    cases st with
    | markCompleted parts => exact ⟨sessionId, claims, reqParts, parts, rfl⟩
    | _ => cases h

/-- A completed upload has a session that is completed, or a completion that gets to it. -/
def Provided (s : State) : Prop :=
  s.world.upload = .completed → s.world.session.status = .completed ∨ Accepted s

/-- A call that has been accepted, after a statement of a call. -/
theorem provided_stmt {st : Status} (hI : Each WorldOk CallOk s) (hP : Provided s)
    (hcall : s.calls i = some (c, .running stage)) (hG : Settles s i succeeds)
    (hupload : s.world.upload = .completed) :
    (multipartStatement parseUuid s.world succeeds stage).1.session.status = .completed ∨
      Accepted (s.put (multipartStatement parseUuid s.world succeeds stage).1 i c st) := by
  have hmove : MultipartMove s.world succeeds stage
      (multipartStatement parseUuid s.world succeeds stage).1 := multipart_move stage
  rcases hP hupload with hcompleted | ⟨j, c', stage', hj, haccepted⟩
  · exact .inl (hmove.status_stays hcompleted)
  · by_cases hji : j = i
    · subst hji
      obtain ⟨rfl, heq⟩ := Prod.mk.inj (Option.some.inj (hcall.symm.trans hj))
      obtain rfl := Overlap.Status.running.inj heq
      obtain ⟨sessionId, claims, reqParts, parts, rfl⟩ := eq_of_accepted haccepted
      obtain rfl := (hG c _ hcall).2.2 sessionId claims reqParts parts rfl
      exact .inl (hI.1.status_of_accepted hupload (status_updateSession (w := s.world) _).1)
    · exact .inr ⟨j, c', stage', (Overlap.State.put_of_ne hji).trans hj, haccepted⟩

/-- A step that does not cut a completion off. -/
theorem provided_step (hI : Each WorldOk CallOk s) (hP : Provided s)
    (h : Step (multipart parseUuid) Settles s s') (hcut : ¬ CutsOff s s') : Provided s' := by
  intro hupload'
  by_cases hupload : s.world.upload = .completed
  · cases h with
    | start c hnew =>
      rename_i i
      rcases hP hupload with hcompleted | ⟨j, c', stage', hj, haccepted⟩
      · exact .inl hcompleted
      · have hji : j ≠ i := by
          rintro rfl
          rw [hnew] at hj
          cases hj
        exact .inr ⟨j, c', stage', (Overlap.State.put_of_ne hji).trans hj, haccepted⟩
    | run hcall _ hG | lose hcall _ hG => exact provided_stmt hI hP hcall hG hupload
    | drop hcall =>
      rename_i i c stage
      rcases hP hupload with hcompleted | ⟨j, c', stage', hj, haccepted⟩
      · exact .inl hcompleted
      · by_cases hji : j = i
        · subst hji
          cases hold : s.world.session.status with
          | active => exact absurd (.inl ⟨j, c', stage', hj, haccepted, by
              obtain ⟨rfl, -⟩ := Prod.mk.inj (Option.some.inj (hcall.symm.trans hj))
              exact Overlap.State.put_self, hold⟩) hcut
          | completed => exact .inl hold
          | aborted => exact absurd hupload (hI.1.aborted hold)
        · exact .inr ⟨j, c', stage', (Overlap.State.put_of_ne hji).trans hj, haccepted⟩
    | tick t =>
      rcases hP hupload with hcompleted | haccepted
      · refine .inl ?_
        cases t with
        | _ => exact hcompleted
      · exact .inr haccepted
  · refine .inr ?_
    by_contra hnot
    exact hcut (.inr ⟨hupload, hupload', hnot⟩)

/-- A completion that has been accepted can be brought to its end. -/
theorem finish_of_accepted (hI : Each WorldOk CallOk s) (h : Accepted s) :
    ∃ s', Reach (multipart parseUuid) (fun _ _ _ => True) s s' ∧
      s'.world.session.status = .completed := by
  obtain ⟨i, c, stage, hcall, haccepted⟩ := h
  have hupload := (hI.2 i c _ hcall).accepted stage rfl haccepted
  obtain ⟨sessionId, claims, reqParts, parts, rfl⟩ := eq_of_accepted haccepted
  exact ⟨_, .single (.run (x := true) hcall rfl trivial),
    hI.1.status_of_accepted hupload (status_updateSession (w := s.world) _).1⟩

end

/-- **The session, the upload and the record agree** in every state of every run in which a session
is aborted only while its upload is not completed, an upload is completed only while its session is
active, and a completion that the storage has accepted gets to its update. -/
theorem multipart_agreement (parseUuid : String → Except String Uuid) (now : Timestamp)
    (session : MultipartSession) (provider : Option MultipartProvider)
    (record : Option FileUploadRecord) :
    MultipartAgreement parseUuid
      (fun s s' => Step (multipart parseUuid) Settles s s' ∧ ¬ CutsOff s s')
      (beginning now session provider record) := by
  intro s hreach
  have hinv : Each WorldOk CallOk s ∧ Provided s := by
    induction hreach with
    | refl =>
      refine ⟨Overlap.each_idle ⟨(fun h => by cases h), fun r hr hcompleted => ?_,
        fun h => by cases h⟩, fun h => by cases h⟩
      have hnot := (Option.filter_eq_some_iff.1 hr).2
      rw [hcompleted] at hnot
      cases hnot
    | tail _ hlast ih => exact ⟨ok_step ih.1 hlast.1, provided_step ih.1 ih.2 hlast.1 hlast.2⟩
  obtain ⟨⟨hw, hcalls⟩, hprovided⟩ := hinv
  refine ⟨fun hidle => ⟨hw.completed, fun hupload => ?_⟩, hw.record,
    fun haborted r hr hcompleted => ?_, fun hupload => ?_⟩
  · rcases hprovided hupload with hcompleted | ⟨i, c, stage, hcall, -⟩
    · exact hcompleted
    · exact absurd hcall (hidle i c stage)
  · rw [hw.record r hr hcompleted] at haborted
    cases haborted
  · rcases hprovided hupload with hcompleted | haccepted
    · exact ⟨s, .refl, hcompleted⟩
    · exact finish_of_accepted ⟨hw, hcalls⟩ haccepted

/-! ## A completion and an abortion at once -/

/-- The session of the user 5, for an object of one part. -/
def oneSession : MultipartSession where
  id := 1
  storageProviderId := 2
  objectKey := "messages/7/files_1"
  uploadId := "upload"
  creatorId := 5
  creatorIsAdmin := false
  totalParts := 1
  uploadedParts := Table.empty
  status := .active
  updatedAt := 0
  completedAt := none

/-- The record of the object, whose upload has begun. -/
def pendingRecord : FileUploadRecord :=
  ⟨2, "messages/7/files_1", 1, "hash", none, none, .pending, none, 0, 0, none⟩

/-- The user completes the upload and aborts it at the same time: both find the session active,
the storage accepts the completion and refuses the abortion, and the abortion marks the session
first. -/
def completeWhileAborting : List (Overlap.Act MultipartCall Bool MultipartTick) :=
  let claims : MultipartClaims := ⟨sampleUuidText 5, false⟩
  [.start 0 (.complete (sampleUuidText 1) claims [⟨1, "etag"⟩]), .run 0 true, .run 0 true,
    .start 1 (.abort (sampleUuidText 1) claims), .run 1 true, .run 1 true,
    .run 0 true, .run 1 true, .run 1 true, .run 0 true, .run 0 true, .run 0 true]

/-- The session is aborted then, and its upload and its record are completed. -/
theorem aborted_though_completed :
    ¬ MultipartAgreement sampleParseUuid
      (Step (multipart sampleParseUuid) fun _ _ _ => True)
      (beginning 0 oneSession (some ⟨true, true⟩) (some pendingRecord)) := by
  intro h
  have hrun : (Overlap.perform (multipart sampleParseUuid) (fun _ _ _ => true)
      completeWhileAborting
      (.idle (beginning 0 oneSession (some ⟨true, true⟩) (some pendingRecord)))).map (fun s =>
        (s.world.session.status, s.world.upload, s.world.record.map (·.status))) =
      some (.aborted, .completed, some .completed) := by
    decide +kernel
  obtain ⟨s, hs, heq⟩ := Option.map_eq_some_iff.1 hrun
  obtain ⟨hstatus, heq⟩ := Prod.mk.inj heq
  obtain ⟨-, hrecord⟩ := Prod.mk.inj heq
  obtain ⟨r, hr, hcompleted⟩ := Option.map_eq_some_iff.1 hrecord
  have hagrees := h s (Reach.of_perform (fun _ _ _ _ => trivial) hs)
  exact hagrees.aborted hstatus r hr hcompleted

end Multipart

end RedcodeIm
