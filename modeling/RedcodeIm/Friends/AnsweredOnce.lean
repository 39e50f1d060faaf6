import RedcodeIm.Database.Uuids
import RedcodeIm.Friends.FriendRequests

/-!
# Friend requests are answered once

The statements of a response do not look at what the ones before them have found: a second response
may change a request that is answered, a request may be made anew before its friendship is there,
and one of two requests in opposite directions may be declined when the other one is accepted.
Where none of that happens, requests are answered once and friendships are as decided.

* `FriendsHold` — what is to hold of the requests, the friendships and what has happened.
* `AsRead` — the condition.
* `FriendMove.rows`, `FriendMove.once`, `FriendMove.friends` — what every statement keeps.
* `friends_hold` — so it holds in every run.
-/

namespace RedcodeIm

open Overlap (Each Reach)
open History (since OnceSince onceSince_nil since_cons_all since_cons_of_true)

/-! ## What has happened -/

namespace FriendEvent

/-- The request is made, or made anew. -/
def isMade (id : Uuid) : FriendEvent → Bool
  | .made other => other = id
  | _ => false

/-- A response changes the request. -/
def isResponse (id : Uuid) : FriendEvent → Bool
  | .responded r => r.id = id
  | _ => false

/-- The request, accepted, has its friendship. -/
def isFriendship (id : Uuid) : FriendEvent → Bool
  | .befriended other _ => other = id
  | _ => false

/-- What is decided of two users: an acceptance has its friendship, a request is declined, or the
friendship is deleted. -/
def decision (pair : Uuid × Uuid) : FriendEvent → Option Bool
  | .made _ => none
  | .responded r => if r.status = .declined ∧ r.pair = pair then some false else none
  | .befriended _ other => if other = pair then some true else none
  | .deleted other => if other = pair then some false else none

end FriendEvent

namespace Friends

abbrev State := Overlap.State FriendWorld FriendCall FriendStage FriendAnswer

abbrev Status := Overlap.Status FriendStage FriendAnswer

abbrev Act := Overlap.Act FriendCall Uuid ℕ

/-- **Requests are answered once, and friendships are as decided**: since a request was last made
there is one response at most; two users are friends if the last decision was an acceptance, or, as
long as there is none, if they were; and a request that is declined has had no friendship since it
was last made. -/
structure FriendsHold (start w : FriendWorld) : Prop where
  answered : ∀ id, OnceSince (·.isMade id) (·.isResponse id) w.history
  friends : ∀ pair, w.areAlreadyFriends pair =
    (w.history.findSome? (·.decision pair)).getD (start.areAlreadyFriends pair)
  declined : ∀ r ∈ w.requests.rows, r.status = .declined →
    ∀ e ∈ since (·.isMade r.id) w.history, e.isFriendship r.id = false

/-- **The condition**: a response that changes a request finds it pending, and, if it declines it,
the two users no friends; and an acceptance whose friendship is inserted finds its request
accepted. -/
structure AsRead (s : State) (i : ℕ) (_ : Uuid) : Prop where
  answers : ∀ c id responderId newStatus request,
    s.calls i = some (c, .running (.respondRequest id responderId newStatus (.answer request))) →
      ∀ r, s.world.requests.get id = some r → r.status = .pending ∧
        (newStatus = .declined → s.world.areAlreadyFriends r.pair = false)
  befriends : ∀ c id responderId newStatus request updated,
    s.calls i =
        some (c, .running (.respondRequest id responderId newStatus (.befriend request updated))) →
      ∀ r, s.world.requests.get request.id = some r → r.status = .accepted

/-! ## What holds of the requests and of the calls -/

/-- What holds of a request: while it is pending there was no response since it was made, and
unless it is accepted no friendship. -/
structure RowInOrder (w : FriendWorld) (r : FriendRequestRecord) : Prop where
  pending : r.status = .pending → ∀ e ∈ since (·.isMade r.id) w.history, e.isResponse r.id = false
  friendship : r.status ≠ .accepted →
    ∀ e ∈ since (·.isMade r.id) w.history, e.isFriendship r.id = false

/-- What holds of the world. -/
structure FriendsInOrder (start w : FriendWorld) : Prop where
  rows : ∀ r ∈ w.requests.rows, RowInOrder w r
  once : ∀ id, OnceSince (·.isMade id) (·.isResponse id) w.history
  friends : ∀ pair, w.areAlreadyFriends pair =
    (w.history.findSome? (·.decision pair)).getD (start.areAlreadyFriends pair)

/-- No response makes a request pending. -/
def answers : Status → Option FriendRequestStatus
  | .running (.respondRequest _ _ newStatus (.answer _)) => some newStatus
  | _ => none

section

variable {start w w' : FriendWorld} {stage : FriendStage} {r : FriendRequestRecord} {id : Uuid}

theorem areAlreadyFriends_congr (h : w'.friendships = w.friendships) (pair : Uuid × Uuid) :
    w'.areAlreadyFriends pair = w.areAlreadyFriends pair := by
  rw [FriendWorld.areAlreadyFriends, FriendWorld.areAlreadyFriends, h]

/-- What happens to other requests does not matter to a request. -/
theorem RowInOrder.other {e : FriendEvent} (h : RowInOrder w r)
    (hhistory : w'.history = e :: w.history) (hresponse : e.isResponse r.id = false)
    (hfriendship : e.isFriendship r.id = false) : RowInOrder w' r := by
  refine ⟨fun hp => ?_, fun hp => ?_⟩
  · rw [hhistory]
    exact since_cons_all (h.pending hp) (.inr hresponse)
  · rw [hhistory]
    exact since_cons_all (h.friendship hp) (.inr hfriendship)

theorem FriendMove.rows (h : FriendMove w stage w') (hw : ∀ r ∈ w.requests.rows, RowInOrder w r)
    (hanswers : ∀ id responderId newStatus request,
      stage = .respondRequest id responderId newStatus (.answer request) →
        newStatus ≠ .pending ∧ ∀ r, w.requests.get id = some r → r.status = .pending)
    (hbefriends : ∀ id responderId newStatus request updated,
      stage = .respondRequest id responderId newStatus (.befriend request updated) →
        ∀ r, w.requests.get request.id = some r → r.status = .accepted) :
    ∀ r ∈ w'.requests.rows, RowInOrder w' r := by
  intro x hx
  cases h with
  | quiet hrequests _ hhistory =>
    have hold := hw x (hrequests ▸ hx)
    exact ⟨hhistory ▸ hold.pending, hhistory ▸ hold.friendship⟩
  | made r hrows _ hhistory =>
    rcases hrows x hx with rfl | ⟨hx, -⟩
    · have hmade : FriendEvent.isMade x.id (.made x.id) = true := decide_eq_true rfl
      refine ⟨fun _ => ?_, fun _ => ?_⟩ <;>
      · rw [hhistory, since_cons_of_true hmade]
        intro e he
        cases he
    · exact (hw x hx).other hhistory rfl rfl
  | responded r r' request responderId newStatus hstage hget hid hpair hstatus hrequests _
      hhistory =>
    rw [hrequests] at hx
    obtain ⟨hnew, hpending⟩ := hanswers _ _ _ _ hstage
    rcases Table.mem_put hx with ⟨hx, hne⟩ | rfl
    · exact (hw x hx).other hhistory (decide_eq_false (Ne.symm hne)) rfl
    · refine ⟨fun hp => absurd (hstatus.symm.trans hp) hnew, fun _ => ?_⟩
      have hold := (hw r (Table.mem_of_get hget)).friendship (by rw [hpending r hget]; decide)
      rw [hhistory, hid]
      exact since_cons_all hold (.inr rfl)
  | befriended requestId responderId newStatus request updated hstage hrequests _ hhistory =>
    rw [hrequests] at hx
    by_cases hid : request.id = x.id
    · have hstatus := hbefriends _ _ _ _ _ hstage x (hid ▸ Table.get_of_mem hx)
      refine ⟨fun hp => ?_, fun hp => absurd hstatus hp⟩
      rw [hstatus] at hp
      cases hp
    · exact (hw x hx).other hhistory rfl (decide_eq_false hid)
  | deleted pair hrequests _ hhistory => exact (hw x (hrequests ▸ hx)).other hhistory rfl rfl

theorem FriendMove.once (h : FriendMove w stage w') (hw : ∀ r ∈ w.requests.rows, RowInOrder w r)
    (honce : OnceSince (·.isMade id) (·.isResponse id) w.history)
    (hanswers : ∀ id responderId newStatus request,
      stage = .respondRequest id responderId newStatus (.answer request) →
        ∀ r, w.requests.get id = some r → r.status = .pending) :
    OnceSince (·.isMade id) (·.isResponse id) w'.history := by
  cases h with
  | quiet _ _ hhistory => exact hhistory ▸ honce
  | made _ _ _ hhistory | befriended _ _ _ _ _ _ _ _ hhistory | deleted _ _ _ hhistory =>
    rw [hhistory]
    exact honce.cons (.inr (.inl rfl))
  | responded r r' request responderId newStatus hstage hget hid _ _ _ _ hhistory =>
    rw [hhistory]
    refine honce.cons (.inr ?_)
    by_cases heq : r.id = id
    · have hpending := hanswers _ _ _ _ hstage r hget
      exact .inr (heq ▸ (hw r (Table.mem_of_get hget)).pending hpending)
    · exact .inl (decide_eq_false (hid ▸ heq))

theorem FriendMove.friends {pair : Uuid × Uuid} {initially : Bool} (h : FriendMove w stage w')
    (hfriends : w.areAlreadyFriends pair = (w.history.findSome? (·.decision pair)).getD initially)
    (hdeclines : ∀ id responderId request,
      stage = .respondRequest id responderId .declined (.answer request) →
        ∀ r, w.requests.get id = some r → w.areAlreadyFriends r.pair = false) :
    w'.areAlreadyFriends pair = (w'.history.findSome? (·.decision pair)).getD initially := by
  cases h with
  | quiet _ hfriendships hhistory => rw [areAlreadyFriends_congr hfriendships, hhistory, hfriends]
  | made _ _ hfriendships hhistory =>
    rw [areAlreadyFriends_congr hfriendships, hhistory, List.findSome?_cons, hfriends]
    rfl
  | responded r r' request responderId newStatus hstage hget hid hpair hstatus _ hfriendships
      hhistory =>
    rw [areAlreadyFriends_congr hfriendships, hhistory, List.findSome?_cons]
    simp only [FriendEvent.decision]
    by_cases hdeclined : r'.status = .declined ∧ r'.pair = pair
    · rw [if_pos hdeclined]
      obtain ⟨hdeclined, rfl⟩ := hdeclined
      rw [hstatus] at hdeclined
      subst hdeclined
      rw [hpair]
      exact hdeclines _ _ _ hstage r hget
    · rw [if_neg hdeclined]
      exact hfriends
  | befriended _ _ _ request _ _ _ hfriends' hhistory =>
    rw [hfriends', hhistory, List.findSome?_cons]
    simp only [FriendEvent.decision]
    by_cases hpair : request.pair = pair
    · rw [if_pos hpair, decide_eq_true hpair, Bool.or_true]
      rfl
    · rw [if_neg hpair, decide_eq_false hpair, Bool.or_false]
      exact hfriends
  | deleted other _ hfriends' hhistory =>
    rw [hfriends', hhistory, List.findSome?_cons]
    simp only [FriendEvent.decision]
    by_cases hpair : other = pair
    · rw [if_pos hpair, decide_eq_false (not_not.2 hpair), Bool.and_false]
      rfl
    · rw [if_neg hpair, decide_eq_true hpair, Bool.and_true]
      exact hfriends

end

/-! ## Runs -/

section

variable {uuidText : Uuid → String} {start : FriendWorld} {s : State}

/-- A call that comes to a response has a status other than pending. -/
theorem answers_ne_pending (w : FriendWorld) (id : Uuid) (stage : FriendStage) :
    answers (friendStatement uuidText w id stage).2.status ≠ some .pending := by
  intro h
  cases stage with
  | createRequest requesterId addresseeId message stage =>
    simp only [friendStatement, FriendNext.embed] at h
    cases hnext : (createRequest requesterId addresseeId message w id stage).2 <;>
    · rw [hnext] at h
      cases h
  | deleteFriendship userId friendUserId stage =>
    simp only [friendStatement, FriendNext.embed] at h
    cases hnext : (deleteFriendship userId friendUserId w stage).2 <;>
    · rw [hnext] at h
      cases h
  | respondRequest requestId responderId newStatus stage =>
    simp only [friendStatement, FriendNext.embed] at h
    cases stage with
    | load =>
      simp only [respondRequest] at h
      split at h
      · cases h
      · rename_i hnew
        split at h
        · cases h
        · split at h
          · cases h
          · split at h
            · cases h
            · exact hnew (Option.some.inj h)
    | answer request =>
      simp only [respondRequest] at h
      split at h
      · cases h
      · split at h <;> cases h
    | befriend request updated =>
      simp only [respondRequest] at h
      split at h <;> cases h

theorem friends_each (hstart : start.history = [])
    (h : Reach (friendCalls uuidText) AsRead (.idle start) s) :
    Each (FriendsInOrder start) (fun _ _ _ st => answers st ≠ some .pending) s := by
  refine h.each (fun s i c _ => ?_) (fun s i c stage id hE hcall _ hG => ?_)
    (fun w i c => ?_) (fun w n hw => ?_) (Overlap.each_idle ?_)
  · cases c <;> exact fun hst => by cases hst
  · have hmove := friendMove uuidText s.world id stage
    have hanswers : ∀ id responderId newStatus request,
        stage = .respondRequest id responderId newStatus (.answer request) →
          newStatus ≠ .pending ∧ ∀ r, s.world.requests.get id = some r → r.status = .pending := by
      rintro id responderId newStatus request rfl
      refine ⟨fun hnew => hE.2 i c _ hcall (by rw [hnew]; rfl), fun r hr => ?_⟩
      exact (hG.answers _ _ _ _ _ hcall r hr).1
    have honce : ∀ id responderId newStatus request,
        stage = .respondRequest id responderId newStatus (.answer request) →
          ∀ r, s.world.requests.get id = some r → r.status = .pending :=
      fun _ _ _ _ hstage => (hanswers _ _ _ _ hstage).2
    refine ⟨⟨hmove.rows hE.1.rows hanswers ?_, fun id => hmove.once hE.1.rows (hE.1.once id) honce,
      fun pair => hmove.friends (hE.1.friends pair) ?_⟩, answers_ne_pending _ _ _,
      fun j c' st' _ _ hother => hother⟩
    · rintro id responderId newStatus request updated rfl
      exact hG.befriends _ _ _ _ _ _ hcall
    · rintro id responderId request rfl r hr
      exact (hG.answers _ _ _ _ _ hcall r hr).2 rfl
  · exact fun hst => by cases hst
  · exact ⟨⟨fun r hr => ⟨(hw.rows r hr).1, (hw.rows r hr).2⟩, hw.once, hw.friends⟩,
      fun _ _ _ hst => hst⟩
  · refine ⟨fun r _ => ⟨fun _ => ?_, fun _ => ?_⟩, fun id => ?_, fun pair => ?_⟩
    · rw [hstart]
      intro e he
      cases he
    · rw [hstart]
      intro e he
      cases he
    · rw [hstart]
      exact onceSince_nil
    · rw [hstart]
      rfl

/-- **Friend requests are answered once**, whatever calls overlap, where every response finds what
it has read. -/
theorem friends_hold (hstart : start.history = [])
    (h : Reach (friendCalls uuidText) AsRead (.idle start) s) : FriendsHold start s.world := by
  have hE := (friends_each hstart h).1
  exact ⟨hE.once, hE.friends, fun r hr hdeclined =>
    (hE.rows r hr).friendship (by rw [hdeclined]; decide)⟩

end

/-! ## Two responses -/

/-- Nobody knows anybody. -/
def strangers : FriendWorld := ⟨100, .empty, .empty, .empty, []⟩

/-- The statements of a call, one after another. -/
def runs (i n id : ℕ) : List Act := List.replicate n (.run i id)

/-- The request is accepted and declined at once. -/
def bothResponses : List Act :=
  .start 0 (.createRequest 1 2 (some "hi")) :: runs 0 3 500 ++
    [.start 1 (.respondRequest 500 2 .accepted), .start 2 (.respondRequest 500 2 .declined),
      .run 1 600, .run 2 600] ++ runs 1 2 600 ++ runs 2 1 700

theorem friends_though_declined :
    ¬ ∀ (uuidText : Uuid → String) (start : FriendWorld) (s : State), start.history = [] →
      Reach (friendCalls uuidText) (fun _ _ _ => True) (.idle start) s →
        FriendsHold start s.world := by
  intro h
  have hrun : (Overlap.perform (friendCalls sampleUuidText) (fun _ _ _ => true) bothResponses
      (.idle strangers)).map (fun s => (s.world.areAlreadyFriends (1, 2),
        s.world.history.findSome? (·.decision (1, 2)))) = some (true, some false) := by
    decide +kernel
  obtain ⟨s, hs, heq⟩ := Option.map_eq_some_iff.1 hrun
  obtain ⟨hfriends, hdecision⟩ := Prod.mk.inj heq
  have hold := (h sampleUuidText strangers s rfl
    (Reach.of_perform (fun _ _ _ _ => trivial) hs)).friends (1, 2)
  rw [hfriends, hdecision] at hold
  cases hold

/-- The condition, decided. -/
def asRead (s : State) (i : ℕ) (_ : Uuid) : Bool :=
  match s.calls i with
  | some (_, .running (.respondRequest id _ newStatus (.answer _))) =>
    (s.world.requests.get id).all fun r =>
      r.status = .pending && (newStatus ≠ .declined || !s.world.areAlreadyFriends r.pair)
  | some (_, .running (.respondRequest _ _ _ (.befriend request _))) =>
    (s.world.requests.get request.id).all (·.status = .accepted)
  | _ => true

theorem asRead_of_check {s : State} {i : ℕ} {id : Uuid} (h : asRead s i id = true) :
    AsRead s i id := by
  refine ⟨fun c requestId responderId newStatus request hi r hr => ?_,
    fun c requestId responderId newStatus request updated hi r hr => ?_⟩
  · simp only [asRead, hi, hr, Option.all_some, Bool.and_eq_true, decide_eq_true_eq,
      Bool.or_eq_true, Bool.not_eq_true'] at h
    exact ⟨h.1, fun hnew => h.2.resolve_left fun hne => hne hnew⟩
  · simpa only [asRead, hi, hr, Option.all_some, decide_eq_true_eq] using h

/-- A request is accepted, while a deletion finds no friendship yet; another deletes it; and the
request is made anew and declined. -/
def askedTwice : List Act :=
  .start 0 (.createRequest 1 2 (some "hi")) :: runs 0 3 500 ++
    [.start 1 (.respondRequest 500 2 .accepted), .start 2 (.deleteFriendship 1 2)] ++
      runs 1 2 600 ++ runs 2 1 600 ++ runs 1 1 600 ++
    .start 3 (.deleteFriendship 2 1) :: runs 3 2 600 ++
    .start 4 (.createRequest 1 2 none) :: runs 4 3 700 ++
    .start 5 (.respondRequest 500 2 .declined) :: runs 5 2 800

theorem friends_hold_sample :
    ∃ s, Overlap.perform (friendCalls sampleUuidText) asRead askedTwice (.idle strangers) = some s ∧
      (s.world.requests.rows.map fun r => (r.id, r.status)) = [(500, .declined)] ∧
      s.world.friendships.rows = [] ∧ FriendsHold strangers s.world := by
  have hrun : (Overlap.perform (friendCalls sampleUuidText) asRead askedTwice
      (.idle strangers)).map (fun s => (s.world.requests.rows.map fun r => (r.id, r.status),
        s.world.friendships.rows)) = some ([(500, .declined)], []) := by
    decide +kernel
  obtain ⟨s, hs, heq⟩ := Option.map_eq_some_iff.1 hrun
  obtain ⟨hrequests, hfriendships⟩ := Prod.mk.inj heq
  exact ⟨s, hs, hrequests, hfriendships,
    friends_hold rfl (Reach.of_perform (fun _ _ _ h => asRead_of_check h) hs)⟩

end Friends

end RedcodeIm
