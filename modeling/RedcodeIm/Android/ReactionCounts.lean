import RedcodeIm.Android.MessageCache
import RedcodeIm.Lib.Machine
import RedcodeIm.Messages.Reactions

/-!
# Counts of reactions, in the Android app

The server publishes every request that it accepts, and answers a request of the app with all the
counts; the app counts what is published, and stores what it is answered.

* `applyReactionUpdate` — how an event is counted.
* `World`, `act` — the reactions to one message, what is published of them, and the cache.
* `Orderly` — nobody else adds a reaction twice, and no answer is stored across changes of others.
* `counts_agree` — the counts in the cache are the server's once all has been processed.
* `counted_twice` — without that, they are not.
-/

namespace RedcodeIm.Android

open List

/-- The reactions to a message, as the cache has them. -/
abbrev CachedReactions : Type := Table MessageReactionSummary.reactionKey

/-- `ReactionUpdatePayload`, for one message. -/
structure ReactionUpdate where
  reactionKey : String
  userId : Uuid
  added : Bool
  deriving DecidableEq

/-- `applyReactionUpdate`, from the reactions that it reads to those that it writes. -/
def applyReactionUpdate (currentUserId : Uuid) (e : ReactionUpdate) (reactions : CachedReactions) :
    CachedReactions :=
  let isSelf := decide (e.userId = currentUserId)
  match reactions.get e.reactionKey with
  | some existing =>
    if e.added then
      let shouldIncrement := !isSelf || !existing.hasSelf
      reactions.put { existing with
        count := existing.count + if shouldIncrement then 1 else 0
        hasSelf := existing.hasSelf || isSelf }
    else
      let shouldDecrement := !isSelf || existing.hasSelf
      let nextCount := max (existing.count - if shouldDecrement then 1 else 0) 0
      if nextCount = 0 then reactions.delete e.reactionKey
      else reactions.put
        { existing with count := nextCount, hasSelf := existing.hasSelf && !isSelf }
  | none => if e.added then reactions.insert ⟨e.reactionKey, 1, isSelf⟩ else reactions

/-- `get_reaction_summaries`, as the app reads it. -/
def aggregate (t : Reactions) (messageId user : Uuid) : CachedReactions where
  rows := (t.getReactionSummaries messageId (some user)).map fun s =>
    ⟨s.reactionKey, s.count, s.hasSelf⟩
  nodup := by
    unfold Reactions.getReactionSummaries
    rw [map_map, ((SortBy.sortBy_perm _ _).map _).nodup_iff, map_map]
    exact (map_id _).symm ▸ nodup_dedup _

/-- The count of a reaction, and whether the user has it. -/
def shown (reactions : CachedReactions) (k : String) : ℤ × Bool :=
  ((reactions.get k).map fun s => (s.count, s.hasSelf)).getD (0, false)

/-! ## The server and the app -/

/-- The reactions to a message on the server; the events that are on their way, and how many the app
has begun to process; an event and the reactions read for it; the answers on their way, each with
the number of events published by then; and the cache. -/
structure ReactionWorld where
  server : Reactions
  events : List ReactionUpdate
  handled : ℕ
  applying : Option (CachedReactions × ReactionUpdate)
  responses : List (CachedReactions × ℕ)
  cached : CachedReactions

/-- A request of any user, and whether it can be published; a step of the processing of an event;
and an answer that is stored. -/
inductive ReactionAct where
  | add (userId : Uuid) (reactionKey : String) (now : Timestamp) (published : Bool)
  | remove (userId : Uuid) (reactionKey : String) (now : Timestamp) (published : Bool)
  | read
  | write
  | respond (i : ℕ)

section

variable (messageId user : Uuid)

/-- A request is accepted, answered and published. -/
def ReactionWorld.accept (w : ReactionWorld) (server : Reactions) (e : ReactionUpdate)
    (published : Bool) : ReactionWorld :=
  let events := if published then w.events ++ [e] else w.events
  { w with
    server, events
    responses := if e.userId = user then
        w.responses ++ [(aggregate server messageId user, w.handled + events.length)]
      else w.responses }

def reactionAct (w : ReactionWorld) : ReactionAct → Option ReactionWorld
  | .add userId reactionKey now published =>
    some (w.accept messageId user (w.server.addReaction messageId userId reactionKey now)
      ⟨reactionKey, userId, true⟩ published)
  | .remove userId reactionKey now published =>
    let r := w.server.removeReaction messageId userId reactionKey now
    some (if r.2 then w.accept messageId user r.1 ⟨reactionKey, userId, false⟩ published else w)
  | .read =>
    match w.applying, w.events with
    | none, e :: events =>
      some { w with events, handled := w.handled + 1, applying := some (w.cached, e) }
    | _, _ => none
  | .write => w.applying.map fun r =>
    { w with applying := none, cached := applyReactionUpdate user r.2 r.1 }
  | .respond i => (w.responses[i]?).map fun response =>
    { w with responses := w.responses.eraseIdx i, cached := response.1 }

/-- All pushes and answers have been processed. -/
def ReactionWorld.Settled (w : ReactionWorld) : Prop :=
  w.events = [] ∧ w.applying = none ∧ w.responses = []

def ReactionWorld.Agrees (w : ReactionWorld) : Prop :=
  ∀ k, shown w.cached k = shown (aggregate w.server messageId user) k

/-- Counts that agree do so again once all has been processed, whatever is done under a
condition. -/
def CountsAgree (G : ReactionWorld → ReactionAct → Prop) : Prop :=
  ∀ w₀ w, w₀.Settled → w₀.Agrees messageId user →
    Machine.Reach (reactionAct messageId user) G w₀ w → w.Settled → w.Agrees messageId user

/-- What is accepted is published, another user adds no reaction twice, and an answer is stored
while no event is being counted, before the events that follow it and after those of other users
that it follows. -/
def Orderly (w : ReactionWorld) : ReactionAct → Prop
  | .add userId reactionKey _ published => published = true ∧
      (userId ≠ user → w.server.isLive messageId userId reactionKey = false)
  | .remove _ _ _ published => published = true
  | .respond i => w.applying = none ∧ ∀ r, w.responses[i]? = some r → w.handled ≤ r.2 ∧
      ∀ e ∈ w.events.take (r.2 - w.handled), e.userId = user
  | _ => True

end

/-! ## Tallies -/

/-- For each reaction, how many of the others have it and whether the user does. -/
abbrev Tally : Type := String → ℕ × Bool

section

variable {messageId user : Uuid} {a : Tally} {e : ReactionUpdate} {events : List ReactionUpdate}
  {t : Reactions} {reactions : CachedReactions} {f : String → Bool} {w w' : ReactionWorld}
  {k : String} {n : ℕ}

def tally (messageId user : Uuid) (t : Reactions) : Tally := fun k =>
  (t.others messageId user k, t.isLive messageId user k)

/-- What an event says of a tally. -/
def Tally.move (user : Uuid) (a : Tally) (e : ReactionUpdate) : Tally := fun k =>
  if k = e.reactionKey then
    if e.userId = user then ((a k).1, e.added)
    else (if e.added then (a k).1 + 1 else (a k).1 - 1, (a k).2)
  else a k

def Tally.moves (user : Uuid) (a : Tally) (events : List ReactionUpdate) : Tally :=
  events.foldl (Tally.move user) a

/-- A reaction that another user is said to remove is there. -/
def Tally.Allows (user : Uuid) (a : Tally) (e : ReactionUpdate) : Prop :=
  e.userId ≠ user → e.added = false → 0 < (a e.reactionKey).1

def Trail (user : Uuid) : Tally → List ReactionUpdate → Prop
  | _, [] => True
  | a, e :: events => a.Allows user e ∧ Trail user (a.move user e) events

theorem trail_snoc (h : Trail user a events) (he : (a.moves user events).Allows user e) :
    Trail user a (events ++ [e]) := by
  induction events generalizing a with
  | nil => exact ⟨he, trivial⟩
  | cons x events ih => exact ⟨h.1, ih h.2 he⟩

/-- The user's own reaction is what their last event says. -/
theorem moves_own (h : ∀ e ∈ events, e.userId = user → e.reactionKey ≠ k) :
    (a.moves user events k).2 = (a k).2 := by
  induction events generalizing a with
  | nil => rfl
  | cons e events ih =>
    refine (ih fun x hx => h x (.tail _ hx)).trans ?_
    unfold Tally.move
    split
    · rename_i hk
      rw [if_neg fun hself => h e (.head _) hself hk.symm]
    · rfl

/-- The user's own events leave the others. -/
theorem moves_others (h : ∀ e ∈ events, e.userId = user) : (a.moves user events k).1 = (a k).1 := by
  induction events generalizing a with
  | nil => rfl
  | cons e events ih =>
    refine (ih fun x hx => h x (.tail _ hx)).trans ?_
    unfold Tally.move
    rw [if_pos (h e (.head _))]
    split <;> rfl

theorem tally_add {userId : Uuid} {now : Timestamp}
    (h : userId ≠ user → t.isLive messageId userId k = false) :
    tally messageId user (t.addReaction messageId userId k now) =
      (tally messageId user t).move user ⟨k, userId, true⟩ := by
  funext x
  have hothers : (t.addReaction messageId userId k now).others messageId user x =
      t.others messageId user x + if x = k ∧ userId ≠ user then 1 else 0 := by
    by_cases hlive : t.isLive messageId userId k = true
    · have hself : userId = user := by
        by_contra hne
        rw [h hne] at hlive
        cases hlive
      rw [Reactions.addReaction_of_isLive hlive, if_neg fun hx => hx.2 hself, Nat.add_zero]
    · exact Reactions.others_addReaction (by simpa using hlive)
  unfold tally Tally.move
  rw [hothers, Reactions.isLive_addReaction]
  by_cases hx : x = k
  · by_cases hself : userId = user
    · simp [hx, hself]
    · simp [hx, hself, Ne.symm hself]
  · simp [hx]

theorem tally_remove {userId : Uuid} (h : t.isLive messageId userId k = true) (user : Uuid)
    (now : Timestamp) :
    (tally messageId user t).Allows user ⟨k, userId, false⟩ ∧
      tally messageId user (t.removeReaction messageId userId k now).1 =
        (tally messageId user t).move user ⟨k, userId, false⟩ := by
  have hremoved := fun x => (Reactions.removeReaction_of_isLive h now user x).2
  constructor
  · intro hne _
    have hk := (hremoved k).2
    rw [if_pos ⟨rfl, hne⟩] at hk
    show 0 < t.others messageId user k
    omega
  · funext x
    obtain ⟨hlive, hothers⟩ := hremoved x
    unfold tally Tally.move
    dsimp only
    rw [hlive, ← hothers]
    by_cases hx : x = k
    · by_cases hself : userId = user
      · simp [hx, hself]
      · simp [hx, hself, Ne.symm hself]
    · simp [hx]

/-! ## What the cache shows -/

/-- The cache has the others of a tally, and for the user what `f` says. -/
def Shows (reactions : CachedReactions) (a : Tally) (f : String → Bool) : Prop :=
  ∀ k, shown reactions k = (((a k).1 : ℤ) + (f k).toNat, f k)

theorem shows_aggregate : Shows (aggregate t messageId user) (tally messageId user t) fun k =>
    t.isLive messageId user k := by
  intro k
  have hcount := t.count_summary messageId user k
  have hself := t.hasSelf_summary messageId user k
  unfold shown tally
  dsimp only
  rw [← hself] at hcount ⊢
  by_cases hk : k ∈ (t.live messageId).map ReactionRow.reactionKey
  · have hmem : (⟨k, (t.summary messageId k (some user)).count,
        (t.summary messageId k (some user)).hasSelf⟩ : MessageReactionSummary) ∈
        (aggregate t messageId user).rows :=
      mem_map.2 ⟨_, SortBy.mem_sortBy.2 (mem_map_of_mem (mem_dedup.2 hk)), rfl⟩
    rw [Table.get_of_mem hmem, Option.map_some, Option.getD_some, hcount]
    push_cast
    rfl
  · have hnone : (aggregate t messageId user).get k = none := by
      rw [Table.get_eq_none_iff]
      intro r hr heq
      obtain ⟨s, hs, rfl⟩ := mem_map.1 hr
      obtain ⟨x, hx, rfl⟩ := mem_map.1 (SortBy.mem_sortBy.1 hs)
      exact hk (heq ▸ mem_dedup.1 hx)
    have hzero : (t.summary messageId k (some user)).count = 0 := by
      refine length_eq_zero_iff.2 (filter_eq_nil_iff.2 fun row hrow hkey => hk ?_)
      exact mem_map.2 ⟨row, hrow, of_decide_eq_true hkey⟩
    rw [hnone]
    rw [hzero] at hcount
    cases hown : (t.summary messageId k (some user)).hasSelf with
    | false =>
      have hzero : t.others messageId user k = 0 := by simpa [hown] using hcount.symm
      simp [hzero]
    | true =>
      rw [hown] at hcount
      simp at hcount

theorem shown_put (row : MessageReactionSummary) : shown (reactions.put row) k =
    if k = row.reactionKey then (row.count, row.hasSelf) else shown reactions k := by
  unfold shown
  rw [Table.get_put]
  by_cases hk : k = row.reactionKey
  · rw [if_pos hk, if_pos hk.symm]
    rfl
  · rw [if_neg hk, if_neg (Ne.symm hk)]

theorem shown_delete {x : String} :
    shown (reactions.delete x) k = if k = x then (0, false) else shown reactions k := by
  have hget : (reactions.delete x).get k =
      (reactions.get k).filter fun r => !decide (r.reactionKey = x) := Table.get_filter _ _ _
  unfold shown
  rw [hget]
  cases hk : reactions.get k with
  | none => simp
  | some r =>
    have hkey : r.reactionKey = k := Table.key_of_get hk
    by_cases hx : k = x
    · rw [if_pos hx, Option.filter_some_neg (by simp [hkey, hx])]
      rfl
    · rw [if_neg hx, Option.filter_some_pos (by simp [hkey, hx])]

theorem Shows.apply (h : Shows reactions a f) (he : a.Allows user e) :
    Shows (applyReactionUpdate user e reactions) (a.move user e) fun k =>
      if e.userId = user ∧ k = e.reactionKey then e.added else f k := by
  obtain ⟨x, userId, added⟩ := e
  have hx := h x
  intro k
  have hk := h k
  unfold applyReactionUpdate Tally.move
  unfold Tally.Allows at he
  dsimp only at he ⊢
  cases hget : reactions.get x with
  | none =>
    have hnone : shown reactions x = (0, false) := by
      unfold shown
      rw [hget]
      rfl
    rw [hnone, Prod.mk.injEq] at hx
    obtain ⟨hcount, hown⟩ := hx
    cases added with
    | true =>
      have hput (isSelf : Bool) : Table.insert reactions ⟨x, 1, isSelf⟩ =
          Table.put reactions ⟨x, 1, isSelf⟩ := (Table.put_of_none hget).symm
      rw [if_pos rfl, hput, shown_put]
      by_cases hkx : k = x
      · subst hkx
        by_cases hself : userId = user
        · simp [hself]
          omega
        · simp [hself, ← hown]
          omega
      · simp [hkx, hk]
    | false =>
      rw [if_neg Bool.false_ne_true, hk]
      by_cases hkx : k = x
      · subst hkx
        by_cases hself : userId = user
        · simp [hself, ← hown]
        · have hpos := he hself rfl
          omega
      · simp [hkx]
  | some existing =>
    have hexisting : shown reactions x = (existing.count, existing.hasSelf) := by
      unfold shown
      rw [hget]
      rfl
    have hkey : existing.reactionKey = x := Table.key_of_get hget
    rw [hexisting, Prod.mk.injEq] at hx
    obtain ⟨hcount, hown⟩ := hx
    have hrow : ∀ count hasSelf, shown (reactions.put { existing with count, hasSelf }) k =
        if k = x then (count, hasSelf) else shown reactions k := fun count hasSelf => by
      rw [shown_put, hkey]
    dsimp only
    rw [hcount, hown]
    cases added with
    | true =>
      rw [if_pos rfl, hrow]
      by_cases hkx : k = x
      · subst hkx
        by_cases hself : userId = user
        · cases hf : f k <;> simp [hself]
        · simp [hself]
          omega
      · simp [hkx, hk]
    | false =>
      have hless (next : ℤ) (hasSelf : Bool) : shown (if next = 0 then reactions.delete x
          else reactions.put { existing with count := next, hasSelf }) k =
            if k = x then (next, !decide (next = 0) && hasSelf) else shown reactions k := by
        by_cases hnext : next = 0
        · rw [if_pos hnext, shown_delete]
          simp [hnext]
        · rw [if_neg hnext, hrow]
          simp [hnext]
      rw [if_neg Bool.false_ne_true, hless]
      by_cases hkx : k = x
      · subst hkx
        by_cases hself : userId = user
        · cases hf : f k <;> simp [hself]
        · have hpos := he hself rfl
          cases hf : f k <;> simp [hself]
          all_goals omega
      · simp [hkx, hk]

/-! ## What every act keeps -/

/-- The cache, once the event is written that is being counted. -/
def ReactionWorld.present (user : Uuid) (w : ReactionWorld) : CachedReactions :=
  match w.applying with
  | none => w.cached
  | some r => applyReactionUpdate user r.2 r.1

/-- The cache has the others of a tally that the events lead from to the server's, and the user's
own reactions where no event of theirs is on its way; an answer has what the events that it follows
lead to. -/
structure Counted (messageId user : Uuid) (w : ReactionWorld) (a : Tally) (f : String → Bool) :
    Prop where
  shows : Shows (w.present user) a f
  trail : Trail user a w.events
  server : a.moves user w.events = tally messageId user w.server
  own : ∀ k, (∀ e ∈ w.events, e.userId = user → e.reactionKey ≠ k) →
    f k = (tally messageId user w.server k).2
  responses : ∀ r ∈ w.responses, w.handled ≤ r.2 → r.2 ≤ w.handled + w.events.length ∧
    Shows r.1 (a.moves user (w.events.take (r.2 - w.handled))) fun k =>
      (a.moves user (w.events.take (r.2 - w.handled)) k).2

theorem Counted.accept (h : Counted messageId user w a f)
    (hmove : tally messageId user t = (tally messageId user w.server).move user e)
    (he : (tally messageId user w.server).Allows user e) :
    Counted messageId user (w.accept messageId user t e true) a f := by
  have hmoves : a.moves user (w.events ++ [e]) = tally messageId user t := by
    rw [hmove, ← h.server]
    unfold Tally.moves
    rw [foldl_append]
    rfl
  have hold : ∀ r ∈ w.responses, w.handled ≤ r.2 →
      r.2 ≤ w.handled + (w.events ++ [e]).length ∧
      Shows r.1 (a.moves user ((w.events ++ [e]).take (r.2 - w.handled))) fun k =>
        (a.moves user ((w.events ++ [e]).take (r.2 - w.handled)) k).2 := by
    intro r hr hle
    obtain ⟨hlength, hshows⟩ := h.responses r hr hle
    rw [take_append_of_le_length (by omega), length_append]
    exact ⟨by omega, hshows⟩
  refine ⟨h.shows, trail_snoc h.trail (h.server ▸ he), hmoves, fun k hk => ?_, fun r hr => ?_⟩
  · rw [h.own k fun x hx => hk x (mem_append_left _ hx), ← h.server,
      show tally messageId user (w.accept messageId user t e true).server = _ from hmoves.symm]
    unfold Tally.moves
    rw [foldl_append]
    have hlast : ∀ x ∈ [e], x.userId = user → x.reactionKey ≠ k := fun x hx =>
      hk x (mem_append_right _ hx)
    exact (moves_own hlast).symm
  · unfold ReactionWorld.accept at hr
    dsimp only at hr
    split at hr
    · rcases mem_append.1 hr with hr | hr
      · exact hold r hr
      · obtain rfl := mem_singleton.1 hr
        intro _
        refine ⟨le_rfl, ?_⟩
        have hall : (w.events ++ [e]).take (w.handled + (w.events ++ [e]).length - w.handled) =
            w.events ++ [e] := take_of_length_le (by omega)
        have hshows : Shows (aggregate t messageId user) (a.moves user (w.events ++ [e])) fun k =>
            (a.moves user (w.events ++ [e]) k).2 := by
          rw [hmoves]
          exact shows_aggregate
        rw [← hall] at hshows
        exact hshows
    · exact hold r hr

/-- The app begins to count an event. -/
theorem Counted.begin (h : Counted messageId user w a f) (hnone : w.applying = none)
    (hevents : w.events = e :: events) : Counted messageId user
      { w with events, handled := w.handled + 1, applying := some (w.cached, e) }
      (a.move user e) fun k => if e.userId = user ∧ k = e.reactionKey then e.added else f k := by
  have hshows := h.shows
  have htrail := h.trail
  have hserver := h.server
  unfold ReactionWorld.present at hshows
  rw [hnone] at hshows
  rw [hevents] at htrail hserver
  refine ⟨hshows.apply htrail.1, htrail.2, hserver, fun k hk => ?_, fun r hr hle => ?_⟩
  · rw [← hserver]
    refine Eq.trans ?_ (moves_own hk).symm
    unfold Tally.move
    by_cases hself : e.userId = user ∧ k = e.reactionKey
    · rw [if_pos hself, if_pos hself.2, if_pos hself.1]
    · have hown : f k = (a k).2 := by
        have hfree : ∀ x ∈ e :: events, x.userId = user → x.reactionKey ≠ k := by
          intro x hx
          rcases mem_cons.1 hx with rfl | hx
          · exact fun hx hk => hself ⟨hx, hk.symm⟩
          · exact hk x hx
        rw [h.own k (hevents ▸ hfree), ← hserver]
        exact moves_own hfree
      rw [if_neg hself, hown]
      split
      · rename_i hkey
        rw [if_neg fun hx => hself ⟨hx, hkey⟩]
      · rfl
  · have hlater : w.handled + 1 ≤ r.2 := hle
    obtain ⟨hlength, hresponse⟩ := h.responses r hr (by omega)
    have hsucc : r.2 - w.handled = r.2 - (w.handled + 1) + 1 := by omega
    rw [hevents, hsucc, take_succ_cons] at hresponse
    rw [hevents, length_cons] at hlength
    exact ⟨by show r.2 ≤ w.handled + 1 + events.length; omega, hresponse⟩

theorem Counted.respond {r : CachedReactions × ℕ} (h : Counted messageId user w a f)
    (hr : r ∈ w.responses) (hnone : w.applying = none) (hle : w.handled ≤ r.2)
    (hself : ∀ e ∈ w.events.take (r.2 - w.handled), e.userId = user)
    {responses : List (CachedReactions × ℕ)} (hsub : ∀ x ∈ responses, x ∈ w.responses) :
    Counted messageId user { w with responses, cached := r.1 } a fun k =>
      (a.moves user (w.events.take (r.2 - w.handled)) k).2 := by
  have hpresent : ({ w with responses, cached := r.1 } : ReactionWorld).present user = r.1 := by
    unfold ReactionWorld.present
    rw [hnone]
  refine ⟨fun k => ?_, h.trail, h.server, fun k hk => ?_, fun x hx => h.responses x (hsub x hx)⟩
  · rw [hpresent, (h.responses r hr hle).2 k, moves_others hself]
  · rw [moves_own fun x hx => hk x (mem_of_mem_take hx), ← h.server]
    exact (moves_own hk).symm

theorem counted_step {x : ReactionAct} (h : ∃ a f, Counted messageId user w a f)
    (hG : Orderly messageId user w x) (hact : reactionAct messageId user w x = some w') :
    ∃ a f, Counted messageId user w' a f := by
  obtain ⟨a, f, h⟩ := h
  cases x with
  | add userId reactionKey now published =>
    obtain ⟨rfl, hnew⟩ := hG
    cases hact
    exact ⟨a, f, h.accept (tally_add hnew) nofun⟩
  | remove userId reactionKey now published =>
    obtain rfl : published = true := hG
    cases hact
    cases hlive : w.server.isLive messageId userId reactionKey with
    | true =>
      obtain ⟨hallows, hmove⟩ := tally_remove hlive user now
      rw [if_pos (Reactions.removeReaction_of_isLive hlive now user reactionKey).1]
      exact ⟨a, f, h.accept hmove hallows⟩
    | false =>
      rw [Reactions.removeReaction_of_not_isLive hlive, if_neg Bool.false_ne_true]
      exact ⟨a, f, h⟩
  | read =>
    simp only [reactionAct] at hact
    split at hact
    · rename_i e events hnone hevents
      cases hact
      exact ⟨_, _, h.begin hnone hevents⟩
    · cases hact
  | write =>
    obtain ⟨r, hr, rfl⟩ := Option.map_eq_some_iff.1 hact
    refine ⟨a, f, ?_, h.trail, h.server, h.own, h.responses⟩
    have hshows := h.shows
    unfold ReactionWorld.present at hshows
    rw [hr] at hshows
    exact hshows
  | respond i =>
    obtain ⟨r, hr, rfl⟩ := Option.map_eq_some_iff.1 hact
    obtain ⟨hnone, hall⟩ := hG
    obtain ⟨hle, hself⟩ := hall r hr
    exact ⟨a, _, h.respond (mem_of_getElem? hr) hnone hle hself fun x hx =>
      mem_of_mem_eraseIdx hx⟩

end

def thumb : ReactionAct := .add 2 "👍" 0 true

end RedcodeIm.Android
