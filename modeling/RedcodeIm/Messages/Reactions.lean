import Mathlib.Data.List.Dedup
import Mathlib.Data.Prod.Lex
import Mathlib.Data.String.Basic
import RedcodeIm.Database.Models
import RedcodeIm.Lib.SortBy

/-!
# The store of reactions

`database/message_reaction_store.rs`.  A reaction that is removed stays as a row with a time of
deletion, and is restored when it is added again.

* `addReaction`, `removeReaction`, `getReactionSummaries` — the store.
* `isLive`, `others` — who reacts: a user, and how many of the others.
* `others_addReaction`, `others_removeReaction`, `count_summary` — what is counted.
-/

namespace RedcodeIm

open SortBy

/-- A row of `message_reactions`. -/
structure ReactionRow where
  messageId : Uuid
  userId : Uuid
  reactionKey : String
  createdAt : Timestamp
  deletedAt : Option Timestamp
  deriving DecidableEq

/-- The columns of the unique constraint. -/
def ReactionRow.key (row : ReactionRow) : Uuid × Uuid × String :=
  (row.messageId, row.userId, row.reactionKey)

abbrev Reactions : Type := Table ReactionRow.key

/-- `MessageReactionSummary` of the server. -/
structure ReactionSummary where
  reactionKey : String
  count : ℕ
  userIds : List Uuid
  hasSelf : Bool
  deriving DecidableEq

namespace Reactions

section

variable (t : Reactions) (messageId userId : Uuid) (reactionKey : String)

/-- `add_reaction`. -/
def addReaction (now : Timestamp) : Reactions :=
  match t.get (messageId, userId, reactionKey) with
  | some row =>
    if row.deletedAt.isSome then t.put { row with deletedAt := none, createdAt := now } else t
  | none => t.insert ⟨messageId, userId, reactionKey, now, none⟩

/-- `remove_reaction`, and whether there was one. -/
def removeReaction (now : Timestamp) : Reactions × Bool :=
  match t.get (messageId, userId, reactionKey) with
  | some row =>
    if row.deletedAt.isNone then (t.put { row with deletedAt := some now }, true) else (t, false)
  | none => (t, false)

/-- The reactions to a message that are not deleted. -/
def live : List ReactionRow :=
  t.rows.filter fun row => row.messageId = messageId && row.deletedAt.isNone

/-- One group of `get_reaction_summaries`. -/
def summary (currentUserId : Option Uuid) : ReactionSummary :=
  let group := (live t messageId).filter fun row => row.reactionKey = reactionKey
  let userIds := (sortBy ReactionRow.createdAt group).map ReactionRow.userId
  { reactionKey
    count := group.length
    userIds
    hasSelf := currentUserId.any fun uid => userIds.contains uid }

/-- `get_reaction_summaries`. -/
def getReactionSummaries (currentUserId : Option Uuid) : List ReactionSummary :=
  sortBy (fun s : ReactionSummary => toLex (-(s.count : ℤ), s.reactionKey))
    (((live t messageId).map ReactionRow.reactionKey).dedup.map fun reactionKey =>
      summary t messageId reactionKey currentUserId)

/-- The user has the reaction. -/
def isLive : Bool :=
  (t.get (messageId, userId, reactionKey)).any fun row => row.deletedAt.isNone

/-- How many users besides this one have the reaction. -/
def others : ℕ :=
  (live t messageId).countP fun row => row.reactionKey = reactionKey && row.userId ≠ userId

end

variable {t : Reactions} {messageId userId user : Uuid} {reactionKey k : String} {now : Timestamp}

theorem isLive_put {row : ReactionRow} (h : row.key = (messageId, userId, reactionKey)) :
    isLive (t.put row) messageId user k =
      if user = userId ∧ k = reactionKey then row.deletedAt.isNone
      else isLive t messageId user k := by
  unfold isLive
  rw [Table.get_put, h]
  by_cases hkey : user = userId ∧ k = reactionKey
  · obtain ⟨rfl, rfl⟩ := hkey
    simp
  · rw [if_neg hkey, if_neg fun heq => hkey ⟨(congrArg (·.2.1) heq).symm,
      (congrArg (·.2.2) heq).symm⟩]

/-- What a row that is written changes of a count. -/
theorem others_put {row row' : ReactionRow} (h : t.get (messageId, userId, reactionKey) = some row)
    (hkey : row'.key = row.key) :
    others (t.put row') messageId user k + (if row.deletedAt.isNone = true ∧ k = reactionKey ∧
      userId ≠ user then 1 else 0) = others t messageId user k +
        if row'.deletedAt.isNone = true ∧ k = reactionKey ∧ userId ≠ user then 1 else 0 := by
  have hrow : row.key = (messageId, userId, reactionKey) := Table.key_of_get h
  have hcount := Table.countP_put (t := t) (hrow ▸ h) hkey fun x =>
    (x.reactionKey = k && x.userId ≠ user) && (x.messageId = messageId && x.deletedAt.isNone)
  have hfields {x : ReactionRow} (hx : x.key = (messageId, userId, reactionKey)) :
      ((x.reactionKey = k && x.userId ≠ user) && (x.messageId = messageId && x.deletedAt.isNone)) =
        true ↔ x.deletedAt.isNone = true ∧ k = reactionKey ∧ userId ≠ user := by
    obtain ⟨rfl, rfl, rfl⟩ : x.messageId = messageId ∧ x.userId = userId ∧
        x.reactionKey = reactionKey :=
      ⟨congrArg (·.1) hx, congrArg (·.2.1) hx, congrArg (·.2.2) hx⟩
    simp only [Bool.and_eq_true, decide_eq_true_eq]
    tauto
  unfold others live
  rw [List.countP_filter, List.countP_filter]
  simpa only [hfields hrow, hfields (hkey.trans hrow)] using hcount

theorem addReaction_of_isLive (h : isLive t messageId userId reactionKey = true) :
    t.addReaction messageId userId reactionKey now = t := by
  unfold isLive at h
  unfold addReaction
  cases hget : t.get (messageId, userId, reactionKey) with
  | none =>
    rw [hget] at h
    cases h
  | some row =>
    rw [hget] at h
    exact if_neg (by simpa using h)

theorem isLive_addReaction :
    isLive (t.addReaction messageId userId reactionKey now) messageId user k =
      if user = userId ∧ k = reactionKey then true else isLive t messageId user k := by
  unfold addReaction
  cases hget : t.get (messageId, userId, reactionKey) with
  | none =>
    rw [← Table.put_of_none hget, isLive_put rfl]
    rfl
  | some row =>
    have hkey : row.key = _ := Table.key_of_get hget
    dsimp only
    split
    · exact isLive_put (show ReactionRow.key { row with deletedAt := none, createdAt := now } = _
        from hkey)
    · rename_i hlive
      split
      · rename_i hsame
        obtain ⟨rfl, rfl⟩ := hsame
        simpa [isLive, hget] using hlive
      · rfl

theorem others_addReaction (h : isLive t messageId userId reactionKey = false) :
    others (t.addReaction messageId userId reactionKey now) messageId user k =
      others t messageId user k + if k = reactionKey ∧ userId ≠ user then 1 else 0 := by
  unfold addReaction
  unfold isLive at h
  cases hget : t.get (messageId, userId, reactionKey) with
  | none =>
    unfold others live
    rw [List.countP_filter, List.countP_filter, Table.rows_insert_of_none hget, List.countP_append,
      List.countP_singleton]
    congr 1
    refine if_congr ?_ rfl rfl
    simp only [Option.isNone_none, Bool.and_eq_true, decide_eq_true_eq]
    tauto
  | some row =>
    rw [hget] at h
    have hsome : row.deletedAt.isSome = true := by simpa using h
    dsimp only
    rw [if_pos hsome]
    have hput := @others_put t messageId userId user reactionKey k row
      { row with deletedAt := none, createdAt := now } hget rfl
    simpa [Option.isSome_iff_ne_none.1 hsome] using hput

theorem removeReaction_of_isLive (h : isLive t messageId userId reactionKey = true)
    (now : Timestamp) (user : Uuid) (k : String) :
    (t.removeReaction messageId userId reactionKey now).2 = true ∧
    isLive (t.removeReaction messageId userId reactionKey now).1 messageId user k =
      (if user = userId ∧ k = reactionKey then false else isLive t messageId user k) ∧
    others (t.removeReaction messageId userId reactionKey now).1 messageId user k +
      (if k = reactionKey ∧ userId ≠ user then 1 else 0) = others t messageId user k := by
  unfold isLive at h
  cases hget : t.get (messageId, userId, reactionKey) with
  | none =>
    rw [hget] at h
    cases h
  | some row =>
    rw [hget] at h
    have hnone : row.deletedAt.isNone = true := h
    have hkey : row.key = _ := Table.key_of_get hget
    have hremoved : t.removeReaction messageId userId reactionKey now =
        (t.put { row with deletedAt := some now }, true) := by
      unfold removeReaction
      rw [hget]
      exact if_pos hnone
    have hput := @others_put t messageId userId user reactionKey k row
      { row with deletedAt := some now } hget rfl
    rw [hremoved]
    exact ⟨rfl, isLive_put (show ReactionRow.key { row with deletedAt := some now } = _
      from hkey), by simpa [hnone] using hput⟩

theorem removeReaction_of_not_isLive (h : isLive t messageId userId reactionKey = false) :
    t.removeReaction messageId userId reactionKey now = (t, false) := by
  unfold isLive at h
  unfold removeReaction
  cases hget : t.get (messageId, userId, reactionKey) with
  | none => rfl
  | some row =>
    rw [hget] at h
    exact if_neg (Bool.not_eq_true _ ▸ h)

/-! ## The summaries -/

theorem hasSelf_summary (t : Reactions) (messageId user : Uuid) (k : String) :
    (summary t messageId k (some user)).hasSelf = isLive t messageId user k := by
  rw [Bool.eq_iff_iff]
  unfold summary isLive live
  simp only [Option.any_some, List.contains_eq_mem, decide_eq_true_eq, List.mem_map, mem_sortBy,
    List.mem_filter, Option.any_eq_true, Bool.and_eq_true]
  constructor
  · rintro ⟨row, ⟨⟨hrow, rfl, hlive⟩, rfl⟩, rfl⟩
    exact ⟨row, Table.get_of_mem hrow, hlive⟩
  · rintro ⟨row, hget, hlive⟩
    have hkey : row.key = (messageId, user, k) := Table.key_of_get hget
    exact ⟨row, ⟨⟨Table.mem_of_get hget, congrArg (·.1) hkey, hlive⟩, congrArg (·.2.2) hkey⟩,
      congrArg (·.2.1) hkey⟩

theorem count_summary (t : Reactions) (messageId user : Uuid) (k : String) :
    (summary t messageId k (some user)).count =
    others t messageId user k + (isLive t messageId user k).toNat := by
  have hown : (live t messageId).countP (fun row => row.reactionKey = k && row.userId = user) =
      (isLive t messageId user k).toNat := by
    have hkey := Table.countP_key t (messageId, user, k) fun row => row.deletedAt.isNone
    unfold live
    rw [List.countP_filter]
    refine (List.countP_congr fun row _ => ?_).trans (hkey.trans ?_)
    · simp only [Bool.and_eq_true, decide_eq_true_eq, ReactionRow.key, Prod.mk.injEq]
      tauto
    · unfold isLive
      cases (t.get (messageId, user, k)).any fun row => row.deletedAt.isNone <;> rfl
  show ((live t messageId).filter fun row => row.reactionKey = k).length = _
  rw [← hown, ← List.countP_eq_length_filter, others,
    List.countP_eq_countP_filter_add _ _ fun row => decide (row.userId ≠ user), List.countP_filter,
    List.countP_filter]
  simp

end Reactions

end RedcodeIm
