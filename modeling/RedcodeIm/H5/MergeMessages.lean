import Mathlib.Data.List.Induction
import RedcodeIm.H5.Messages

/-!
# Merging messages

What a merge makes of the messages of a room and of those that come in.

* `Passed` — the batches that the store merges: messages of the server's, or one that is being
  sent.
* `Merges` — what a merge is to do.
* `Matched` — no message is taken for the copy of another one that was sent.
* `merge_messages` — a merge does what it is to do just where that is so.

Pending messages have no id of the server's, and are found by their room, sender, text and quoted
message.  A message that comes in therefore ends every pending one that reads as it does: two
that were sent with one text both go with the first of their copies.
-/

namespace RedcodeIm.H5

open SortBy ChatMessage Table

/-! ## The messages by their ids -/

/-- The message is the last one of its id in the list. -/
def Last (xs : List ChatMessage) (m : ChatMessage) : Prop :=
  xs.reverse.find? (fun x => x.id = m.id) = some m

theorem byIdOf_append (xs : List ChatMessage) (x : ChatMessage) :
    byIdOf (xs ++ [x]) = if x.id = "" then byIdOf xs else (byIdOf xs).put x := by
  simp [byIdOf]

theorem get_byIdOf {k : String} (hk : k ≠ "") (xs : List ChatMessage) :
    (byIdOf xs).get k = xs.reverse.find? fun x => x.id = k := by
  induction xs using List.reverseRecOn with
  | nil => rfl
  | append_singleton xs x ih =>
    rw [byIdOf_append, List.reverse_append]
    by_cases hx : x.id = ""
    · have hne : ¬ x.id = k := fun h => hk (h ▸ hx)
      rw [if_pos hx, ih]
      simp [hne]
    · rw [if_neg hx, get_put, ih]
      by_cases hxk : x.id = k
      · simp [hxk]
      · simp [hxk]

theorem get_byIdOf_empty (xs : List ChatMessage) : (byIdOf xs).get "" = none := by
  induction xs using List.reverseRecOn with
  | nil => rfl
  | append_singleton xs x ih =>
    rw [byIdOf_append]
    by_cases hx : x.id = ""
    · rw [if_pos hx, ih]
    · rw [if_neg hx, get_put, if_neg hx, ih]

theorem last_iff {xs : List ChatMessage} {m : ChatMessage} (hm : m.id ≠ "") :
    Last xs m ↔ (byIdOf xs).get m.id = some m := by
  rw [get_byIdOf hm]
  rfl

/-- Messages with ids of their own are all kept, in their order. -/
theorem rows_byIdOf {xs : List ChatMessage} (hnodup : (xs.map ChatMessage.id).Nodup)
    (hids : ∀ x ∈ xs, x.id ≠ "") : (byIdOf xs).rows = xs := by
  induction xs using List.reverseRecOn with
  | nil => rfl
  | append_singleton xs x ih =>
    rw [List.map_append, List.map_singleton, List.nodup_append] at hnodup
    obtain ⟨hxs, -, hdisjoint⟩ := hnodup
    have hrows := ih hxs fun y hy => hids y (List.mem_append_left _ hy)
    have hnone : (byIdOf xs).get x.id = none := by
      refine get_eq_none_iff.2 fun y hy => ?_
      rw [hrows] at hy
      exact hdisjoint _ (List.mem_map_of_mem hy) _ (List.mem_singleton_self _)
    rw [byIdOf_append, if_neg (hids x (by simp)), put_of_none hnone,
      rows_insert_of_none hnone, hrows]

theorem ne_empty_of_isLocal {m : ChatMessage} (h : m.isLocal = true) : m.id ≠ "" := by
  intro hid
  rw [isLocal, hid] at h
  exact absurd h (by decide)

/-! ## A batch -/

section

variable {byId : ById} {batch : List ChatMessage}

/-- A message that none of the batch has the id of stays, unless it is pending and one of the
batch matches it. -/
theorem get_absorbAll_of_ne {k : String} (hids : ∀ m ∈ batch, m.id ≠ "")
    (hk : ∀ m ∈ batch, m.id ≠ k) : (batch.foldl ById.absorb byId).get k =
      (byId.get k).filter fun p => batch.all fun m => !matchesPending p m := by
  induction batch generalizing byId with
  | nil =>
    show byId.get k = _
    cases byId.get k <;> rfl
  | cons m batch ih =>
    rw [List.foldl_cons, ih (fun x hx => hids x (List.mem_cons_of_mem _ hx))
      (fun x hx => hk x (List.mem_cons_of_mem _ hx)),
      get_absorb_ne (hids m List.mem_cons_self) (hk m List.mem_cons_self), Option.filter_filter]
    rfl

/-- The messages of the batch with one id, merged one after another. -/
def spreadAll (previous : Option ChatMessage) (ms : List ChatMessage) : Option ChatMessage :=
  ms.foldl (fun previous m => some (m.onto previous)) previous

/-- A message of the server's has those of its id merged into it. -/
theorem get_absorbAll_of_not_local {k : String} (hids : ∀ m ∈ batch, m.id ≠ "")
    (hk : isLocalId k = false) : (batch.foldl ById.absorb byId).get k =
      spreadAll (byId.get k) (batch.filter fun m => m.id = k) := by
  induction batch generalizing byId with
  | nil => rfl
  | cons m batch ih =>
    have hm : m.id ≠ "" := hids m List.mem_cons_self
    rw [List.foldl_cons, ih fun x hx => hids x (List.mem_cons_of_mem _ hx)]
    by_cases hmk : m.id = k
    · subst hmk
      rw [get_absorb_self hm, get_settle_of_not_local hk, List.filter_cons_of_pos (by simp)]
      rfl
    · have hget : (byId.absorb m).get k = byId.get k := by
        rw [get_absorb_ne hm hmk, ← get_filter]
        exact get_settle_of_not_local hk
      rw [hget, List.filter_cons_of_neg (by simpa using hmk)]

theorem spread_foldl (p : ChatMessage) (m : ChatMessage) (ms : List ChatMessage) :
    ms.foldl spread (p.spread m) = p.spread (ms.foldl spread m) := by
  induction ms generalizing m with
  | nil => rfl
  | cons x ms ih => rw [List.foldl_cons, spread_assoc, ih]; rfl

theorem spreadAll_some (p : ChatMessage) (ms : List ChatMessage) :
    spreadAll (some p) ms = some (ms.foldl spread p) := by
  induction ms generalizing p with
  | nil => rfl
  | cons m ms ih => exact ih (p.spread m)

/-- Merging the same messages once more changes nothing. -/
theorem foldl_spread_of_spreadAll {previous : Option ChatMessage} {x : ChatMessage}
    {ms : List ChatMessage} (h : spreadAll previous ms = some x) :
    ms.foldl spread x = x := by
  cases ms with
  | nil => rfl
  | cons m ms =>
    -- what the messages make together, on whatever they are merged into
    have hx : ∃ y : ChatMessage, x = y.spread (ms.foldl spread m) ∨
        x = ms.foldl spread m := by
      change spreadAll (some (m.onto previous)) ms = some x at h
      rw [spreadAll_some] at h
      cases h
      cases previous with
      | none => exact ⟨m, .inr rfl⟩
      | some p => exact ⟨p, .inl (spread_foldl p m ms)⟩
    rw [List.foldl_cons, spread_foldl]
    rcases hx with ⟨y, rfl | rfl⟩
    · rw [spread_assoc, spread_self]
    · rw [spread_self]

/-- Where the batch is there already and matches no pending message, it is merged in place. -/
theorem rows_absorbAll (hids : ∀ m ∈ batch, m.id ≠ "") (hlocal : ∀ m ∈ batch, m.isLocal = false)
    (hthere : ∀ m ∈ batch, byId.get m.id ≠ none)
    (hfree : ∀ p ∈ byId.rows, ∀ m ∈ batch, matchesPending p m = false) :
    (batch.foldl ById.absorb byId).rows = byId.rows.map fun x =>
      (batch.filter fun m => m.id = x.id).foldl spread x := by
  induction batch generalizing byId with
  | nil => simp
  | cons m batch ih =>
    have hm : m.id ≠ "" := hids m List.mem_cons_self
    have hsettle : byId.settle m = byId := by
      refine eq_of_rows_eq (List.filter_eq_self.2 fun p hp => ?_)
      rw [hfree p hp m List.mem_cons_self]
      rfl
    obtain ⟨c, hc⟩ := Option.ne_none_iff_exists'.1 (hthere m List.mem_cons_self)
    have hrows : (byId.absorb m).rows =
        byId.rows.map fun x => if x.id = m.id then x.spread m else x := by
      have hput := rows_put_of_some (t := byId) (r := m.onto (some c)) hc
      rw [absorb_of_id_ne hm, hsettle, hc, hput]
      refine List.map_congr_left fun x hx => ?_
      rw [id_onto]
      by_cases hxm : x.id = m.id
      · have hxc : x = c := Option.some.inj ((get_of_mem hx).symm.trans (hxm ▸ hc))
        rw [if_pos hxm, if_pos hxm, hxc]
        rfl
      · rw [if_neg hxm, if_neg hxm]
    have hthere' : ∀ x ∈ batch, (byId.absorb m).get x.id ≠ none := by
      intro x hx
      by_cases hxm : m.id = x.id
      · rw [← hxm, get_absorb_self hm]
        exact Option.some_ne_none _
      · rw [get_absorb_ne hm hxm, ← get_filter]
        change (byId.settle m).get x.id ≠ none
        rw [hsettle]
        exact hthere x (List.mem_cons_of_mem _ hx)
    have hfree' : ∀ p ∈ (byId.absorb m).rows, ∀ x ∈ batch, matchesPending p x = false := by
      intro p hp x hx
      rw [hrows] at hp
      obtain ⟨y, hy, rfl⟩ := List.mem_map.1 hp
      split
      · exact matchesPending_eq_false (hlocal m List.mem_cons_self)
      · exact hfree y hy x (List.mem_cons_of_mem _ hx)
    rw [List.foldl_cons, ih (fun x hx => hids x (List.mem_cons_of_mem _ hx))
      (fun x hx => hlocal x (List.mem_cons_of_mem _ hx)) hthere' hfree', hrows, List.map_map]
    refine List.map_congr_left fun x _ => ?_
    by_cases hxm : x.id = m.id
    · simp only [Function.comp_apply, if_pos hxm, id_spread]
      rw [List.filter_cons_of_pos (by simp [hxm]), hxm]
      rfl
    · simp only [Function.comp_apply, if_neg hxm]
      rw [List.filter_cons_of_neg (by simpa using Ne.symm hxm)]

end

/-! ## What a merge is to do -/

/-- The batches that the store merges: messages of the server's, or one message that is being sent,
under an id of its own. -/
def Passed (current incoming : List ChatMessage) : Prop :=
  (∀ m ∈ incoming, m.isLocal = false) ∨
    ∃ l, incoming = [l] ∧ l.isLocal = true ∧ ∀ p ∈ current, p.id ≠ l.id

/-- A message of the server's in the batch is the copy of the pending one. -/
def Copied (copyOf : ChatMessage → Option String) (incoming : List ChatMessage)
    (p : ChatMessage) : Prop :=
  ∃ m ∈ incoming, m.isLocal = false ∧ copyOf m = some p.id

/-- The pending messages that go when a message comes in. -/
def ById.gone (byId : ById) (m : ChatMessage) : List ChatMessage :=
  byId.rows.filter fun p => p.isLocal && (byId.absorb m).get p.id = none

/-- What a merge is to do; `copyOf` tells which pending message a message of the server's is the
copy of. -/
structure Merges (copyOf : ChatMessage → Option String) (current incoming : List ChatMessage) :
    Prop where
  nodup : ((mergeMessages current incoming).map ChatMessage.id).Nodup
  sorted : (mergeMessages current incoming).Pairwise fun a b => a.timestamp ≤ b.timestamp
  /-- Every message that comes in is there, and the last one of an id as it came in. -/
  arrived : ∀ m ∈ incoming, ∃ r ∈ mergeMessages current incoming,
    r.id = m.id ∧ (Last incoming m → r.spread m = r)
  /-- Every message of the server's that was there stays, unless one of its id comes in. -/
  kept : ∀ m, Last current m → m.id ≠ "" → m.isLocal = false →
    (∀ x ∈ incoming, x.id ≠ m.id) → m ∈ mergeMessages current incoming
  /-- Every message that is pending, or that failed, stays until its copy comes in. -/
  pending : ∀ p, Last current p → p.isLocal = true →
    p ∈ mergeMessages current incoming ∨ Copied copyOf incoming p
  /-- At most one pending message goes with each message that comes in. -/
  one : ∀ before m after, incoming = before ++ m :: after →
    (((before.foldl ById.absorb (byIdOf current)).gone m).length ≤ 1)
  again : mergeMessages (mergeMessages current incoming) incoming = mergeMessages current incoming

/-- No message is taken for the copy of one that it is not the copy of. -/
structure Matched (copyOf : ChatMessage → Option String) (current incoming : List ChatMessage) :
    Prop where
  ids : ∀ m ∈ incoming, m.id ≠ ""
  /-- A pending message that reads like one that comes in has its copy in the batch. -/
  copied : ∀ p, Last current p → p.isLocal = true → ∀ m ∈ incoming, m.likeness = p.likeness →
    Copied copyOf incoming p
  /-- No two pending messages read like one that comes in. -/
  one : ∀ p p', Last current p → p.isLocal = true → Last current p' → p'.isLocal = true →
    ∀ m ∈ incoming, m.likeness = p.likeness → m.likeness = p'.likeness → p = p'

/-! ## What is there afterwards -/

section

variable {copyOf : ChatMessage → Option String} {current incoming : List ChatMessage}

variable {m : ChatMessage}

theorem mem_mergeMessages : m ∈ mergeMessages current incoming ↔
    (incoming.foldl ById.absorb (byIdOf current)).get m.id = some m := by
  unfold mergeMessages
  rw [mem_sortBy, mem_iff_get]

variable {byId : ById}

theorem get_absorbAll_empty (batch : List ChatMessage) (h : byId.get "" = none) :
    (batch.foldl ById.absorb byId).get "" = none := by
  induction batch generalizing byId with
  | nil => exact h
  | cons m batch ih =>
    refine ih ?_
    by_cases hm : m.id = ""
    · rw [absorb_of_id_eq hm, h]
    · rw [get_absorb_ne hm hm, h]
      rfl

theorem id_ne_of_mem_mergeMessages (h : m ∈ mergeMessages current incoming) : m.id ≠ "" := by
  intro hm
  have hget := mem_mergeMessages.1 h
  rw [hm, get_absorbAll_empty incoming (get_byIdOf_empty current)] at hget
  cases hget

theorem nodup_mergeMessages (current incoming : List ChatMessage) :
    ((mergeMessages current incoming).map ChatMessage.id).Nodup :=
  (((sortBy_perm _ _).map _).nodup_iff).2 (incoming.foldl ById.absorb (byIdOf current)).nodup

theorem mem_of_last (h : Last current m) : m ∈ current :=
  List.mem_reverse.1 (List.mem_of_find?_eq_some h)

theorem filter_of_last (h : Last incoming m) :
    ∃ ms, incoming.filter (fun x => x.id = m.id) = ms ++ [m] := by
  unfold Last at h
  rw [← List.head?_filter, List.filter_reverse, List.head?_reverse] at h
  exact List.getLast?_eq_some_iff.1 h

namespace Passed

variable (hpassed : Passed current incoming)

include hpassed

/-- No message of the batch has the id of a pending one. -/
theorem id_ne {p : ChatMessage} (hp : p ∈ current) (hlocal : p.isLocal = true) :
    ∀ m ∈ incoming, m.id ≠ p.id := by
  intro m hm hid
  rcases hpassed with hserver | ⟨l, rfl, -, hfresh⟩
  · have hfalse := hserver m hm
    rw [isLocal, hid] at hfalse
    exact absurd hlocal (by rw [isLocal, hfalse]; exact Bool.false_ne_true)
  · rw [List.mem_singleton.1 hm] at hid
    exact hfresh p hp hid.symm

/-- A message that is being sent has no other one of the batch before it. -/
theorem before_not_local {before after : List ChatMessage} {m : ChatMessage}
    (heq : incoming = before ++ m :: after) : ∀ x ∈ before, x.isLocal = false := by
  intro x hx
  rcases hpassed with hserver | ⟨l, hl, -, -⟩
  · exact hserver x (by rw [heq]; exact List.mem_append_left _ hx)
  · cases before with
    | nil => cases hx
    | cons y before =>
      have hlength := congrArg List.length (heq.symm.trans hl)
      simp at hlength

end Passed

variable {p : ChatMessage}

/-- A pending message stays until one that reads like it comes in. -/
theorem get_pending {batch : List ChatMessage} (hlast : Last current p) (hlocal : p.isLocal = true)
    (hids : ∀ m ∈ batch, m.id ≠ "") (hne : ∀ m ∈ batch, m.id ≠ p.id) :
    (batch.foldl ById.absorb (byIdOf current)).get p.id =
      if ∃ m ∈ batch, m.likeness = p.likeness then none else some p := by
  rw [get_absorbAll_of_ne hids hne, (last_iff (ne_empty_of_isLocal hlocal)).1 hlast]
  split
  · rename_i h
    obtain ⟨m, hm, hlike⟩ := h
    refine Option.filter_some_neg ?_
    refine List.all_eq_false.2 ⟨m, hm, ?_⟩
    rw [(matchesPending_iff hlocal).2 hlike]
    decide
  · rename_i h
    refine Option.filter_some_pos (List.all_eq_true.2 fun m hm => ?_)
    cases hmatch : matchesPending p m with
    | false => rfl
    | true => exact absurd ⟨m, hm, (matchesPending_iff hlocal).1 hmatch⟩ h

/-! ## Pending messages -/

variable {before after : List ChatMessage}

/-- A pending message that goes with another one reads like it. -/
theorem gone_last (hpassed : Passed current incoming) (hids : ∀ m ∈ incoming, m.id ≠ "")
    (heq : incoming = before ++ m :: after)
    (hp : p ∈ (before.foldl ById.absorb (byIdOf current)).gone m) :
    (Last current p ∧ p.isLocal = true) ∧ m.likeness = p.likeness := by
  obtain ⟨hmem, hgone⟩ := List.mem_filter.1 hp
  rw [Bool.and_eq_true, decide_eq_true_iff] at hgone
  obtain ⟨hlocal, hgone⟩ := hgone
  have hbefore : ∀ x ∈ before, x ∈ incoming := fun x hx => by
    rw [heq]
    exact List.mem_append_left _ hx
  have hm : m ∈ incoming := by
    rw [heq]
    exact List.mem_append_right _ List.mem_cons_self
  have hne : ∀ x ∈ before, x.id ≠ p.id := by
    intro x hx hid
    have hfalse := hpassed.before_not_local heq x hx
    rw [isLocal, hid] at hfalse
    rw [isLocal, hfalse] at hlocal
    cases hlocal
  have hget := get_of_mem hmem
  have hbase := hget
  rw [get_absorbAll_of_ne (fun x hx => hids x (hbefore x hx)) hne] at hbase
  have hlast : Last current p :=
    (last_iff (ne_empty_of_isLocal hlocal)).2 (Option.filter_eq_some_iff.1 hbase).1
  refine ⟨⟨hlast, hlocal⟩, ?_⟩
  have hmp : m.id ≠ p.id := by
    intro hid
    rw [← hid, get_absorb_self (hids m hm)] at hgone
    cases hgone
  rw [get_absorb_ne (hids m hm) hmp, hget, Option.filter_some] at hgone
  split at hgone
  · cases hgone
  · rename_i hmatch
    exact (matchesPending_iff hlocal).1 (by simpa using hmatch)

/-- The first message that reads like a pending one ends it. -/
theorem mem_gone (hpassed : Passed current incoming) (hids : ∀ m ∈ incoming, m.id ≠ "")
    (heq : incoming = before ++ m :: after) (hfirst : ∀ x ∈ before, x.likeness ≠ p.likeness)
    (hlast : Last current p) (hlocal : p.isLocal = true) (hlike : m.likeness = p.likeness) :
    p ∈ (before.foldl ById.absorb (byIdOf current)).gone m := by
  have hbefore : ∀ x ∈ before, x ∈ incoming := fun x hx => by
    rw [heq]
    exact List.mem_append_left _ hx
  have hm : m ∈ incoming := by
    rw [heq]
    exact List.mem_append_right _ List.mem_cons_self
  have hne := hpassed.id_ne (mem_of_last hlast) hlocal
  have hget : (before.foldl ById.absorb (byIdOf current)).get p.id = some p := by
    rw [get_pending hlast hlocal (fun x hx => hids x (hbefore x hx))
      (fun x hx => hne x (hbefore x hx)), if_neg]
    rintro ⟨x, hx, heq⟩
    exact hfirst x hx heq
  refine List.mem_filter.2 ⟨mem_of_get hget, ?_⟩
  rw [Bool.and_eq_true, decide_eq_true_iff]
  refine ⟨hlocal, ?_⟩
  have hmatch : matchesPending p m = true := (matchesPending_iff hlocal).2 hlike
  rw [get_absorb_ne (hids m hm) (hne m hm), hget, Option.filter_some, hmatch]
  rfl

/-- A list without repetitions has at most one element where all its elements are one. -/
theorem length_le_one {l : List ChatMessage} (hnodup : l.Nodup)
    (h : ∀ a ∈ l, ∀ b ∈ l, a = b) : l.length ≤ 1 := by
  cases l with
  | nil => exact Nat.zero_le 1
  | cons a l =>
    cases l with
    | nil => exact le_rfl
    | cons b l =>
      have hab : a = b := h a List.mem_cons_self b (List.mem_cons_of_mem _ List.mem_cons_self)
      exact absurd (hab ▸ List.mem_cons_self) (List.nodup_cons.1 hnodup).1

/-! ## Merging a batch once more -/

theorem rows_merged : (byIdOf (mergeMessages current incoming)).rows =
    mergeMessages current incoming :=
  rows_byIdOf (nodup_mergeMessages current incoming) fun _ => id_ne_of_mem_mergeMessages

theorem mergeMessages_of_rows {xs : List ChatMessage}
    (hsorted : xs = sortBy timestamp xs)
    (h : (incoming.foldl ById.absorb (byIdOf xs)).rows = xs) : mergeMessages xs incoming = xs := by
  unfold mergeMessages
  rw [h, ← hsorted]

theorem sorted_mergeMessages (current incoming : List ChatMessage) :
    mergeMessages current incoming =
      sortBy timestamp (mergeMessages current incoming) := sortBy_sortBy.symm

/-- A message of the server's that comes in is there afterwards. -/
theorem arrived_of_server (hids : ∀ m ∈ incoming, m.id ≠ "") (hm : m ∈ incoming)
    (hserver : m.isLocal = false) : ∃ r ∈ mergeMessages current incoming,
      r.id = m.id ∧ (Last incoming m → r.spread m = r) := by
  have hget : (incoming.foldl ById.absorb (byIdOf current)).get m.id =
      spreadAll ((byIdOf current).get m.id) (incoming.filter fun x => x.id = m.id) :=
    get_absorbAll_of_not_local hids hserver
  have hmem : m ∈ incoming.filter fun x => x.id = m.id := List.mem_filter.2 ⟨hm, by simp⟩
  cases hall : spreadAll ((byIdOf current).get m.id) (incoming.filter fun x => x.id = m.id) with
  | none =>
    rcases List.eq_nil_or_concat (incoming.filter fun x => x.id = m.id) with hnil | ⟨ms, x, hx⟩
    · rw [hnil] at hmem
      cases hmem
    · rw [hx, spreadAll, List.concat_eq_append, List.foldl_append] at hall
      cases hall
  | some r =>
    rw [hall] at hget
    have hr : r.id = m.id := key_of_get hget
    refine ⟨r, mem_mergeMessages.2 (by rw [hr, hget]), hr, ?_⟩
    intro hlast
    obtain ⟨ms, hms⟩ := filter_of_last hlast
    rw [hms, spreadAll, List.foldl_append] at hall
    cases hall
    cases List.foldl _ _ ms with
    | none => exact spread_self m
    | some y =>
      show (y.spread m).spread m = y.spread m
      rw [spread_assoc, spread_self]

/-- Merging a batch of the server's once more changes nothing. -/
theorem again_of_server (hids : ∀ m ∈ incoming, m.id ≠ "")
    (hserver : ∀ m ∈ incoming, m.isLocal = false) :
    mergeMessages (mergeMessages current incoming) incoming = mergeMessages current incoming := by
  refine mergeMessages_of_rows (sorted_mergeMessages current incoming) ?_
  have hlocal : ∀ p ∈ mergeMessages current incoming, p.isLocal = true →
      ∀ m ∈ incoming, m.id ≠ p.id := by
    intro p _ hp m hm hid
    have hfalse := hserver m hm
    rw [isLocal, hid] at hfalse
    exact absurd hp (by rw [isLocal, hfalse]; exact Bool.false_ne_true)
  rw [rows_absorbAll hids hserver, rows_merged]
  · refine (List.map_congr_left fun x hx => ?_).trans (List.map_id _)
    show List.foldl _ x _ = x
    have hget := mem_mergeMessages.1 hx
    cases hx' : isLocalId x.id with
    | false =>
      rw [get_absorbAll_of_not_local hids hx'] at hget
      exact foldl_spread_of_spreadAll hget
    | true =>
      rw [List.filter_eq_nil_iff.2 fun m hm => by simpa using hlocal x hx hx' m hm]
      rfl
  · intro m hm
    obtain ⟨r, hr, hid, -⟩ : ∃ r ∈ mergeMessages current incoming,
        r.id = m.id ∧ (Last incoming m → r.spread m = r) :=
      arrived_of_server hids hm (hserver m hm)
    rw [← rows_merged] at hr
    rw [← hid, get_of_mem hr]
    exact Option.some_ne_none r
  · intro p hp m hm
    rw [rows_merged] at hp
    cases hp' : p.isLocal with
    | false => exact matchesPending_eq_false hp'
    | true =>
      have hget := mem_mergeMessages.1 hp
      rw [get_absorbAll_of_ne hids (hlocal p hp hp')] at hget
      have hall := (Option.filter_eq_some_iff.1 hget).2
      simpa using List.all_eq_true.1 hall m hm

/-! ## A message that is being sent -/

variable {l : ChatMessage}

theorem matchesPending_self (hl : l.isLocal = true) :
    matchesPending l l = true := (matchesPending_iff hl).2 rfl

/-- It comes after those that do not read like it. -/
theorem rows_absorb_pending (hl : l.isLocal = true) (hnone : (byId.settle l).get l.id = none) :
    (byId.absorb l).rows = byId.rows.filter (fun p => !matchesPending p l) ++ [l] := by
  rw [absorb_of_id_ne (ne_empty_of_isLocal hl), hnone]
  show ((byId.settle l).put l).rows = _
  rw [put_of_none hnone, rows_insert_of_none hnone]
  rfl

theorem get_settle_self (hl : l.isLocal = true) (h : ∀ p, byId.get l.id = some p → p = l) :
    (byId.settle l).get l.id = none := by
  unfold ById.settle
  rw [get_filter]
  cases hg : byId.get l.id with
  | none => rfl
  | some p =>
    rw [h p hg, Option.filter_some, matchesPending_self hl]
    rfl

theorem get_fresh (hl : l.isLocal = true) (hfresh : ∀ p ∈ current, p.id ≠ l.id) :
    (byIdOf current).get l.id = none := by
  rw [get_byIdOf (ne_empty_of_isLocal hl), List.find?_eq_none]
  intro p hp
  simpa using hfresh p (List.mem_reverse.1 hp)

/-- Merging it once more changes nothing. -/
theorem again_of_pending (hl : l.isLocal = true) (hfresh : ∀ p ∈ current, p.id ≠ l.id) :
    mergeMessages (mergeMessages current [l]) [l] = mergeMessages current [l] := by
  have hfirst : ((byIdOf current).absorb l).rows =
      (byIdOf current).rows.filter (fun p => !matchesPending p l) ++ [l] := by
    refine rows_absorb_pending hl (get_settle_self hl fun p hp => ?_)
    rw [get_fresh hl hfresh] at hp
    cases hp
  have hmerged : mergeMessages current [l] = sortBy timestamp
      ((byIdOf current).rows.filter (fun p => !matchesPending p l) ++ [l]) := by
    rw [← hfirst]
    rfl
  have hagain : ((byIdOf (mergeMessages current [l])).absorb l).rows =
      (mergeMessages current [l]).filter (fun p => !matchesPending p l) ++ [l] := by
    rw [rows_absorb_pending hl, rows_merged]
    refine get_settle_self hl fun p hp => ?_
    have hmem : p ∈ mergeMessages current [l] := by
      rw [← rows_merged]
      exact mem_of_get hp
    rw [hmerged, mem_sortBy, List.mem_append] at hmem
    rcases hmem with hmem | hmem
    · have hpid : p.id = l.id := key_of_get hp
      have hold := get_of_mem (List.mem_filter.1 hmem).1
      rw [hpid, get_fresh hl hfresh] at hold
      cases hold
    · exact List.mem_singleton.1 hmem
  show sortBy timestamp ((byIdOf (mergeMessages current [l])).absorb l).rows = _
  rw [hagain]
  refine sortBy_eq_iff.2 ⟨?_, fun v => ?_⟩
  · exact pairwise_sortBy _ _
  · rw [List.filter_append, List.filter_comm, hmerged, filter_sortBy, List.filter_append,
      List.filter_append, List.filter_comm, List.filter_filter]
    have hout :
        ([l].filter fun m => m.timestamp = v).filter (fun p => !matchesPending p l) = [] := by
      rw [List.filter_eq_nil_iff]
      intro p hp
      rw [List.mem_singleton.1 (List.mem_filter.1 hp).1, matchesPending_self hl]
      decide
    rw [hout]
    simp

/-! ## The merge -/

theorem merges_of_matched (hpassed : Passed current incoming)
    (h : Matched copyOf current incoming) : Merges copyOf current incoming where
  nodup := nodup_mergeMessages current incoming
  sorted := pairwise_sortBy _ _
  arrived := by
    intro m hm
    rcases hpassed with hserver | ⟨l, rfl, hl, hfresh⟩
    · exact arrived_of_server h.ids hm (hserver m hm)
    · obtain rfl := List.mem_singleton.1 hm
      refine ⟨m, mem_mergeMessages.2 ?_, rfl, fun _ => spread_self m⟩
      show ((byIdOf current).absorb m).get m.id = some m
      rw [get_absorb_self (ne_empty_of_isLocal hl), get_settle_self hl]
      · rfl
      · intro p hp
        rw [get_fresh hl hfresh] at hp
        cases hp
  kept := by
    intro m hlast hid hserver hne
    rw [mem_mergeMessages, get_absorbAll_of_not_local h.ids hserver,
      (last_iff hid).1 hlast, List.filter_eq_nil_iff.2 fun x hx => by simpa using hne x hx]
    rfl
  pending := by
    intro p hlast hlocal
    by_cases hlike : ∃ m ∈ incoming, m.likeness = p.likeness
    · obtain ⟨m, hm, hlike⟩ := hlike
      exact .inr (h.copied p hlast hlocal m hm hlike)
    · refine .inl (mem_mergeMessages.2 ?_)
      rw [get_pending hlast hlocal h.ids (hpassed.id_ne (mem_of_last hlast) hlocal), if_neg hlike]
  one := by
    intro before m after heq
    have hm : m ∈ incoming := by
      rw [heq]
      exact List.mem_append_right _ List.mem_cons_self
    refine length_le_one ?_ fun a ha b hb => ?_
    · exact List.Nodup.filter _ (List.Nodup.of_map _ (nodup _))
    · obtain ⟨hlast, hlike⟩ := gone_last hpassed h.ids heq ha
      obtain ⟨hlast', hlike'⟩ := gone_last hpassed h.ids heq hb
      exact h.one a b hlast.1 hlast.2 hlast'.1 hlast'.2 m hm hlike hlike'
  again := by
    rcases hpassed with hserver | ⟨l, rfl, hl, hfresh⟩
    · exact again_of_server h.ids hserver
    · exact again_of_pending hl hfresh

theorem matched_of_merges (hpassed : Passed current incoming)
    (h : Merges copyOf current incoming) : Matched copyOf current incoming := by
  have hids : ∀ m ∈ incoming, m.id ≠ "" := by
    intro m hm hid
    obtain ⟨r, hr, hrid, -⟩ := h.arrived m hm
    exact id_ne_of_mem_mergeMessages hr (hrid.trans hid)
  refine ⟨hids, ?_, ?_⟩
  · intro p hlast hlocal m hm hlike
    refine (h.pending p hlast hlocal).resolve_left fun hmem => ?_
    rw [mem_mergeMessages, get_pending hlast hlocal hids
      (hpassed.id_ne (mem_of_last hlast) hlocal), if_pos ⟨m, hm, hlike⟩] at hmem
    cases hmem
  · intro p p' hlast hlocal hlast' hlocal' m hm hlike hlike'
    -- the first message of the batch that reads like both
    have hfound : (incoming.find? fun x => x.likeness = p.likeness).isSome := by
      rw [List.find?_isSome]
      exact ⟨m, hm, by simpa using hlike⟩
    obtain ⟨first, hfirst⟩ := Option.isSome_iff_exists.1 hfound
    obtain ⟨hlikeFirst, before, after, heq, hbefore⟩ := List.find?_eq_some_iff_append.1 hfirst
    have hlikeFirst : first.likeness = p.likeness := by simpa using hlikeFirst
    have hsame : p'.likeness = p.likeness := hlike'.symm.trans hlike
    have hbefore : ∀ x ∈ before, x.likeness ≠ p.likeness := by
      intro x hx
      simpa using hbefore x hx
    have hp := mem_gone hpassed hids heq hbefore hlast hlocal hlikeFirst
    have hp' := mem_gone hpassed hids heq (fun x hx => hsame ▸ hbefore x hx) hlast' hlocal'
      (hlikeFirst.trans hsame.symm)
    have hone := h.one before first after heq
    cases hgone : ((before.foldl ById.absorb (byIdOf current)).gone first) with
    | nil =>
      rw [hgone] at hp
      cases hp
    | cons a l =>
      rw [hgone] at hone hp hp'
      obtain rfl : l = [] := List.length_eq_zero_iff.1 (Nat.le_zero.1 (Nat.le_of_succ_le_succ hone))
      rw [List.mem_singleton.1 hp, List.mem_singleton.1 hp']

end

/-- **Merging messages.** A merge does what it is to do just where no pending message reads like
one that comes in and is not in the batch as its copy, and no two read like one that comes in. -/
theorem merge_messages (copyOf : ChatMessage → Option String) (current incoming : List ChatMessage)
    (hpassed : Passed current incoming) :
    Merges copyOf current incoming ↔ Matched copyOf current incoming :=
  ⟨matched_of_merges hpassed, merges_of_matched hpassed⟩

/-! ## One text sent twice -/

namespace MergeSample

def messageAt (id : String) (timestamp : ℤ) : ChatMessage :=
  { id, roomId := "r1", senderId := "u1", senderName := "我", content := "same payload"
    type := .text, timestamp }

/-- Two messages of one text that are being sent. -/
def current : List ChatMessage := [messageAt "local-1" 1, messageAt "local-2" 2]

/-- The copy of the first of them. -/
def incoming : List ChatMessage := [messageAt "server-1" 3]

def copyOf (m : ChatMessage) : Option String :=
  if m.id = "server-1" then some "local-1" else none

end MergeSample

open MergeSample

theorem merge_messages_sample : Passed [messageAt "local-1" 1] incoming ∧
    (Merges copyOf [messageAt "local-1" 1] incoming ↔
      Matched copyOf [messageAt "local-1" 1] incoming) := by
  have hpassed : Passed [messageAt "local-1" 1] incoming :=
    .inl (by decide +kernel)
  exact ⟨hpassed, merge_messages _ _ _ hpassed⟩

/-- The copy of the first message takes the second one with it. -/
theorem second_message_lost :
    ¬ Merges copyOf current incoming := by
  intro h
  have hlast : Last current (messageAt "local-2" 2) := by
    unfold Last
    decide +kernel
  rcases h.pending _ hlast (by decide +kernel) with hmem | ⟨m, hm, -, hcopy⟩
  · exact absurd hmem (by decide +kernel)
  · rw [List.mem_singleton.1 hm] at hcopy
    exact absurd hcopy (by decide +kernel)

end RedcodeIm.H5
