import Mathlib.Data.List.Sort

/-!
# Feeds read through a cursor

A feed whose entries carry positions is read page by page: each page holds the first
entries after the position of the last entry read.  When the feed is in the order of its
positions and only ever grows at its end, the pages follow one another without gap or
repetition.

* `cursor` — the position of the last entry read, zero before the first.
* `pageAfter` — the page after a cursor.
* `append_page_prefix`, `append_page_eq` — a page continues what was read, and a short one
  completes it.
-/

namespace CursorFeed

open List

variable {α : Type} (position : α → ℕ)

/-- The position of the last entry read. -/
def cursor (seen : List α) : ℕ := (seen.getLast?.map position).getD 0

/-- At most `limit` entries of the feed, the first ones after the cursor. -/
def pageAfter (feed : List α) (after limit : ℕ) : List α :=
  (feed.filter fun e => decide (after < position e)).take limit

/-- The feed is in the order of its positions, which start at one. -/
structure Ordered (feed : List α) : Prop where
  sorted : feed.Pairwise fun a b => position a < position b
  positive : ∀ e ∈ feed, 0 < position e

variable {position}

variable {seen : List α}

/-- What is left of a feed after the cursor is what was not read. -/
theorem filter_after_cursor {rest : List α} (h : Ordered position (seen ++ rest)) :
    (seen ++ rest).filter (fun e => decide (cursor position seen < position e)) = rest := by
  obtain ⟨hseen, hrest, hcross⟩ := pairwise_append.1 h.sorted
  rcases eq_nil_or_concat seen with rfl | ⟨front, last, rfl⟩
  · rw [nil_append, filter_eq_self]
    intro e he
    exact decide_eq_true (h.positive e he)
  · have hlast : cursor position (front.concat last) = position last := by
      simp [cursor, concat_eq_append]
    rw [hlast, filter_append]
    have hnone : (front.concat last).filter (fun e => decide (position last < position e))
        = [] := by
      refine filter_eq_nil_iff.2 fun e he => ?_
      rw [concat_eq_append] at he hseen
      rw [decide_eq_true_eq, Nat.not_lt]
      rcases mem_append.1 he with he | he
      · exact Nat.le_of_lt ((pairwise_append.1 hseen).2.2 e he last (by simp))
      · rw [mem_singleton.1 he]
    rw [hnone, nil_append, filter_eq_self]
    intro e he
    rw [decide_eq_true_eq]
    exact hcross last (by simp) e he

variable {feed : List α}

variable (h : Ordered position feed)

include h

theorem filter_after_prefix (hseen : seen <+: feed) :
    feed.filter (fun e => decide (cursor position seen < position e)) = feed.drop seen.length := by
  obtain ⟨rest, rfl⟩ := hseen
  rw [filter_after_cursor h, drop_left]

/-- After a page comes what it was taken from, without it. -/
theorem filter_after_last {page rest : List α} {after : ℕ}
    (hleft : feed.filter (fun e => decide (after < position e)) = page ++ rest) {last : α}
    (hlast : page.getLast? = some last) :
    feed.filter (fun e => decide (position last < position e)) = rest := by
  obtain ⟨front, rfl⟩ := getLast?_eq_some_iff.1 hlast
  have hafter : after < position last := by
    have hmem : last ∈ feed.filter (fun e => decide (after < position e)) := by simp [hleft]
    simpa using (mem_filter.1 hmem).2
  have hsub : feed.filter (fun e => decide (position last < position e))
      = (feed.filter (fun e => decide (after < position e))).filter
        (fun e => decide (position last < position e)) := by
    rw [filter_filter]
    refine filter_congr fun e _ => ?_
    by_cases he : position last < position e
    · simp [he, hafter.trans he]
    · simp [he]
  have hsorted : (front ++ [last] ++ rest).Pairwise fun a b => position a < position b := by
    rw [← hleft]
    exact h.sorted.sublist filter_sublist
  obtain ⟨hpage, -, hcross⟩ := pairwise_append.1 hsorted
  rw [hsub, hleft, filter_append]
  have hnone : (front ++ [last]).filter (fun e => decide (position last < position e)) = [] := by
    refine filter_eq_nil_iff.2 fun e he => ?_
    rw [decide_eq_true_eq, Nat.not_lt]
    rcases mem_append.1 he with he | he
    · exact Nat.le_of_lt ((pairwise_append.1 hpage).2.2 e he last (by simp))
    · rw [mem_singleton.1 he]
  rw [hnone, nil_append, filter_eq_self]
  intro e he
  exact decide_eq_true (hcross last (by simp) e he)

/-- What is left after a cursor is an end of the feed, behind what is not beyond the cursor. -/
theorem exists_drop_of_after (after : ℕ) :
    ∃ d, feed.filter (fun e => decide (after < position e)) = feed.drop d ∧
      ∀ e ∈ feed.take d, position e ≤ after := by
  have hsorted := h.sorted
  clear h
  induction feed with
  | nil => exact ⟨0, rfl, forall_mem_nil _⟩
  | cons e rest ih =>
    obtain ⟨hhead, htail⟩ := pairwise_cons.1 hsorted
    by_cases he : after < position e
    · refine ⟨0, filter_eq_self.2 fun x hx => decide_eq_true ?_, forall_mem_nil _⟩
      rcases mem_cons.1 hx with rfl | hx
      · exact he
      · exact he.trans (hhead x hx)
    · obtain ⟨d, hd, hbefore⟩ := ih htail
      refine ⟨d + 1, ?_, forall_mem_cons.2 ⟨Nat.not_lt.1 he, hbefore⟩⟩
      rw [filter_cons_of_neg (by simpa using he), hd, drop_succ_cons]

/-- **A page continues what was read.** -/
theorem append_page_prefix (hseen : seen <+: feed) (limit : ℕ) :
    seen ++ pageAfter position feed (cursor position seen) limit <+: feed := by
  obtain ⟨rest, rfl⟩ := hseen
  rw [pageAfter, filter_after_cursor h]
  exact prefix_append_right_inj seen |>.2 (List.take_prefix limit rest)

/-- **A short page completes it.** -/
theorem append_page_eq (hseen : seen <+: feed) {limit : ℕ}
    (hshort : (pageAfter position feed (cursor position seen) limit).length < limit) :
    seen ++ pageAfter position feed (cursor position seen) limit = feed := by
  obtain ⟨rest, rfl⟩ := hseen
  rw [pageAfter, filter_after_cursor h] at hshort ⊢
  rw [length_take] at hshort
  rw [take_of_length_le (by omega)]

/-- A part of an ordered feed is ordered. -/
theorem Ordered.sublist {part : List α} (hpart : part.Sublist feed) : Ordered position part :=
  ⟨h.sorted.sublist hpart, fun e he => h.positive e (hpart.subset he)⟩

theorem Ordered.filter (p : α → Bool) : Ordered position (feed.filter p) :=
  h.sublist (filter_sublist)

end CursorFeed
