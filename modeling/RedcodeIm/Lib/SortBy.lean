import Mathlib.Data.List.Sort

/-!
# Sorting by a key

A list sorted by the keys of its elements, elements of one key left in the order they had.

* `sortBy` — the sorted list.
* `filter_sortBy` — the elements of one key stay in their order.
* `eq_of_filter_eq` — a sorted list is determined by its elements of each key.
* `sortBy_eq_iff` — what a list sorts to.
-/

namespace SortBy

open List

variable {α κ : Type} [LinearOrder κ]

/-- The list, sorted by the keys of its elements. -/
def sortBy (key : α → κ) (l : List α) : List α := l.insertionSort fun a b => key a ≤ key b

variable {key : α → κ} {l l' : List α}

instance total_key : Std.Total fun a b : α => key a ≤ key b := ⟨fun a b => le_total (key a) (key b)⟩

instance isTrans_key : IsTrans α fun a b => key a ≤ key b := ⟨fun _ _ _ => le_trans⟩

theorem sortBy_perm (key : α → κ) (l : List α) : (sortBy key l).Perm l :=
  perm_insertionSort _ _

theorem sortBy_map {β : Type} {f : β → α} {l : List β} :
    sortBy key (l.map f) = (sortBy (fun b => key (f b)) l).map f :=
  (map_insertionSort _ _ f _ fun _ _ _ _ => Iff.rfl).symm

@[simp] theorem mem_sortBy {a : α} : a ∈ sortBy key l ↔ a ∈ l := (sortBy_perm key l).mem_iff

theorem pairwise_sortBy (key : α → κ) (l : List α) :
    (sortBy key l).Pairwise fun a b => key a ≤ key b :=
  pairwise_insertionSort _ _

/-- The elements of one key stay in their order. -/
theorem filter_sortBy (v : κ) :
    (sortBy key l).filter (fun a => key a = v) = l.filter fun a => key a = v := by
  have hsub : (l.filter fun a => key a = v).Sublist (sortBy key l) := by
    refine sublist_insertionSort ?_ filter_sublist
    refine pairwise_of_forall_mem_list ?_
    intro a ha b hb
    have ha : key a = v := by simpa using (mem_filter.1 ha).2
    have hb : key b = v := by simpa using (mem_filter.1 hb).2
    rw [ha, hb]
  have hsub' := hsub.filter fun a => key a = v
  rw [filter_filter] at hsub'
  simp only [Bool.and_self] at hsub'
  exact (hsub'.eq_of_length ((sortBy_perm key l).filter _).length_eq.symm).symm

/-- A sorted list is determined by its elements of each key. -/
theorem eq_of_filter_eq (h : l.Pairwise fun a b => key a ≤ key b)
    (h' : l'.Pairwise fun a b => key a ≤ key b)
    (heq : ∀ v, l.filter (fun a => key a = v) = l'.filter fun a => key a = v) : l = l' := by
  induction l generalizing l' with
  | nil =>
    cases l' with
    | nil => rfl
    | cons b l' =>
      have hb := heq (key b)
      simp at hb
  | cons a l ih =>
    cases l' with
    | nil =>
      have ha := heq (key a)
      simp at ha
    | cons b l' =>
      have hab : key a ≤ key b := by
        have hb : b ∈ (a :: l).filter fun x => key x = key b := by
          rw [heq]
          simp
        rcases mem_cons.1 (mem_filter.1 hb).1 with rfl | hb
        · exact le_rfl
        · exact (pairwise_cons.1 h).1 b hb
      have hba : key b ≤ key a := by
        have ha : a ∈ (b :: l').filter fun x => key x = key a := by
          rw [← heq]
          simp
        rcases mem_cons.1 (mem_filter.1 ha).1 with rfl | ha
        · exact le_rfl
        · exact (pairwise_cons.1 h').1 a ha
      have hkey : key a = key b := le_antisymm hab hba
      -- both begin the elements of the least key
      obtain rfl : a = b := by
        have hv := heq (key a)
        simp only [filter_cons, hkey, decide_true, if_true, cons.injEq] at hv
        exact hv.1
      congr 1
      refine ih h.of_cons h'.of_cons fun v => ?_
      have hv := heq v
      simp only [filter_cons] at hv
      split at hv
      · exact (cons.inj hv).2
      · exact hv

/-- What a list sorts to. -/
theorem sortBy_eq_iff : sortBy key l = l' ↔ (l'.Pairwise fun a b => key a ≤ key b) ∧
    ∀ v, l.filter (fun a => key a = v) = l'.filter fun a => key a = v := by
  constructor
  · rintro rfl
    exact ⟨pairwise_sortBy key l, fun v => (filter_sortBy v).symm⟩
  · rintro ⟨hsorted, heq⟩
    refine eq_of_filter_eq (pairwise_sortBy key l) hsorted fun v => ?_
    rw [filter_sortBy, heq]

theorem sortBy_congr
    (heq : ∀ v, l.filter (fun a => key a = v) = l'.filter fun a => key a = v) :
    sortBy key l = sortBy key l' :=
  sortBy_eq_iff.2 ⟨pairwise_sortBy key l', fun v => by rw [filter_sortBy, heq]⟩

/-- A sorted list stays as it is. -/
theorem sortBy_sortBy : sortBy key (sortBy key l) = sortBy key l :=
  sortBy_congr fun v => filter_sortBy v

end SortBy
