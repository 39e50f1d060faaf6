import Mathlib.Data.List.Sort

/-!
# Paging by a time that is not unique

Rows are read page by page, newest first: each page holds the newest rows that are strictly
older than the last row of the page before.  Rows of one time come in any order, and a page
that ends among them loses those that were not on it.

* `Arranged` — the newest first, rows of one time in any order.
* `TopRows` — the rows that a query with an order and a limit may answer.
* `TopRows.countP_eq` — how many of the later rows such an answer holds.
* `Walk` — page after page, until one is empty.
* `EndsApart` — no two rows of one time stand on either side of the end of a page.
* `Walk.arranged`, `Walk.length_le` — what holds of every walk.
* `Walk.perm_iff` — a walk finds every row, just where `EndsApart` holds.
* `exists_newest_older_iff`, `exists_newest_later_iff` — where a page of the rows before or after
  some time is the newest page of all.
-/

namespace Paging

open List

variable {α τ : Type} [LinearOrder τ] {stamp : α → τ}

/-! ## Queries -/

/-- The newest first. -/
def Arranged (stamp : α → τ) (l : List α) : Prop := l.Pairwise fun a b => stamp b ≤ stamp a

/-- `ORDER BY stamp DESC LIMIT limit`. -/
def TopRows (stamp : α → τ) (rows : List α) (limit : ℕ) (page : List α) : Prop :=
  ∃ l : List α, l.Perm rows ∧ Arranged stamp l ∧ page = l.take limit

/-- The rows in one of the orders. -/
def arrange (stamp : α → τ) (rows : List α) : List α :=
  rows.mergeSort fun a b => decide (stamp b ≤ stamp a)

theorem arrange_perm (stamp : α → τ) (rows : List α) : (arrange stamp rows).Perm rows :=
  mergeSort_perm _ _

theorem arranged_arrange (stamp : α → τ) (rows : List α) : Arranged stamp (arrange stamp rows) := by
  have hsorted : (arrange stamp rows).Pairwise fun a b => decide (stamp b ≤ stamp a) = true := by
    refine pairwise_mergeSort (fun a b c hab hbc => ?_) (fun a b => ?_) rows
    · simp only [decide_eq_true_eq] at hab hbc ⊢
      exact hbc.trans hab
    · simp only [Bool.or_eq_true, decide_eq_true_eq]
      exact le_total _ _
  exact hsorted.imp fun hle => of_decide_eq_true hle

theorem topRows_arrange (stamp : α → τ) (rows : List α) (limit : ℕ) :
    TopRows stamp rows limit ((arrange stamp rows).take limit) :=
  ⟨_, arrange_perm stamp rows, arranged_arrange stamp rows, rfl⟩

variable {rows page : List α} {limit : ℕ}

theorem TopRows.subset (h : TopRows stamp rows limit page) : ∀ row ∈ page, row ∈ rows := by
  obtain ⟨l, hperm, -, rfl⟩ := h
  exact fun row hrow => hperm.mem_iff.mp (mem_of_mem_take hrow)

variable {p : α → Bool} {l : List α}

/-- Of a list that begins with the rows that pass a test, the first ones pass it. -/
theorem countP_take_of_pairwise (h : l.Pairwise fun a b => p b = true → p a = true) (limit : ℕ) :
    (l.take limit).countP p = min limit (l.countP p) := by
  induction l generalizing limit with
  | nil => simp
  | cons a l ih =>
    obtain ⟨ha, hl⟩ := pairwise_cons.1 h
    cases limit with
    | zero => simp
    | succ limit =>
      rw [take_succ_cons, countP_cons, countP_cons, ih hl]
      by_cases hpa : p a = true
      · rw [if_pos hpa]
        omega
      · have hnone : l.countP p = 0 :=
          countP_eq_zero.2 fun b hb hpb => hpa (ha b hb hpb)
        rw [if_neg hpa, hnone]
        omega

/-- The rows of a page that are late enough: as many as there are, and as fit. -/
theorem TopRows.countP_eq (hp : ∀ a b, stamp b ≤ stamp a → p b = true → p a = true)
    (h : TopRows stamp rows limit page) : page.countP p = min limit (rows.countP p) := by
  obtain ⟨l, hperm, hl, rfl⟩ := h
  rw [countP_take_of_pairwise (hl.imp fun hle => hp _ _ hle), hperm.countP_eq]

theorem TopRows.eq_nil (hlimit : 0 < limit) (h : TopRows stamp rows limit []) : rows = [] := by
  obtain ⟨l, hperm, -, hpage⟩ := h
  obtain hzero | rfl := take_eq_nil_iff.mp hpage.symm
  · omega
  · exact hperm.nil_eq.symm

/-- The times of the rows, the newest first. -/
def times (stamp : α → τ) (rows : List α) : List τ := (arrange stamp rows).map stamp

/-- In whatever order the rows come, their times are the same. -/
theorem map_stamp_eq_times (hperm : l.Perm rows) (h : Arranged stamp l) :
    l.map stamp = times stamp rows := by
  have hl : (l.map stamp).Pairwise (· ≥ ·) := pairwise_map.mpr h
  have hr : (times stamp rows).Pairwise (· ≥ ·) :=
    pairwise_map.mpr (arranged_arrange stamp rows)
  refine List.Perm.eq_of_pairwise (fun a b _ _ hab hba => le_antisymm hba hab) hl hr ?_
  exact (hperm.trans (arrange_perm stamp rows).symm).map stamp

/-! ## Walks -/

/-- Page after page, each with the rows that are older than the last one of the page before. -/
inductive Walk (stamp : α → τ) (limit : ℕ) : List α → List α → Prop where
  | done {rows : List α} (h : TopRows stamp rows limit []) : Walk stamp limit rows []
  | next {rows page items : List α} {last : α} (h : TopRows stamp rows limit page)
      (hlast : page.getLast? = some last)
      (rest : Walk stamp limit (rows.filter fun row => decide (stamp row < stamp last)) items) :
      Walk stamp limit rows (page ++ items)

/-- There is a walk. -/
theorem exists_walk (stamp : α → τ) (limit : ℕ) (rows : List α) :
    ∃ items, Walk stamp limit rows items := by
  induction hn : rows.length using Nat.strong_induction_on generalizing rows with
  | _ n ih =>
    subst hn
    have htop := topRows_arrange stamp rows limit
    cases hlast : ((arrange stamp rows).take limit).getLast? with
    | none =>
      rw [getLast?_eq_none_iff.mp hlast] at htop
      exact ⟨[], .done htop⟩
    | some last =>
      have hmem : last ∈ rows := htop.subset last (mem_of_getLast? hlast)
      have hless : (rows.filter fun row => decide (stamp row < stamp last)).length
          < rows.length := by
        refine length_filter_lt_length_iff_exists.mpr ⟨last, hmem, ?_⟩
        simp
      obtain ⟨items, hrest⟩ := ih _ hless _ rfl
      exact ⟨_, .next htop hlast hrest⟩

theorem arranged_last (h : Arranged stamp l) {last : α} (hlast : l.getLast? = some last) :
    ∀ a ∈ l, stamp last ≤ stamp a := by
  obtain ⟨front, rfl⟩ := getLast?_eq_some_iff.mp hlast
  intro a ha
  rcases mem_append.mp ha with ha | ha
  · exact (pairwise_append.mp h).2.2 a ha last (mem_singleton_self _)
  · obtain rfl := mem_singleton.mp ha
    exact le_rfl

/-- Nothing of a page is found again after it. -/
theorem filter_eq_filter_drop (h : (l.take limit).filter p = []) :
    l.filter p = (l.drop limit).filter p := by
  conv_lhs => rw [← take_append_drop limit l]
  rw [filter_append, h, nil_append]

variable {items : List α}

theorem Walk.subset (h : Walk stamp limit rows items) : ∀ row ∈ items, row ∈ rows := by
  induction h with
  | done _ => exact forall_mem_nil _
  | next htop _ _ ih =>
    intro row hrow
    rcases mem_append.mp hrow with hrow | hrow
    · exact htop.subset row hrow
    · exact (mem_filter.mp (ih row hrow)).1

/-- A walk brings the newest first. -/
theorem Walk.arranged (h : Walk stamp limit rows items) : Arranged stamp items := by
  induction h with
  | done _ => exact List.Pairwise.nil
  | @next rows page items last htop hlast hrest ih =>
    obtain ⟨l, -, harranged, rfl⟩ := htop
    have hpage : Arranged stamp (l.take limit) := harranged.take
    refine pairwise_append.mpr ⟨hpage, ih, fun a ha b hb => ?_⟩
    have hlater : stamp last ≤ stamp a := arranged_last hpage hlast a ha
    have holder : stamp b < stamp last := by simpa using (mem_filter.mp (hrest.subset b hb)).2
    exact holder.le.trans hlater

/-- A walk brings no row twice. -/
theorem Walk.length_le (h : Walk stamp limit rows items) : items.length ≤ rows.length := by
  induction h with
  | done _ => exact Nat.zero_le _
  | @next rows page items last htop hlast _ ih =>
    obtain ⟨l, hperm, harranged, rfl⟩ := htop
    rw [(hperm.filter _).length_eq.symm] at ih
    have hnone : (l.take limit).filter (fun row => decide (stamp row < stamp last)) = [] := by
      refine filter_eq_nil_iff.mpr fun a ha => ?_
      simpa using arranged_last harranged.take hlast a ha
    have hleft := filter_eq_filter_drop (l := l) hnone
    rw [length_append, ← hperm.length_eq, length_take]
    rw [hleft] at ih
    have hrest : ((l.drop limit).filter fun row => decide (stamp row < stamp last)).length
        ≤ l.length - limit := by
      rw [← length_drop]
      exact length_filter_le _ _
    omega

/-! ## Where a walk is complete -/

/-- No two times that are the same stand on either side of the end of a page. -/
def EndsApart (limit : ℕ) (ts : List τ) : Prop :=
  ∀ k, 0 < k → ∀ a b, ts[k * limit - 1]? = some a → ts[k * limit]? = some b → a ≠ b

omit [LinearOrder τ] in
theorem endsApart_of_length_le {ts : List τ} (h : ts.length ≤ limit) : EndsApart limit ts := by
  intro k hk a b _ hb
  have hlong : limit ≤ k * limit := Nat.le_mul_of_pos_left limit hk
  rw [getElem?_eq_none (h.trans hlong)] at hb
  cases hb

omit [LinearOrder τ] in
/-- The end of the first page, and those of the others. -/
theorem endsApart_iff (hlimit : 0 < limit) {ts : List τ} {a b : τ} (ha : ts[limit - 1]? = some a)
    (hb : ts[limit]? = some b) :
    EndsApart limit ts ↔ a ≠ b ∧ EndsApart limit (ts.drop limit) := by
  constructor
  · intro h
    refine ⟨h 1 Nat.one_pos a b (by rwa [Nat.one_mul]) (by rwa [Nat.one_mul]), ?_⟩
    intro k hk c d hc hd
    rw [getElem?_drop] at hc hd
    have hpos : limit ≤ k * limit := Nat.le_mul_of_pos_left limit hk
    refine h (k + 1) (Nat.succ_pos k) c d ?_ ?_
    · rwa [Nat.succ_mul, show k * limit + limit - 1 = limit + (k * limit - 1) by omega]
    · rwa [Nat.succ_mul, Nat.add_comm]
  · rintro ⟨hne, hrest⟩ k hk c d hc hd
    obtain rfl | hmore := Nat.eq_or_lt_of_le (Nat.succ_le_of_lt hk)
    · rw [Nat.succ_eq_add_one, Nat.zero_add, Nat.one_mul] at hc hd
      cases ha.symm.trans hc
      cases hb.symm.trans hd
      exact hne
    · obtain ⟨j, rfl⟩ : ∃ j, k = j + 1 := ⟨k - 1, by omega⟩
      have hpos : limit ≤ j * limit := Nat.le_mul_of_pos_left limit (by omega)
      refine hrest j (by omega) c d ?_ ?_
      · rw [getElem?_drop, show limit + (j * limit - 1) = (j + 1) * limit - 1 by
          rw [Nat.succ_mul]
          omega]
        exact hc
      · rw [getElem?_drop, show limit + j * limit = (j + 1) * limit by
          rw [Nat.succ_mul, Nat.add_comm]]
        exact hd

/-- The last row of a page that is full. -/
theorem getLast?_take (hlimit : 0 < limit) (h : limit ≤ l.length) :
    (l.take limit).getLast? = l[limit - 1]? := by
  rw [getLast?_eq_getElem?, length_take, Nat.min_eq_left h,
    getElem?_take_of_lt (by omega)]

theorem drop_eq_cons {next : α} (h : l[limit]? = some next) :
    ∃ rest, l.drop limit = next :: rest := by
  obtain ⟨hlt, rfl⟩ := List.getElem?_eq_some_iff.mp h
  exact ⟨_, drop_eq_getElem_cons hlt⟩

/-- What is older than the last row of a page, if the next one is: all the rest. -/
theorem filter_older {last next : α} (h : Arranged stamp l)
    (hlast : (l.take limit).getLast? = some last) (hnext : l[limit]? = some next)
    (hne : stamp next < stamp last) :
    l.filter (fun row => decide (stamp row < stamp last)) = l.drop limit := by
  rw [filter_eq_filter_drop, filter_eq_self]
  · intro a ha
    have hdrop : Arranged stamp (l.drop limit) := h.drop
    obtain ⟨rest, hrest⟩ := drop_eq_cons hnext
    rw [hrest] at ha hdrop
    refine decide_eq_true (lt_of_le_of_lt ?_ hne)
    rcases mem_cons.mp ha with rfl | ha
    · exact le_rfl
    · exact rel_of_pairwise_cons hdrop ha
  · refine filter_eq_nil_iff.mpr fun a ha => ?_
    simpa using arranged_last h.take hlast a ha

/-- Where the next row is of the same time, it is lost. -/
theorem filter_older_length {last next : α} (h : Arranged stamp l)
    (hlast : (l.take limit).getLast? = some last) (hnext : l[limit]? = some next)
    (heq : stamp next = stamp last) :
    (l.filter fun row => decide (stamp row < stamp last)).length + limit < l.length := by
  obtain ⟨hlt, hget⟩ := List.getElem?_eq_some_iff.mp hnext
  have hnone : (l.take (limit + 1)).filter (fun row => decide (stamp row < stamp last)) = [] := by
    rw [take_add_one, hnext]
    refine filter_eq_nil_iff.mpr fun a ha => ?_
    rcases mem_append.mp ha with ha | ha
    · simpa using arranged_last h.take hlast a ha
    · obtain rfl : a = next := by simpa using ha
      simp [heq]
  rw [filter_eq_filter_drop hnone]
  have hrest := length_filter_le (fun row => decide (stamp row < stamp last))
    (l.drop (limit + 1))
  rw [length_drop] at hrest
  omega

/-- **Where a walk is complete**: it finds every row just where no page ends among rows of one
time. -/
theorem Walk.perm_iff (hlimit : 0 < limit) (h : Walk stamp limit rows items) :
    items.Perm rows ↔ EndsApart limit (times stamp rows) := by
  induction h with
  | done htop =>
    obtain rfl := htop.eq_nil hlimit
    refine iff_of_true .nil (endsApart_of_length_le ?_)
    rw [← map_stamp_eq_times (.refl []) List.Pairwise.nil]
    exact Nat.zero_le limit
  | @next rows page items last htop hlast hrest ih =>
    obtain ⟨l, hperm, harranged, rfl⟩ := htop
    have htimes := map_stamp_eq_times hperm harranged
    cases hnext : l[limit]? with
    | none =>
      -- the page holds all there is
      have hshort : l.length ≤ limit := getElem?_eq_none_iff.mp hnext
      rw [take_of_length_le hshort] at hlast ⊢
      have hnil : items = [] := by
        refine eq_nil_iff_forall_not_mem.mpr fun a ha => ?_
        obtain ⟨hmem, hold⟩ := mem_filter.mp (hrest.subset a ha)
        exact absurd (of_decide_eq_true hold)
          (not_lt.mpr (arranged_last harranged hlast a (hperm.mem_iff.mpr hmem)))
      rw [hnil, append_nil]
      refine iff_of_true hperm (endsApart_of_length_le ?_)
      rwa [← htimes, length_map]
    | some next =>
      obtain ⟨hlt, -⟩ := List.getElem?_eq_some_iff.mp hnext
      have hlast' : l[limit - 1]? = some last := by rw [← getLast?_take hlimit hlt.le, hlast]
      have hiff : EndsApart limit (times stamp rows) ↔
          stamp last ≠ stamp next ∧ EndsApart limit ((times stamp rows).drop limit) := by
        refine endsApart_iff hlimit ?_ ?_
        · rw [← htimes, getElem?_map, hlast', Option.map_some]
        · rw [← htimes, getElem?_map, hnext, Option.map_some]
      have hle : stamp next ≤ stamp last := by
        obtain ⟨rest, hdrop⟩ := drop_eq_cons hnext
        rw [← take_append_drop limit l, hdrop] at harranged
        exact (pairwise_append.mp harranged).2.2 last (mem_of_getLast? hlast) next
          mem_cons_self
      rw [hiff]
      rcases hle.eq_or_lt with heq | hold
      · refine iff_of_false (fun hall => ?_) fun hne => hne.1 heq.symm
        have hlost := filter_older_length harranged hlast hnext heq
        have hcount := hrest.length_le
        rw [(hperm.filter _).length_eq.symm] at hcount
        have htotal := hall.length_eq
        rw [length_append, length_take, ← hperm.length_eq] at htotal
        omega
      · have hfilter := filter_older harranged hlast hnext hold
        have hleft : (rows.filter fun row => decide (stamp row < stamp last)).Perm
            (l.drop limit) := hfilter ▸ (hperm.filter _).symm
        have hdrop : times stamp (rows.filter fun row => decide (stamp row < stamp last))
            = (times stamp rows).drop limit := by
          rw [← map_stamp_eq_times hleft.symm harranged.drop, ← htimes, map_drop]
        rw [hdrop] at ih
        rw [← ih]
        have hsplit : (l.take limit ++ items).Perm rows ↔ items.Perm (l.drop limit) := by
          have hback : (l.take limit ++ items).Perm (l.take limit ++ l.drop limit) ↔
              items.Perm (l.drop limit) := perm_append_left_iff _
          rw [take_append_drop] at hback
          rw [← hback]
          exact ⟨fun hall => hall.trans hperm.symm, fun hall => hall.trans hperm⟩
        rw [hsplit]
        exact ⟨fun hall => ⟨hold.ne', hall.trans hleft.symm⟩, fun hall => hall.2.trans hleft⟩

/-! ## Where a page is the newest of all -/

/-- What is newer than some time stands before the rest. -/
theorem filter_newer (h : Arranged stamp l) (t : τ) :
    l.filter (fun row => decide (t < stamp row))
      = l.take (l.filter fun row => decide (t < stamp row)).length := by
  induction l with
  | nil => rfl
  | cons a l ih =>
    by_cases ha : t < stamp a
    · rw [filter_cons, if_pos (decide_eq_true ha), length_cons, take_succ_cons,
        ← ih h.of_cons]
    · have hnone : (a :: l).filter (fun row => decide (t < stamp row)) = [] := by
        refine filter_eq_nil_iff.mpr fun b hb hnewer => ha ?_
        rcases mem_cons.mp hb with rfl | hb
        · exact of_decide_eq_true hnewer
        · exact lt_of_lt_of_le (of_decide_eq_true hnewer) (rel_of_pairwise_cons h hb)
      rw [hnone]
      rfl

theorem TopRows.exists_newest (hlimit : 0 < limit) (h : TopRows stamp rows limit page) {row : α}
    (hrow : row ∈ rows) :
    ∃ newest ∈ page, ∀ a ∈ rows, stamp a ≤ stamp newest := by
  obtain ⟨l, hperm, harranged, rfl⟩ := h
  have hmem : row ∈ l := hperm.mem_iff.mpr hrow
  obtain ⟨newest, rest, rfl⟩ := exists_cons_of_ne_nil (ne_nil_of_mem hmem)
  refine ⟨newest, ?_, fun a ha => ?_⟩
  · rw [← Nat.succ_pred_eq_of_pos hlimit, take_succ_cons]
    exact mem_cons_self
  · rcases mem_cons.mp (hperm.mem_iff.mpr ha) with rfl | ha
    · exact le_rfl
    · exact rel_of_pairwise_cons harranged ha

/-- The rows older than some time have the newest page of all just where all are older. -/
theorem exists_newest_older_iff (hlimit : 0 < limit) (t : τ) :
    (∃ page, TopRows stamp rows limit page ∧
      TopRows stamp (rows.filter fun row => decide (stamp row < t)) limit page) ↔
    ∀ row ∈ rows, stamp row < t := by
  constructor
  · rintro ⟨page, htop, holder⟩ row hrow
    obtain ⟨newest, hnewest, hall⟩ := htop.exists_newest hlimit hrow
    have hold : stamp newest < t := by
      simpa using (mem_filter.mp (holder.subset newest hnewest)).2
    exact lt_of_le_of_lt (hall row hrow) hold
  · intro hall
    have hsame : rows.filter (fun row => decide (stamp row < t)) = rows :=
      filter_eq_self.mpr fun row hrow => decide_eq_true (hall row hrow)
    rw [hsame]
    exact ⟨_, topRows_arrange stamp rows limit, topRows_arrange stamp rows limit⟩

section

variable {rows page : List α} {limit : ℕ} {t : τ}

/-- A page of the oldest of the rows newer than some time. -/
def LaterRows (stamp : α → τ) (rows : List α) (limit : ℕ) (t : τ) (page : List α) : Prop :=
  TopRows (fun row => OrderDual.toDual (stamp row)) (rows.filter fun row => decide (t < stamp row))
    limit page.reverse

/-- Some row that is newer than a page of the oldest is not on the newest page: then all the
newer rows are of one time. -/
theorem stamp_le_of_common (hnodup : rows.Nodup) (hlimit : 0 < limit)
    (htop : TopRows stamp rows limit page) (hlater : LaterRows stamp rows limit t page)
    (hmany : limit < (rows.filter fun row => decide (t < stamp row)).length) :
    ∀ a ∈ rows, ∀ b ∈ rows, t < stamp a → t < stamp b → stamp a ≤ stamp b := by
  intro a ha b hb hta htb
  obtain ⟨newest, hnewest, hmax⟩ := htop.exists_newest hlimit ha
  obtain ⟨oldest, holdest, hmin⟩ := hlater.exists_newest hlimit
    (mem_filter.mpr ⟨hb, decide_eq_true htb⟩)
  obtain ⟨l, hperm, harranged, rfl⟩ := htop
  obtain ⟨l', hperm', harranged', hpage⟩ := hlater
  have hlt : limit < l'.length := by rwa [hperm'.length_eq]
  have hdrop := drop_eq_getElem_cons hlt
  generalize l'[limit] = next at hdrop
  have hsplit : l' = (l.take limit).reverse ++ next :: l'.drop (limit + 1) := by
    rw [hpage, ← hdrop, take_append_drop]
  rw [hsplit] at harranged' hperm'
  have hnext : next ∈ rows :=
    (mem_filter.mp (hperm'.mem_iff.mp (mem_append_right _ mem_cons_self))).1
  have hfresh : next ∉ l.take limit := by
    intro hmem
    have hnodup' := hperm'.nodup_iff.mpr (hnodup.filter _)
    exact (nodup_append.mp hnodup').2.2 next (mem_reverse.mpr hmem) next
      mem_cons_self rfl
  have hrest : next ∈ l.drop limit := by
    have hmem := hperm.mem_iff.mpr hnext
    rw [← take_append_drop limit l] at hmem
    exact (mem_append.mp hmem).resolve_left hfresh
  have hnewer : stamp newest ≤ stamp next :=
    (pairwise_append.mp harranged').2.2 newest (mem_reverse.mpr hnewest) next
      mem_cons_self
  have holder : stamp next ≤ stamp oldest := by
    rw [← take_append_drop limit l] at harranged
    exact (pairwise_append.mp harranged).2.2 oldest (mem_reverse.mp holdest) next hrest
  exact (hmax a ha).trans (hnewer.trans (holder.trans
    (hmin b (mem_filter.mpr ⟨hb, decide_eq_true htb⟩))))

/-- The rows newer than some time, the oldest first, fill the newest page of all just where they
are as many as it holds, or are more and all of one time. -/
theorem exists_newest_later_iff (hnodup : rows.Nodup) (hlimit : 0 < limit) (t : τ) :
    (∃ page, TopRows stamp rows limit page ∧ LaterRows stamp rows limit t page) ↔
    (rows.filter fun row => decide (t < stamp row)).length = min limit rows.length ∨
      limit < (rows.filter fun row => decide (t < stamp row)).length ∧
        ∀ a ∈ rows, ∀ b ∈ rows, t < stamp a → t < stamp b → stamp a ≤ stamp b := by
  constructor
  · rintro ⟨page, htop, hlater⟩
    by_cases hmany : limit < (rows.filter fun row => decide (t < stamp row)).length
    · exact .inr ⟨hmany, stamp_le_of_common hnodup hlimit htop hlater hmany⟩
    · left
      obtain ⟨l, hperm, -, rfl⟩ := htop
      obtain ⟨l', hperm', -, hpage⟩ := hlater
      have hlength := congrArg length hpage
      rw [length_reverse, length_take, length_take, hperm.length_eq,
        hperm'.length_eq] at hlength
      omega
  · intro h
    have harranged := arranged_arrange stamp rows
    have hperm := (arrange_perm stamp rows).filter fun row => decide (t < stamp row)
    have hfilter := filter_newer harranged t
    rw [hperm.length_eq] at hfilter
    refine ⟨_, topRows_arrange stamp rows limit, ?_⟩
    rcases h with hcount | ⟨hmany, hsame⟩
    · have hpage : (arrange stamp rows).take limit
          = (arrange stamp rows).filter fun row => decide (t < stamp row) := by
        rw [hfilter, hcount, ← (arrange_perm stamp rows).length_eq, take_eq_take_iff]
        omega
      refine ⟨((arrange stamp rows).take limit).reverse, ?_, ?_, ?_⟩
      · rw [hpage]
        exact (reverse_perm _).trans hperm
      · exact pairwise_reverse.mpr harranged.take
      · refine (take_of_length_le ?_).symm
        rw [length_reverse]
        exact length_take_le _ _
    · -- the page, and after it the newer rows that are not on it
      have hpage : (arrange stamp rows).take limit
          = ((arrange stamp rows).filter fun row => decide (t < stamp row)).take limit := by
        rw [hfilter, take_take, Nat.min_eq_left hmany.le]
      have hall : (((arrange stamp rows).take limit).reverse ++
          ((arrange stamp rows).filter fun row => decide (t < stamp row)).drop limit).Perm
          (rows.filter fun row => decide (t < stamp row)) := by
        refine ((reverse_perm _).append_right _).trans ?_
        rw [hpage, take_append_drop]
        exact hperm
      refine ⟨_, hall, ?_, ?_⟩
      · refine pairwise_of_forall_mem_list fun a ha b hb => ?_
        obtain ⟨ha, hta⟩ := mem_filter.mp (hall.mem_iff.mp ha)
        obtain ⟨hb, htb⟩ := mem_filter.mp (hall.mem_iff.mp hb)
        exact hsame a ha b hb (of_decide_eq_true hta) (of_decide_eq_true htb)
      · have hfull : ((arrange stamp rows).take limit).reverse.length = limit := by
          rw [length_reverse, length_take, (arrange_perm stamp rows).length_eq]
          have hle := length_filter_le (fun row => decide (t < stamp row)) rows
          omega
        exact (take_left' hfull).symm

end

end Paging
