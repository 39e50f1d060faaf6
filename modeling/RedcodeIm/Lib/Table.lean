import Mathlib.Data.List.Nodup

/-!
# Keyed tables

A table of a relational store, read as the list of its rows in the order they
were first inserted, with a primary key that no two rows share.  The key
uniqueness is a field of `Table`, so a table with two rows under one key cannot
be built and no later proof has to exclude it.

* `Table.get` — the row stored under a key.
* `Table.insert` — `INSERT … ON CONFLICT (key) DO NOTHING`: append the row unless
  its key is taken.
* `Table.put` — replace the row under the key, or append it.
* `Table.delete` — drop the row under a key.
* `Table.filter` — the rows that pass a test.
* `Table.mapRows` — every row changed.
-/

/-- A list of rows no two of which have the same key. -/
structure Table {Key Row : Type} (key : Row → Key) where
  /-- The rows, oldest first. -/
  rows : List Row
  /-- The primary key is unique. -/
  nodup : (rows.map key).Nodup

namespace Table

open List

variable {Key Row : Type} [DecidableEq Key] {key : Row → Key}

/-- The table with no rows. -/
def empty : Table key := ⟨[], by simp⟩

omit [DecidableEq Key] in
@[simp] theorem rows_empty : (empty : Table key).rows = [] := rfl

/-- The row stored under a key. -/
def get (t : Table key) (k : Key) : Option Row := t.rows.find? fun r => key r = k

@[simp] theorem get_empty (k : Key) : (empty : Table key).get k = none := rfl

variable {t : Table key} {k : Key} {r : Row}

theorem key_of_get (h : t.get k = some r) : key r = k := by
  have := find?_some h
  simpa using this

theorem mem_of_get (h : t.get k = some r) : r ∈ t.rows :=
  mem_of_find?_eq_some h

theorem get_eq_none_iff : t.get k = none ↔ ∀ r ∈ t.rows, key r ≠ k := by
  simp [get, find?_eq_none]

omit [DecidableEq Key] in
/-- Two rows of a table with the same key are the same row. -/
theorem eq_of_key_eq {r' : Row} (h : r ∈ t.rows) (h' : r' ∈ t.rows) (hk : key r = key r') :
    r = r' :=
  inj_on_of_nodup_map t.nodup h h' hk

/-- A row is in the table exactly when it is the one stored under its key. -/
theorem get_of_mem (h : r ∈ t.rows) : t.get (key r) = some r := by
  cases hg : t.get (key r) with
  | none => exact absurd rfl (get_eq_none_iff.1 hg r h)
  | some r' => rw [eq_of_key_eq (mem_of_get hg) h (key_of_get hg)]

theorem mem_iff_get : r ∈ t.rows ↔ t.get (key r) = some r :=
  ⟨get_of_mem, mem_of_get⟩

/-! ## Insertion -/

/-- Append a row, unless a row with its key is already there. -/
def insert (t : Table key) (r : Row) : Table key :=
  if h : t.get (key r) = none then
    ⟨t.rows ++ [r], by
      rw [map_append, nodup_append]
      refine ⟨t.nodup, by simp, ?_⟩
      intro a ha b hb
      obtain ⟨r', hr', rfl⟩ := mem_map.1 ha
      rw [map_singleton, mem_singleton] at hb
      rw [hb]
      exact get_eq_none_iff.1 h r' hr'⟩
  else t

theorem rows_insert_of_none (h : t.get (key r) = none) : (t.insert r).rows = t.rows ++ [r] := by
  rw [insert, dif_pos h]

theorem insert_of_some {r' : Row} (h : t.get (key r) = some r') : t.insert r = t := by
  rw [insert, dif_neg (by rw [h]; simp)]

variable {x : Row}

theorem mem_insert (h : x ∈ (t.insert r).rows) : x ∈ t.rows ∨ x = r := by
  cases hg : t.get (key r) with
  | none =>
    rw [rows_insert_of_none hg] at h
    simpa using h
  | some r' =>
    rw [insert_of_some hg] at h
    exact Or.inl h

theorem mem_insert_of_mem (h : x ∈ t.rows) : x ∈ (t.insert r).rows := by
  cases hg : t.get (key r) with
  | none =>
    rw [rows_insert_of_none hg]
    exact mem_append_left _ h
  | some r' => rwa [insert_of_some hg]

theorem get_insert_of_none (h : t.get (key r) = none) (k : Key) :
    (t.insert r).get k = if key r = k then some r else t.get k := by
  rw [get, rows_insert_of_none h, find?_append, find?_singleton]
  by_cases hk : key r = k
  · subst hk
    rw [← get, h]
    simp
  · simp [get, hk]

theorem get_insert_ne (h : key r ≠ k) : (t.insert r).get k = t.get k := by
  cases hg : t.get (key r) with
  | none => rw [get_insert_of_none hg, if_neg h]
  | some r' => rw [insert_of_some hg]

/-- What was stored stays stored under insertion. -/
theorem get_insert_of_get (h : t.get k = some x) : (t.insert r).get k = some x := by
  by_cases hk : key r = k
  · rw [insert_of_some (hk.symm ▸ h : t.get (key r) = some x), h]
  · rw [get_insert_ne hk, h]

/-- A filter that drops the new row does not see the insertion. -/
theorem filter_insert_of_false {p : Row → Bool} (h : p r = false) :
    (t.insert r).rows.filter p = t.rows.filter p := by
  cases hg : t.get (key r) with
  | none => simp [rows_insert_of_none hg, filter_append, h]
  | some r' => rw [insert_of_some hg]

/-! ## Replacement -/

/-- Replace the row stored under the key of `r` by `r`, or append it. -/
def put (t : Table key) (r : Row) : Table key :=
  if h : t.get (key r) = none then t.insert r
  else
    ⟨t.rows.map fun x => if key x = key r then r else x, by
      have hmap : (t.rows.map fun x => if key x = key r then r else x).map key
          = t.rows.map key := by
        rw [map_map]
        refine map_congr_left fun x _ => ?_
        by_cases hx : key x = key r <;> simp [hx]
      rw [hmap]
      exact t.nodup⟩

theorem rows_put_of_some {r' : Row} (h : t.get (key r) = some r') :
    (t.put r).rows = t.rows.map fun x => if key x = key r then r else x := by
  rw [put, dif_neg (by rw [h]; simp)]

theorem put_of_none (h : t.get (key r) = none) : t.put r = t.insert r := by
  rw [put, dif_pos h]

theorem mem_put (h : x ∈ (t.put r).rows) : (x ∈ t.rows ∧ key x ≠ key r) ∨ x = r := by
  cases hg : t.get (key r) with
  | none =>
    rw [put_of_none hg] at h
    rcases mem_insert h with h' | h'
    · exact Or.inl ⟨h', get_eq_none_iff.1 hg x h'⟩
    · exact Or.inr h'
  | some r' =>
    rw [rows_put_of_some hg] at h
    obtain ⟨y, hy, hxy⟩ := mem_map.1 h
    by_cases hk : key y = key r
    · rw [if_pos hk] at hxy
      exact Or.inr hxy.symm
    · rw [if_neg hk] at hxy
      exact Or.inl (hxy ▸ ⟨hy, hk⟩)

theorem mem_put_self (t : Table key) (r : Row) : r ∈ (t.put r).rows := by
  cases hg : t.get (key r) with
  | none =>
    rw [put_of_none hg, rows_insert_of_none hg]
    simp
  | some r' =>
    rw [rows_put_of_some hg]
    exact mem_map.2 ⟨r', mem_of_get hg, by rw [if_pos (key_of_get hg)]⟩

theorem mem_put_of_ne (h : x ∈ t.rows) (hk : key x ≠ key r) : x ∈ (t.put r).rows := by
  cases hg : t.get (key r) with
  | none =>
    rw [put_of_none hg]
    exact mem_insert_of_mem h
  | some r' =>
    rw [rows_put_of_some hg]
    exact mem_map.2 ⟨x, h, by rw [if_neg hk]⟩

@[simp] theorem get_put_self (t : Table key) (r : Row) : (t.put r).get (key r) = some r :=
  get_of_mem (mem_put_self t r)

theorem get_put_ne (h : key r ≠ k) : (t.put r).get k = t.get k := by
  cases hg : t.get k with
  | none =>
    refine get_eq_none_iff.2 fun x hx => ?_
    rcases mem_put hx with ⟨hx', -⟩ | rfl
    · exact get_eq_none_iff.1 hg x hx'
    · exact h
  | some y =>
    have hy : key y = k := key_of_get hg
    have hmem : y ∈ (t.put r).rows := mem_put_of_ne (mem_of_get hg) (by rw [hy]; exact Ne.symm h)
    rw [← hy]
    exact get_of_mem hmem

theorem get_put (t : Table key) (r : Row) (k : Key) :
    (t.put r).get k = if key r = k then some r else t.get k := by
  by_cases h : key r = k
  · rw [if_pos h, ← h, get_put_self]
  · rw [if_neg h, get_put_ne h]

omit [DecidableEq Key] in
theorem eq_of_rows_eq {t' : Table key} (h : t.rows = t'.rows) : t = t' := by
  cases t
  cases t'
  subst h
  rfl

/-! ## Deletion -/

/-- Drop the row stored under a key. -/
def delete (t : Table key) (k : Key) : Table key :=
  ⟨t.rows.filter fun r => !decide (key r = k), t.nodup.sublist ((filter_sublist).map key)⟩

theorem mem_delete : x ∈ (t.delete k).rows ↔ x ∈ t.rows ∧ key x ≠ k := by
  simp [delete]

/-! ## Filtering -/

omit [DecidableEq Key] in
/-- The rows that pass a test. -/
def filter (t : Table key) (p : Row → Bool) : Table key :=
  ⟨t.rows.filter p, t.nodup.sublist (filter_sublist.map _)⟩

omit [DecidableEq Key] in
theorem mem_filter {p : Row → Bool} :
    x ∈ (t.filter p).rows ↔ x ∈ t.rows ∧ p x = true := List.mem_filter

theorem get_filter (t : Table key) (p : Row → Bool) (k : Key) :
    (t.filter p).get k = (t.get k).filter p := by
  cases hg : t.get k with
  | none =>
    refine get_eq_none_iff.2 fun x hx => ?_
    exact get_eq_none_iff.1 hg x (mem_filter.1 hx).1
  | some r =>
    obtain rfl : key r = k := key_of_get hg
    by_cases hp : p r = true
    · rw [Option.filter_some_pos hp]
      exact get_of_mem (mem_filter.2 ⟨mem_of_get hg, hp⟩)
    · rw [Option.filter_some_neg (by simpa using hp)]
      refine get_eq_none_iff.2 fun x hx => ?_
      intro hkey
      obtain ⟨hmem, hpx⟩ := mem_filter.1 hx
      exact hp (eq_of_key_eq hmem (mem_of_get hg) hkey ▸ hpx)

/-! ## All rows -/

omit [DecidableEq Key] in
/-- Every row changed, under its key. -/
def mapRows (t : Table key) (f : Row → Row) (hf : ∀ r, key (f r) = key r) : Table key :=
  ⟨t.rows.map f, by
    rw [map_map, show key ∘ f = key from funext hf]
    exact t.nodup⟩

omit [DecidableEq Key] in
theorem mem_mapRows {f : Row → Row} {hf : ∀ r, key (f r) = key r} :
    x ∈ (t.mapRows f hf).rows ↔ ∃ r ∈ t.rows, f r = x := mem_map

section

variable {f : Row → Row} {hf : ∀ r, key (f r) = key r}

theorem get_mapRows (t : Table key) (k : Key) : (t.mapRows f hf).get k = (t.get k).map f := by
  show (t.rows.map f).find? _ = (t.rows.find? _).map f
  rw [find?_map]
  congr 2
  funext r
  simp [hf]

omit [DecidableEq Key] in
theorem filter_mapRows (t : Table key) (p : Row → Bool) :
    (t.mapRows f hf).filter p = (t.filter fun r => p (f r)).mapRows f hf :=
  eq_of_rows_eq filter_map

theorem delete_mapRows (t : Table key) (k : Key) :
    (t.mapRows f hf).delete k = (t.delete k).mapRows f hf := by
  refine eq_of_rows_eq (filter_map.trans ?_)
  show (t.rows.filter fun r => !decide (key (f r) = k)).map f = _
  simp only [hf]
  rfl

theorem put_mapRows (t : Table key) (r : Row) :
    (t.mapRows f hf).put (f r) = (t.put r).mapRows f hf := by
  refine eq_of_rows_eq ?_
  show ((t.mapRows f hf).put (f r)).rows = (t.put r).rows.map f
  cases h : t.get (key r) with
  | none =>
    have hnone : (t.mapRows f hf).get (key (f r)) = none := by rw [get_mapRows, hf, h]; rfl
    rw [put_of_none h, put_of_none hnone, rows_insert_of_none h, rows_insert_of_none hnone,
      map_append]
    rfl
  | some r' =>
    have hsome : (t.mapRows f hf).get (key (f r)) = some (f r') := by rw [get_mapRows, hf, h]; rfl
    rw [rows_put_of_some h, rows_put_of_some hsome]
    show (t.rows.map f).map _ = _
    rw [map_map, map_map]
    refine map_congr_left fun x _ => ?_
    simp only [Function.comp_apply, hf]
    split <;> rfl

end

/-! ## Rows by groups -/

/-- A row that is replaced by another one under its key, in its group: the rows of a group stay as
they are just when it is not the group of the row. -/
theorem same_put_iff {Group : Type} {f : Row → Group} {g : Group} {s : Row}
    (hr : t.get (key r) = some r) (hkey : key s = key r) (hgroup : f s = f r) (hne : s ≠ r) :
    (∀ x, f x = g → ((t.put s).get (key x) = some x ↔ t.get (key x) = some x)) ↔ f r ≠ g := by
  refine ⟨fun h heq => ?_, fun hother x hx => ?_⟩
  · have hget := (h r heq).2 hr
    rw [← hkey, get_put_self] at hget
    exact hne (Option.some.inj hget)
  · rw [get_put]
    split
    · rename_i hk
      refine ⟨fun hx' => ?_, fun hx' => ?_⟩
      · cases hx'
        exact absurd (hgroup.symm.trans hx) hother
      · rw [← hk, hkey, hr] at hx'
        cases hx'
        exact absurd hx hother
    · exact .rfl

/-- And a row that is deleted. -/
theorem same_delete_iff {Group : Type} {f : Row → Group} {g : Group} :
    (∀ x, f x = g → ((t.delete k).get (key x) = some x ↔ t.get (key x) = some x)) ↔
      ∀ r, t.get k = some r → f r ≠ g := by
  have hget : ∀ x, (t.delete k).get (key x) = some x ↔ t.get (key x) = some x ∧ key x ≠ k :=
    fun x => by rw [← mem_iff_get, mem_delete, mem_iff_get]
  refine ⟨fun h r hr heq => ?_, fun h x hx => ?_⟩
  · have hk := key_of_get hr
    exact ((hget r).1 ((h r heq).2 (hk ▸ hr))).2 hk
  · rw [hget]
    exact ⟨fun hx' => hx'.1, fun hx' => ⟨hx', fun hk => h x (hk ▸ hx') hx⟩⟩

/-! ## Counting rows -/

theorem countP_key (t : Table key) (k : Key) (p : Row → Bool) :
    t.rows.countP (fun r => key r = k && p r) = if (t.get k).any p then 1 else 0 := by
  have hnodup := t.nodup
  unfold get
  generalize t.rows = l at hnodup
  induction l with
  | nil => rfl
  | cons r l ih =>
    rw [map_cons, nodup_cons] at hnodup
    rw [countP_cons, find?_cons]
    by_cases hr : key r = k
    · have hrest : l.countP (fun r => key r = k && p r) = 0 := by
        refine countP_eq_zero.2 fun x hx hk => hnodup.1 ?_
        have hxk : key x = k := by
          simp only [Bool.and_eq_true, decide_eq_true_eq] at hk
          exact hk.1
        exact hr.trans hxk.symm ▸ mem_map_of_mem hx
      rw [hrest]
      simp [hr]
    · simp [hr, ih hnodup.2]

/-- A row that is replaced under its key changes a count by what the count says of it. -/
theorem countP_put {s : Row} (hr : t.get (key r) = some r) (hkey : key s = key r) (p : Row → Bool) :
    (t.put s).rows.countP p + (if p r then 1 else 0) =
      t.rows.countP p + (if p s then 1 else 0) := by
  have hnodup := t.nodup
  have hmem := mem_of_get hr
  rw [rows_put_of_some (hkey ▸ hr), hkey]
  generalize t.rows = l at hnodup hmem
  induction l with
  | nil => cases hmem
  | cons x l ih =>
    rw [map_cons, nodup_cons] at hnodup
    obtain ⟨hx, hnodup⟩ := hnodup
    rw [map_cons, countP_cons, countP_cons]
    rcases mem_cons.1 hmem with rfl | hmem
    · -- The row stands at the head, and no other has its key.
      have hrest : l.map (fun y => if key y = key r then s else y) = l := by
        refine (map_congr_left fun y hy => ?_).trans (map_id _)
        exact if_neg fun heq : key y = key r => hx (heq ▸ mem_map_of_mem hy)
      rw [if_pos rfl, hrest]
      omega
    · have hne : key x ≠ key r := fun heq => hx (heq ▸ mem_map_of_mem hmem)
      rw [if_neg hne]
      have hcount := ih hnodup hmem
      omega

end Table
