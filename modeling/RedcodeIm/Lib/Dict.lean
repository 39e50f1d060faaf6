import RedcodeIm.Lib.Table

/-!
# Maps from keys to values

A map read as the table of its entries, each under its key.

* `Dict.lookup`, `Dict.set`, `Dict.remove`, `Dict.assign` — the value of a key, set and taken away.
* `Dict.change` — every value changed, and dropped where nothing is left of it.
* `Dict.members`, `Dict.adjoin`, `Dict.discard` — a set under each key, which is dropped with its
  last member.
-/

/-- A map, as the table of its entries. -/
abbrev Dict (κ ν : Type) : Type := Table (Prod.fst : κ × ν → κ)

namespace Dict

variable {κ ν : Type} [DecidableEq κ]

/-- The value under a key. -/
def lookup (d : Dict κ ν) (k : κ) : Option ν := (d.get k).map Prod.snd

def set (d : Dict κ ν) (k : κ) (v : ν) : Dict κ ν := d.put (k, v)

def remove (d : Dict κ ν) (k : κ) : Dict κ ν := d.filter fun entry => entry.1 ≠ k

def isEmpty (d : Dict κ ν) : Bool := d.rows.isEmpty

omit [DecidableEq κ] in
theorem keys_filterMap_sublist (f : κ → ν → Option ν) (l : List (κ × ν)) :
    ((l.filterMap fun entry => (f entry.1 entry.2).map fun v => (entry.1, v)).map Prod.fst).Sublist
      (l.map Prod.fst) := by
  induction l with
  | nil => exact List.Sublist.slnil
  | cons entry l ih =>
    rw [List.filterMap_cons, List.map_cons]
    cases f entry.1 entry.2 with
    | none => exact ih.cons _
    | some v => exact ih.cons_cons _

/-- Every value changed, and dropped where nothing is left of it. -/
def change (d : Dict κ ν) (f : κ → ν → Option ν) : Dict κ ν where
  rows := d.rows.filterMap fun entry => (f entry.1 entry.2).map fun v => (entry.1, v)
  nodup := d.nodup.sublist (keys_filterMap_sublist f d.rows)

variable {d : Dict κ ν} {k k' : κ} {v : ν}

theorem lookup_eq_some_iff : d.lookup k = some v ↔ (k, v) ∈ d.rows := by
  unfold lookup
  rw [Option.map_eq_some_iff]
  constructor
  · rintro ⟨⟨k', v'⟩, hget, rfl⟩
    obtain rfl : k' = k := Table.key_of_get hget
    exact Table.mem_of_get hget
  · intro hmem
    exact ⟨(k, v), Table.get_of_mem hmem, rfl⟩

@[simp] theorem lookup_empty : lookup (Table.empty : Dict κ ν) k = none := rfl

theorem lookup_set : (d.set k v).lookup k' = if k = k' then some v else d.lookup k' := by
  unfold lookup set
  rw [Table.get_put]
  by_cases h : k = k'
  · simp [h]
  · simp [h]

@[simp] theorem lookup_set_self : (d.set k v).lookup k = some v := by
  rw [lookup_set, if_pos rfl]

theorem lookup_remove : (d.remove k).lookup k' = if k = k' then none else d.lookup k' := by
  unfold lookup remove
  rw [Table.get_filter]
  cases hg : d.get k' with
  | none => simp
  | some entry =>
    obtain ⟨key, v⟩ := entry
    obtain rfl : key = k' := Table.key_of_get hg
    by_cases h : k = key
    · simp [h]
    · simp [h, Ne.symm h]

@[simp] theorem lookup_remove_self : (d.remove k).lookup k = none := by
  rw [lookup_remove, if_pos rfl]

/-- The value under a key set, or taken away. -/
def assign (d : Dict κ ν) (k : κ) : Option ν → Dict κ ν
  | some v => d.set k v
  | none => d.remove k

theorem lookup_assign {v : Option ν} :
    (d.assign k v).lookup k' = if k = k' then v else d.lookup k' := by
  cases v with
  | none => exact lookup_remove
  | some v => exact lookup_set

theorem lookup_change (f : κ → ν → Option ν) :
    (d.change f).lookup k = (d.lookup k).bind (f k) := by
  ext v
  rw [lookup_eq_some_iff, Option.bind_eq_some_iff]
  constructor
  · intro hmem
    obtain ⟨⟨k', w⟩, hw, heq⟩ := List.mem_filterMap.1 hmem
    obtain ⟨v', hv', heq⟩ := Option.map_eq_some_iff.1 heq
    cases heq
    exact ⟨w, lookup_eq_some_iff.2 hw, hv'⟩
  · rintro ⟨w, hw, hv⟩
    refine List.mem_filterMap.2 ⟨(k, w), lookup_eq_some_iff.1 hw, ?_⟩
    rw [show f (k, w).1 (k, w).2 = some v from hv]
    rfl

theorem isEmpty_iff : d.isEmpty = true ↔ ∀ k, d.lookup k = none := by
  unfold isEmpty
  rw [List.isEmpty_iff]
  constructor
  · intro h k
    rw [Option.eq_none_iff_forall_ne_some]
    intro v hv
    have hmem := lookup_eq_some_iff.1 hv
    rw [h] at hmem
    cases hmem
  · intro h
    rw [List.eq_nil_iff_forall_not_mem]
    rintro ⟨k, v⟩ hmem
    have hk := lookup_eq_some_iff.2 hmem
    rw [h k] at hk
    cases hk

/-! ## A set under each key -/

section

variable {α : Type} [DecidableEq α] {s : Dict κ (List α)} {x y : α}

/-- The members of the set under a key; none, if there is no set. -/
def members (s : Dict κ (List α)) (k : κ) : List α := (s.lookup k).getD []

/-- A member put into the set under a key. -/
def adjoin (s : Dict κ (List α)) (k : κ) (x : α) : Dict κ (List α) :=
  s.set k ((s.members k).insert x)

/-- A member taken out of the set under a key, which goes with its last member. -/
def discard (s : Dict κ (List α)) (k : κ) (x : α) : Dict κ (List α) :=
  match s.lookup k with
  | some l => if l.filter (· ≠ x) = [] then s.remove k else s.set k (l.filter (· ≠ x))
  | none => s

/-- The set under a key goes with a member that is taken out of it. -/
def emptied (s : Dict κ (List α)) (k : κ) (x : α) : Bool :=
  match s.lookup k with
  | some l => l.filter (· ≠ x) = []
  | none => false

theorem members_adjoin :
    (s.adjoin k x).members k' = if k = k' then (s.members k').insert x else s.members k' := by
  simp only [members, adjoin, lookup_set]
  by_cases h : k = k'
  · subst h
    simp
  · simp [h]

theorem mem_members_adjoin : y ∈ (s.adjoin k x).members k' ↔
    y ∈ s.members k' ∨ (k = k' ∧ y = x) := by
  rw [members_adjoin]
  split
  · rename_i h
    simp [h, or_comm]
  · rename_i h
    simp [h]

theorem members_discard :
    (s.discard k x).members k' =
      if k = k' then (s.members k').filter (· ≠ x) else s.members k' := by
  unfold discard
  cases hl : s.lookup k with
  | none =>
    by_cases h : k = k'
    · subst h
      simp [members, hl]
    · rw [if_neg h]
  | some l =>
    by_cases h : k = k'
    · subst h
      dsimp only
      split
      · rename_i hempty
        simp only [members, lookup_remove_self, hl, Option.getD_none, Option.getD_some, if_true,
          hempty]
      · simp only [members, lookup_set_self, hl, Option.getD_some, if_true]
    · dsimp only
      split
      · simp only [members, lookup_remove, if_neg h]
      · simp only [members, lookup_set, if_neg h]

theorem mem_members_discard : y ∈ (s.discard k x).members k' ↔
    y ∈ s.members k' ∧ ¬ (k = k' ∧ y = x) := by
  rw [members_discard]
  split
  · rename_i h
    simp [h]
  · rename_i h
    simp [h]

theorem emptied_iff : s.emptied k x = true ↔
    (s.lookup k).isSome ∧ (s.discard k x).members k = [] := by
  rw [members_discard, if_pos rfl]
  unfold emptied members
  cases s.lookup k with
  | none => simp
  | some l => simp

/-- Taking members out leaves no set that was not there. -/
theorem isSome_lookup_discard (h : ((s.discard k x).lookup k').isSome) :
    (s.lookup k').isSome := by
  unfold discard at h
  cases hl : s.lookup k with
  | none => rwa [hl] at h
  | some l =>
    rw [hl] at h
    dsimp only at h
    split at h
    · rw [lookup_remove] at h
      split at h
      · cases h
      · exact h
    · rw [lookup_set] at h
      split at h
      · rename_i heq
        rw [← heq, hl]
        rfl
      · exact h

end

end Dict
