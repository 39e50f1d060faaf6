import Mathlib.Data.Finset.Card

/-!
# The keys accepted last

A filter that lets a key through unless it is among the last keys it has let through.

* `Recent.note`, `Recent.accept`, `Recent.after` — the memory, and the filter.
* `mem_of_mem_after` — only keys that were offered are remembered.
* `mem_after_of_le` — a large memory forgets no key.
* `mem_after` — a key is remembered until as many others have followed it.
-/

namespace Recent

open List

variable {K : Type} [DecidableEq K]

/-- The last keys, once one more has been accepted. -/
def note (n : ℕ) (recent : List K) (k : K) : List K :=
  (recent ++ [k]).drop ((recent ++ [k]).length - n)

def accept (n : ℕ) (recent : List K) (k : K) : Bool × List K :=
  if k ∈ recent then (false, recent) else (true, note n recent k)

/-- The last keys, once these have been offered. -/
def after (n : ℕ) (recent : List K) (ks : List K) : List K :=
  ks.foldl (fun recent k => (accept n recent k).2) recent

variable {n : ℕ} {recent ks : List K} {k k' : K}

@[simp] theorem after_nil : after n recent [] = recent := rfl

@[simp] theorem after_cons : after n recent (k :: ks) = after n (accept n recent k).2 ks := rfl

theorem after_append {ks' : List K} :
    after n recent (ks ++ ks') = after n (after n recent ks) ks' :=
  foldl_append

theorem accept_iff : (accept n recent k).1 = true ↔ k ∉ recent := by
  unfold accept
  split
  · rename_i hmem
    exact ⟨(fun h => by cases h), fun h => absurd hmem h⟩
  · rename_i hnew
    exact ⟨fun _ => hnew, fun _ => rfl⟩

theorem mem_of_mem_accept (h : k' ∈ (accept n recent k).2) : k' ∈ recent ∨ k' = k := by
  unfold accept at h
  split at h
  · exact .inl h
  · have hmem : k' ∈ recent ++ [k] := mem_of_mem_drop h
    simpa using hmem

/-- Only keys that were offered are remembered. -/
theorem mem_of_mem_after (h : k ∈ after n recent ks) : k ∈ recent ∨ k ∈ ks := by
  induction ks generalizing recent with
  | nil => exact .inl h
  | cons k' ks ih =>
    rcases ih h with hmem | hmem
    · rcases mem_of_mem_accept hmem with hmem | rfl
      · exact .inl hmem
      · exact .inr (.head _)
    · exact .inr (.tail _ hmem)

/-- A memory that is large enough for all keys forgets none. -/
theorem mem_after_of_le (h : recent.length + ks.length ≤ n) :
    k ∈ after n recent ks ↔ k ∈ recent ∨ k ∈ ks := by
  induction ks generalizing recent with
  | nil => simp
  | cons k' ks ih =>
    rw [length_cons] at h
    rw [after_cons]
    unfold accept
    split
    · rename_i hmem
      have hle : recent.length + ks.length ≤ n := by omega
      rw [ih hle, mem_cons]
      constructor
      · exact fun hor => hor.imp_right .inr
      · rintro (hk | rfl | hk)
        · exact .inl hk
        · exact .inl hmem
        · exact .inr hk
    · have hzero : (recent ++ [k']).length - n = 0 := by
        rw [length_append, length_singleton]
        omega
      rw [note, hzero, drop_zero, ih (by simp; omega)]
      simp [or_assoc]

omit [DecidableEq K] in
/-- One more key leaves those that stand among the last. -/
theorem note_append (before : List K) (h : recent.length + 1 ≤ n) :
    ∃ before', note n (before ++ recent) k = before' ++ (recent ++ [k]) := by
  have hle : (before ++ recent ++ [k]).length - n ≤ before.length := by
    simp only [length_append, length_singleton]
    omega
  refine ⟨before.drop ((before ++ recent ++ [k]).length - n), ?_⟩
  unfold note
  rw [append_assoc] at hle ⊢
  rw [drop_append_of_le_length hle]

/-- **A key is remembered until as many others have followed it.**  `news` are those that have
followed already. -/
theorem mem_after_append {before news : List K} (hnodup : news.Nodup) (hk : k ∉ news)
    (hfew : ((news ++ ks).toFinset.erase k).card < n) :
    k ∈ after n (before ++ k :: news) ks := by
  induction ks generalizing before news with
  | nil => exact mem_append_right _ (.head _)
  | cons k' ks ih =>
    rw [after_cons]
    unfold accept
    split
    · -- The key was remembered: nothing has changed.
      refine ih hnodup hk (lt_of_le_of_lt (Finset.card_le_card ?_) hfew)
      refine Finset.erase_subset_erase k fun x hx => ?_
      simp only [mem_toFinset, mem_append, mem_cons] at hx ⊢
      exact hx.imp_right .inr
    · rename_i hnew
      simp only [mem_append, mem_cons, not_or] at hnew
      obtain ⟨-, hne, hfresh⟩ := hnew
      have hnodup' : (news ++ [k']).Nodup := by
        refine nodup_append.2 ⟨hnodup, nodup_singleton k', ?_⟩
        intro a ha b hb hab
        obtain rfl := mem_singleton.1 hb
        exact hfresh (hab ▸ ha)
      have hk' : k ∉ news ++ [k'] := by
        simp only [mem_append, mem_singleton, not_or]
        exact ⟨hk, fun heq => hne heq.symm⟩
      have hlength : (k :: news).length + 1 ≤ n := by
        have hsub : (news ++ [k']).toFinset ⊆ (news ++ k' :: ks).toFinset.erase k := by
          intro x hx
          rw [mem_toFinset] at hx
          refine Finset.mem_erase.2 ⟨fun heq => hk' (heq ▸ hx), ?_⟩
          rw [mem_append, mem_singleton] at hx
          rw [mem_toFinset, mem_append, mem_cons]
          exact hx.imp_right .inl
        have hle := Finset.card_le_card hsub
        rw [toFinset_card_of_nodup hnodup', length_append, length_singleton] at hle
        rw [length_cons]
        omega
      obtain ⟨before', heq⟩ := note_append (k := k') before hlength
      rw [heq, show k :: news ++ [k'] = k :: (news ++ [k']) from rfl]
      refine ih hnodup' hk' ?_
      rwa [append_assoc]

theorem mem_after (hnew : k ∉ recent) (hfew : (ks.toFinset.erase k).card < n) :
    k ∈ after n recent (k :: ks) := by
  have hone : ([] : List K).length + 1 ≤ n := by
    rw [length_nil]
    omega
  obtain ⟨before, heq⟩ := note_append (k := k) recent hone
  rw [append_nil, nil_append] at heq
  rw [after_cons, accept, if_neg hnew, heq]
  exact mem_after_append nodup_nil not_mem_nil hfew

end Recent
