import Mathlib.Data.List.Sort

/-!
# Epoch ledgers

The ledger of a group that moves through numbered epochs: each *commit* opens the next
epoch under the group's current membership revision, a *welcome* belongs to the epoch
that is open, a membership change raises the revision and closes the open phase, and
a rekey demand closes it without raising anything.

* `Ledger` — revision, epoch, phase and the entries in the order they were made.
* `Ledger.Step` — the four moves, over entries of any type.
* `Ledger.Sound` — the commits are numbered `1, 2, …, epoch`, each welcome carries the
  epoch of the commit before it, an open phase has a commit of the current revision.
* `Ledger.Sound.steps` — every sequence of moves keeps it.
-/

namespace EpochLedger

open List

/-- How far a group is from an epoch its members can use. -/
inductive Phase where
  | preparing
  | active
  | rekey
  deriving DecidableEq

/-- How entries of a type are read. -/
structure Reading (α : Type) where
  isCommit : α → Bool
  epoch : α → ℕ
  revision : α → ℕ
  position : α → ℕ

/-- The ledger of a group. -/
structure Ledger (α : Type) where
  revision : ℕ
  epoch : ℕ
  phase : Phase
  entries : List α

namespace Ledger

variable {α : Type} (R : Reading α)

/-- The entry would be the last one. -/
def Fresh (l : Ledger α) (e : α) : Prop := ∀ x ∈ l.entries, R.position x < R.position e

/-- The ledger with one more entry. -/
def append (l : Ledger α) (e : α) : Ledger α := { l with entries := l.entries ++ [e] }

/-- The moves. -/
inductive Step : Ledger α → Ledger α → Prop where
  | commit (l : Ledger α) (e : α) (hk : R.isCommit e = true) (he : R.epoch e = l.epoch + 1)
      (hr : R.revision e = l.revision) (hp : l.Fresh R e) :
      Step l { l.append e with epoch := l.epoch + 1, phase := .active }
  | welcome (l : Ledger α) (e : α) (hk : R.isCommit e = false) (h0 : 0 < l.epoch)
      (he : R.epoch e = l.epoch) (hr : R.revision e = l.revision) (hp : l.Fresh R e) :
      Step l (l.append e)
  | membership (l : Ledger α) :
      Step l
        { l with
          revision := l.revision + 1, phase := if l.phase = .active then .rekey else l.phase }
  | rekey (l : Ledger α) : Step l { l with phase := .rekey }

/-- Any number of moves. -/
abbrev Steps : Ledger α → Ledger α → Prop := Relation.ReflTransGen (Step R)

/-- The commits among the entries. -/
def commits (l : Ledger α) : List α := l.entries.filter R.isCommit

/-- What the moves keep. -/
structure Sound (l : Ledger α) : Prop where
  /-- The entries stand in the order of their positions. -/
  sorted : l.entries.Pairwise fun a b => R.position a < R.position b
  /-- The commits are numbered from one, without gap or repetition. -/
  numbered : (l.commits R).map R.epoch = range' 1 l.epoch
  /-- A welcome carries the epoch of the latest commit before it. -/
  welcomed : ∀ pre e post, l.entries = pre ++ e :: post → R.isCommit e = false →
    ∃ c, (pre.filter R.isCommit).getLast? = some c ∧ R.epoch c = R.epoch e
  /-- In an open phase the latest commit carries the current revision. -/
  opened : l.phase = .active →
    ∃ c, (l.commits R).getLast? = some c ∧ R.revision c = l.revision
  /-- No entry carries a revision that is still to come. -/
  bounded : ∀ e ∈ l.entries, R.revision e ≤ l.revision

/-- What moves only ever add to. -/
structure Extends (l l' : Ledger α) : Prop where
  revision : l.revision ≤ l'.revision
  epoch : l.epoch ≤ l'.epoch
  entries : l.entries <+: l'.entries

variable {R}

theorem Extends.refl (l : Ledger α) : Extends l l :=
  ⟨Nat.le_refl _, Nat.le_refl _, prefix_refl _⟩

variable {l l' : Ledger α}

theorem Extends.trans {l'' : Ledger α} (h : Extends l l') (h' : Extends l' l'') : Extends l l'' :=
  ⟨h.revision.trans h'.revision, h.epoch.trans h'.epoch, h.entries.trans h'.entries⟩

theorem Step.extends (h : Step R l l') : Extends l l' := by
  cases h with
  | commit e hk he hr hp => exact ⟨Nat.le_refl _, Nat.le_succ _, prefix_append _ _⟩
  | welcome e hk h0 he hr hp => exact ⟨Nat.le_refl _, Nat.le_refl _, prefix_append _ _⟩
  | membership => exact ⟨Nat.le_succ _, Nat.le_refl _, prefix_refl _⟩
  | rekey => exact ⟨Nat.le_refl _, Nat.le_refl _, prefix_refl _⟩

theorem Steps.extends (h : Steps R l l') : Extends l l' := by
  induction h with
  | refl => exact Extends.refl _
  | tail _ hs ih => exact ih.trans hs.extends

/-! ## Soundness -/

/-- An empty ledger is sound. -/
theorem sound_empty {revision : ℕ} {phase : Phase} (h : phase ≠ .active) :
    Sound R { revision := revision, epoch := 0, phase := phase, entries := ([] : List α) } where
  sorted := List.Pairwise.nil
  numbered := rfl
  welcomed := by
    intro pre e post h
    simp at h
  opened := fun ha => absurd ha h
  bounded := by simp

/-- The entries of one side of a split of `entries ++ [e]` that is not its end. -/
theorem split_append {entries pre post : List α} {x e : α}
    (h : entries ++ [x] = pre ++ e :: post) :
    (post = [] ∧ pre = entries ∧ e = x) ∨ ∃ post', entries = pre ++ e :: post' := by
  rcases eq_nil_or_concat post with rfl | ⟨post', y, rfl⟩
  · left
    have h' := append_inj' h rfl
    exact ⟨rfl, h'.1.symm, by simpa using h'.2.symm⟩
  · right
    refine ⟨post', ?_⟩
    rw [concat_eq_append, ← cons_append, ← append_assoc] at h
    exact (append_inj' h rfl).1

theorem Sound.sorted_append (h : Sound R l) {e : α} (hp : l.Fresh R e) :
    (l.entries ++ [e]).Pairwise fun a b => R.position a < R.position b := by
  rw [pairwise_append]
  refine ⟨h.sorted, pairwise_singleton _ _, fun a ha b hb => ?_⟩
  rw [mem_singleton.1 hb]
  exact hp a ha

theorem Sound.bounded_append (h : Sound R l) {e : α} (hr : R.revision e ≤ l.revision) :
    ∀ x ∈ l.entries ++ [e], R.revision x ≤ l.revision := by
  intro x hx
  rcases mem_append.1 hx with hx' | hx'
  · exact h.bounded x hx'
  · rw [mem_singleton.1 hx']
    exact hr

/-- The latest commit carries the epoch of the ledger. -/
theorem Sound.getLast_commits (h : Sound R l) (h0 : 0 < l.epoch) :
    ∃ c, (l.commits R).getLast? = some c ∧ R.epoch c = l.epoch := by
  cases hc : (l.commits R).getLast? with
  | none =>
    rw [getLast?_eq_none_iff] at hc
    have := h.numbered
    rw [hc, map_nil] at this
    have hlen := congrArg length this
    simp at hlen
    omega
  | some c =>
    refine ⟨c, rfl, ?_⟩
    have hl : ((l.commits R).map R.epoch).getLast? = some (R.epoch c) := by
      rw [getLast?_map, hc]
      rfl
    rw [h.numbered, getLast?_range'] at hl
    simp only [show l.epoch ≠ 0 by omega, if_false, Option.some.injEq] at hl
    omega

/-- **One move keeps a ledger sound.** -/
theorem Sound.step (h : Sound R l) (hs : Step R l l') : Sound R l' := by
  cases hs with
  | commit e hk he hr hp =>
    have hcommits : (l.entries ++ [e]).filter R.isCommit = l.commits R ++ [e] := by
      simp [commits, filter_append, hk]
    refine ⟨h.sorted_append hp, ?_, ?_, ?_, h.bounded_append hr.le⟩
    · show ((l.entries ++ [e]).filter R.isCommit).map R.epoch = range' 1 (l.epoch + 1)
      rw [hcommits, map_append, h.numbered, range'_concat, map_singleton, he]
      simp [Nat.add_comm]
    · intro pre x post hsplit hx
      rcases split_append hsplit with ⟨-, -, rfl⟩ | ⟨post', hpre⟩
      · rw [hk] at hx
        exact absurd hx (by simp)
      · exact h.welcomed pre x post' hpre hx
    · intro _
      refine ⟨e, ?_, hr⟩
      show ((l.entries ++ [e]).filter R.isCommit).getLast? = some e
      rw [hcommits, getLast?_concat]
  | welcome e hk h0 he hr hp =>
    have hcommits : (l.entries ++ [e]).filter R.isCommit = l.commits R := by
      simp [commits, filter_append, hk]
    refine ⟨h.sorted_append hp, ?_, ?_, ?_, h.bounded_append hr.le⟩
    · show ((l.entries ++ [e]).filter R.isCommit).map R.epoch = range' 1 l.epoch
      rw [hcommits, h.numbered]
    · intro pre x post hsplit hx
      rcases split_append hsplit with ⟨-, rfl, rfl⟩ | ⟨post', hpre⟩
      · obtain ⟨c, hc, hce⟩ := h.getLast_commits h0
        exact ⟨c, hc, by rw [hce, he]⟩
      · exact h.welcomed pre x post' hpre hx
    · intro ha
      obtain ⟨c, hc, hcr⟩ := h.opened ha
      refine ⟨c, ?_, hcr⟩
      show ((l.entries ++ [e]).filter R.isCommit).getLast? = some c
      rw [hcommits, hc]
  | membership =>
    refine ⟨h.sorted, h.numbered, h.welcomed, ?_, fun e he => Nat.le_succ_of_le (h.bounded e he)⟩
    intro ha
    by_cases hp : l.phase = .active <;> simp [hp] at ha
  | rekey => exact ⟨h.sorted, h.numbered, h.welcomed, by simp, h.bounded⟩

/-- **Any number of moves keep a ledger sound.** -/
theorem Sound.steps (h : Sound R l) (hs : Steps R l l') : Sound R l' := by
  induction hs with
  | refl => exact h
  | tail _ hs ih => exact ih.step hs

/-! ## What soundness says of single entries -/

/-- The commits are numbered up to the epoch of the ledger, each number once. -/
theorem Sound.epoch_inj (h : Sound R l) {c c' : α} (hc : c ∈ l.commits R) (hc' : c' ∈ l.commits R)
    (he : R.epoch c = R.epoch c') : c = c' := by
  refine inj_on_of_nodup_map ?_ hc hc' he
  rw [h.numbered]
  exact nodup_range'

/-- A welcome follows a commit of its epoch, and no other commit stands in between. -/
theorem Sound.commit_before (h : Sound R l) {e : α} (he : e ∈ l.entries)
    (hk : R.isCommit e = false) :
    ∃ c ∈ l.commits R, R.position c < R.position e ∧ R.epoch c = R.epoch e ∧
      ∀ c' ∈ l.commits R, R.position c' < R.position e → R.position c' ≤ R.position c := by
  obtain ⟨pre, post, hsplit⟩ := append_of_mem he
  obtain ⟨c, hc, hce⟩ := h.welcomed pre e post hsplit hk
  have hcpre : c ∈ pre.filter R.isCommit := mem_of_getLast? hc
  have hcent : c ∈ l.entries := by
    rw [hsplit]
    exact mem_append_left _ (mem_of_mem_filter hcpre)
  have hsorted := h.sorted
  rw [hsplit, pairwise_append] at hsorted
  obtain ⟨hpre, hpost, hcross⟩ := hsorted
  refine ⟨c, mem_filter.2 ⟨hcent, (mem_filter.1 hcpre).2⟩,
    hcross c (mem_of_mem_filter hcpre) e mem_cons_self, hce, fun c' hc' hlt => ?_⟩
  obtain ⟨hc'ent, hc'k⟩ := mem_filter.1 hc'
  rw [hsplit] at hc'ent
  rcases mem_append.1 hc'ent with hin | hin
  · -- before the welcome: `c` is the last commit there
    have hf : c' ∈ pre.filter R.isCommit := mem_filter.2 ⟨hin, hc'k⟩
    obtain ⟨front, hfront⟩ := getLast?_eq_some_iff.1 hc
    rw [hfront] at hf
    rcases mem_append.1 hf with hf' | hf'
    · have hp := hpre.filter R.isCommit
      rw [hfront, pairwise_append] at hp
      exact (hp.2.2 c' hf' c (by simp)).le
    · rw [mem_singleton.1 hf']
  · -- at or after the welcome: excluded by the positions
    rcases mem_cons.1 hin with rfl | hin'
    · exact absurd hlt (Nat.lt_irrefl _)
    · have := (pairwise_cons.1 hpost).1 c' hin'
      omega

/-- Before the first epoch there are no entries. -/
theorem Sound.entries_of_epoch_zero (h : Sound R l) (h0 : l.epoch = 0) : l.entries = [] := by
  have hcommits : l.commits R = [] := by
    have := h.numbered
    rwa [h0, range'_zero, map_eq_nil_iff] at this
  refine eq_nil_iff_forall_not_mem.2 fun e he => ?_
  cases hk : R.isCommit e with
  | true =>
    have : e ∈ l.commits R := mem_filter.2 ⟨he, hk⟩
    simp [hcommits] at this
  | false =>
    obtain ⟨c, hc, -⟩ := h.commit_before he hk
    simp [hcommits] at hc

/-- An open phase has exactly one commit of its epoch, made under the current revision. -/
theorem Sound.commit_of_active (h : Sound R l) (ha : l.phase = .active) :
    ∃ c ∈ l.commits R, R.epoch c = l.epoch ∧ R.revision c = l.revision ∧
      ∀ c' ∈ l.commits R, R.epoch c' = l.epoch → c' = c := by
  obtain ⟨c, hc, hr⟩ := h.opened ha
  have hmem : c ∈ l.commits R := mem_of_getLast? hc
  have h0 : 0 < l.epoch := by
    have : R.epoch c ∈ (l.commits R).map R.epoch := mem_map_of_mem hmem
    rw [h.numbered, mem_range'_1] at this
    omega
  obtain ⟨c₂, hc₂, he⟩ := h.getLast_commits h0
  rw [hc, Option.some.injEq] at hc₂
  subst hc₂
  exact ⟨c, hmem, he, hr, fun c' hc' he' => h.epoch_inj hc' hmem (he'.trans he.symm)⟩

end Ledger

end EpochLedger
