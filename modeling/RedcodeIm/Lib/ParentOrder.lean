import Mathlib.Logic.Relation
import Mathlib.Data.Nat.Basic

/-!
# Parents that came before

A collection that grows one member at a time, each new member naming at most one
earlier member as its parent.  A *rank* that strictly grows from parent to child is all
that has to be kept while the collection grows; that nobody is its own ancestor and
that every ancestry ends at a member without a parent are then facts about the rank
alone.

* `Ranked` — every parent is a member of smaller rank.
* `Ranked.extend` — it survives a new member.
* `Ranked.irrefl`, `Ranked.root` — ancestry has no cycles and ends at a root.
-/

namespace ParentOrder

variable {α : Type}

/-- Every parent of a member is a member, of smaller rank. -/
structure Ranked (member : α → Prop) (parent : α → Option α) (rank : α → ℕ) : Prop where
  mem : ∀ x, member x → ∀ p, parent x = some p → member p
  lt : ∀ x, member x → ∀ p, parent x = some p → rank p < rank x

/-- `Ascends parent x p`: `p` is the parent of `x`. -/
def Ascends (parent : α → Option α) (x p : α) : Prop := parent x = some p

variable {member member' : α → Prop} {parent parent' : α → Option α} {rank : α → ℕ}

variable (h : Ranked member parent rank)

include h

/-- Nothing changes for a collection with the same members and parents. -/
theorem Ranked.congr (hm : ∀ x, member' x ↔ member x) (hp : ∀ x, member x → parent' x = parent x) :
    Ranked member' parent' rank := by
  refine ⟨fun x hx p hxp => ?_, fun x hx p hxp => ?_⟩
  · have hx' := (hm x).1 hx
    rw [hp x hx'] at hxp
    exact (hm p).2 (h.mem x hx' p hxp)
  · have hx' := (hm x).1 hx
    rw [hp x hx'] at hxp
    exact h.lt x hx' p hxp

/-- A new member whose parent, if it has one, is a member already. -/
theorem Ranked.extend [DecidableEq α] {n : α} (hn : ¬ member n) {q : Option α}
    (hq : ∀ p, q = some p → member p) (hm : ∀ x, member' x ↔ member x ∨ x = n)
    (hold : ∀ x, member x → parent' x = parent x) (hnew : parent' n = q) :
    Ranked member' parent' (fun x => if x = n then q.elim 0 (fun p => rank p + 1) else rank x) := by
  have hne : ∀ x, member x → x ≠ n := by
    rintro x hx rfl
    exact hn hx
  refine ⟨fun x hx p hxp => ?_, fun x hx p hxp => ?_⟩
  · rcases (hm x).1 hx with hx' | rfl
    · rw [hold x hx'] at hxp
      exact (hm p).2 (Or.inl (h.mem x hx' p hxp))
    · rw [hnew] at hxp
      exact (hm p).2 (Or.inl (hq p hxp))
  · rcases (hm x).1 hx with hx' | rfl
    · rw [hold x hx'] at hxp
      have hp := h.mem x hx' p hxp
      simp only [if_neg (hne x hx'), if_neg (hne p hp)]
      exact h.lt x hx' p hxp
    · rw [hnew] at hxp
      have hp := hq p hxp
      simp only [if_neg (hne p hp), if_true, hxp, Option.elim_some]
      omega

/-- Ancestors have smaller rank. -/
theorem Ranked.lt_of_transGen {x y : α} (hx : member x)
    (hxy : Relation.TransGen (Ascends parent) x y) : member y ∧ rank y < rank x := by
  induction hxy with
  | single hp => exact ⟨h.mem x hx _ hp, h.lt x hx _ hp⟩
  | tail _ hp ih =>
    obtain ⟨hb, hlt⟩ := ih
    exact ⟨h.mem _ hb _ hp, Nat.lt_trans (h.lt _ hb _ hp) hlt⟩

/-- **No member is its own ancestor.** -/
theorem Ranked.irrefl {x : α} (hx : member x) : ¬ Relation.TransGen (Ascends parent) x x := by
  intro hxx
  exact Nat.lt_irrefl _ (h.lt_of_transGen hx hxx).2

/-- **Every ancestry ends at a root.** -/
theorem Ranked.root {x : α} (hx : member x) :
    ∃ r, member r ∧ parent r = none ∧ Relation.ReflTransGen (Ascends parent) x r := by
  have key : ∀ n x, rank x = n → member x →
      ∃ r, member r ∧ parent r = none ∧ Relation.ReflTransGen (Ascends parent) x r := by
    intro n
    induction n using Nat.strong_induction_on with
    | _ n ih =>
      intro x hn hx
      cases hp : parent x with
      | none => exact ⟨x, hx, hp, .refl⟩
      | some p =>
        obtain ⟨r, hr, hr', hpr⟩ := ih (rank p) (hn ▸ h.lt x hx p hp) p rfl (h.mem x hx p hp)
        exact ⟨r, hr, hr', hpr.head hp⟩
  exact key (rank x) x rfl hx

end ParentOrder
