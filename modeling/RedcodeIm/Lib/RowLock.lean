import Mathlib.Data.List.Basic

/-!
# Row locks

The four row-lock modes of PostgreSQL and their conflict table, together with
lists of held locks.  A transaction that updates a row holds it in one of the
two write modes; a transaction that has read a row `FOR SHARE` or stronger keeps
every writer of that row out (`LockMode.conflicts_of_protects`).  `FOR KEY SHARE`,
the lock a foreign-key check takes, keeps out only `FOR UPDATE`.
-/

/-- The row-lock modes, weakest first. -/
inductive LockMode where
  | keyShare
  | share
  | noKeyUpdate
  | update
  deriving DecidableEq

namespace LockMode

/-- The conflict table: which two modes cannot be held on one row by two
transactions. -/
def conflicts : LockMode → LockMode → Bool
  | .keyShare, .update => true
  | .update, .keyShare => true
  | .keyShare, _ => false
  | _, .keyShare => false
  | .share, .share => false
  | _, _ => true

/-- The modes a transaction holds on a row it writes. -/
def isWrite : LockMode → Bool
  | .noKeyUpdate => true
  | .update => true
  | _ => false

/-- The modes that keep every writer of the row out. -/
def protects : LockMode → Bool
  | .keyShare => false
  | _ => true

theorem conflicts_comm (m n : LockMode) : m.conflicts n = n.conflicts m := by
  cases m <;> cases n <;> rfl

theorem conflicts_of_protects {m n : LockMode} (hm : m.protects = true)
    (hn : n.isWrite = true) : m.conflicts n = true := by
  cases m <;> cases n <;> simp_all [protects, isWrite, conflicts]

end LockMode

/-- The locks one transaction holds. -/
abbrev Locks (Key : Type) := List (Key × LockMode)

namespace Locks

variable {Key : Type} [DecidableEq Key]

/-- Two transactions may hold these locks at the same time. -/
def compatible (a b : Locks Key) : Bool :=
  a.all fun p => b.all fun q => !(decide (p.1 = q.1) && p.2.conflicts q.2)

@[simp] theorem compatible_nil_right (a : Locks Key) : compatible a ([] : Locks Key) = true := by
  simp [compatible]

theorem compatible_iff {a b : Locks Key} :
    compatible a b = true ↔ ∀ p ∈ a, ∀ q ∈ b, p.1 = q.1 → p.2.conflicts q.2 = false := by
  simp only [compatible, List.all_eq_true, Bool.not_eq_true', Bool.and_eq_false_imp,
    decide_eq_true_eq]

theorem compatible_comm {a b : Locks Key} (h : compatible a b = true) :
    compatible b a = true := by
  rw [compatible_iff] at h ⊢
  intro q hq p hp hqp
  rw [LockMode.conflicts_comm]
  exact h p hp q hq hqp.symm

/-- **A protected row has no other writer.**  If one transaction holds a row
`FOR SHARE` or stronger, no transaction with compatible locks holds it in a
write mode. -/
theorem not_isWrite_of_protects {a b : Locks Key} (h : compatible a b = true) {k : Key}
    {m n : LockMode} (hm : (k, m) ∈ a) (hp : m.protects = true) (hn : (k, n) ∈ b) :
    n.isWrite = false := by
  cases hw : n.isWrite with
  | false => rfl
  | true =>
    have hc := (compatible_iff.1 h) (k, m) hm (k, n) hn rfl
    rw [LockMode.conflicts_of_protects hp hw] at hc
    exact absurd hc (by simp)

end Locks
