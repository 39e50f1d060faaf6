import Mathlib.Data.List.Basic

/-!
# Histories

A history is the list of what has happened, the latest first.

* `since p h` — what has happened since the last event of a kind.
* `OnceSince p q h` — since any event of the first kind there was one of the second at most.
-/

namespace History

variable {Event : Type} {p q : Event → Bool} {e : Event} {h : List Event}

/-- What has happened since the last event of a kind. -/
def since (p : Event → Bool) (h : List Event) : List Event := h.takeWhile (!p ·)

theorem since_cons_of_true (he : p e = true) : since p (e :: h) = [] := by
  simp [since, he]

theorem since_cons_of_false (he : p e = false) : since p (e :: h) = e :: since p h := by
  simp [since, he]

/-- Nothing of a kind has happened since, nor does it now. -/
theorem since_cons_all {r : Event → Bool} (hall : ∀ x ∈ since p h, r x = false)
    (he : p e = true ∨ r e = false) : ∀ x ∈ since p (e :: h), r x = false := by
  intro x hx
  cases hp : p e with
  | true =>
    rw [since_cons_of_true hp] at hx
    cases hx
  | false =>
    rw [since_cons_of_false hp] at hx
    rcases List.mem_cons.1 hx with rfl | hx
    · rw [hp] at he
      exact he.resolve_left Bool.false_ne_true
    · exact hall x hx

/-- At any time, there was at most one event of the second kind since the last of the first. -/
def OnceSince (p q : Event → Bool) (h : List Event) : Prop :=
  ∀ past, past <:+ h → (since p past).countP q ≤ 1

theorem onceSince_nil : OnceSince p q [] := by
  intro past hpast
  rw [List.suffix_nil.1 hpast]
  exact Nat.zero_le _

/-- An event of the second kind may come when there was none since. -/
theorem OnceSince.cons (hh : OnceSince p q h)
    (he : p e = true ∨ q e = false ∨ ∀ x ∈ since p h, q x = false) : OnceSince p q (e :: h) := by
  intro past hpast
  rcases List.suffix_cons_iff.1 hpast with rfl | hpast
  · cases hp : p e with
    | true =>
      rw [since_cons_of_true hp]
      exact Nat.zero_le _
    | false =>
      rw [since_cons_of_false hp, List.countP_cons]
      rw [hp] at he
      rcases he with he | he | he
      · cases he
      · rw [he]
        exact hh h (List.suffix_refl h)
      · rw [List.countP_eq_zero.2 fun x hx => by rw [he x hx]; exact Bool.false_ne_true]
        split <;> omega
  · exact hh past hpast

end History
