import Mathlib.Data.Nat.ModEq
import Mathlib.Data.List.Basic
import Mathlib.Tactic.Common

/-!
# Ring buffers

A ring of `capacity` cells holds a queue of at most that many elements from cell `head` on, wrapping round at the end.
`Holds` says what the cells contain; the two lemmas say what putting an element behind the last and taking the first
away do to it.
-/

namespace LogOS.Lib.Ring

variable {α : Type} {cell cell' : ℕ → Option α} {capacity head : ℕ}

/-- The cells from `head` on contain `queue`. -/
def Holds (cell : ℕ → Option α) (capacity head : ℕ) (queue : List α) : Prop :=
  ∀ i (h : i < queue.length), cell ((head + i) % capacity) = some queue[i]

lemma holds_nil : Holds cell capacity head [] := fun _ h => absurd h (Nat.not_lt_zero _)

/-- Different positions of the queue are in different cells. -/
theorem position_inj {i j : ℕ} (hi : i < capacity) (hj : j < capacity)
    (h : (head + i) % capacity = (head + j) % capacity) : i = j := by
  have hmod : i ≡ j [MOD capacity] := Nat.ModEq.add_left_cancel' head h
  rwa [Nat.ModEq, Nat.mod_eq_of_lt hi, Nat.mod_eq_of_lt hj] at hmod

lemma Holds.congr {queue : List α} (h : Holds cell capacity head queue)
    (hcell : ∀ i < capacity, cell' i = cell i) (hcap : 0 < capacity) : Holds cell' capacity head queue := by
  intro i hi
  rw [hcell _ (Nat.mod_lt _ hcap)]
  exact h i hi

lemma Holds.push {queue : List α} (h : Holds cell capacity head queue) (hroom : queue.length < capacity) {a : α}
    (hsame : ∀ i < capacity, i ≠ (head + queue.length) % capacity → cell' i = cell i)
    (hnew : cell' ((head + queue.length) % capacity) = some a) : Holds cell' capacity head (queue ++ [a]) := by
  intro i hi
  rw [List.length_append, List.length_singleton] at hi
  rcases Nat.lt_succ_iff_lt_or_eq.mp hi with hlt | rfl
  · rw [List.getElem_append_left hlt, hsame _ (Nat.mod_lt _ (by omega)), h i hlt]
    intro heq
    have := position_inj (hlt.trans hroom) hroom heq
    omega
  · simpa using hnew

lemma Holds.front {queue : List α} {a : α} (h : Holds cell capacity head (a :: queue)) (hhead : head < capacity) :
    cell head = some a := by
  have := h 0 (by simp)
  rwa [add_zero, Nat.mod_eq_of_lt hhead] at this

lemma Holds.pop {queue : List α} {a : α} (h : Holds cell capacity head (a :: queue)) :
    Holds cell capacity ((head + 1) % capacity) queue := by
  intro i hi
  have := h (i + 1) (by simpa using hi)
  rw [Nat.mod_add_mod, add_assoc, add_comm 1 i]
  simpa using this

end LogOS.Lib.Ring
