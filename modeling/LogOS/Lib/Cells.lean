import Mathlib.Logic.Function.Basic
import Mathlib.Tactic.Common

/-!
# Programs over cells

A program that reads and writes cells, where the cell `a` holds a value of type `V a`.  The trace of a run lists the cells that it
reads or writes.  A run does not depend on other cells and does not change them, so programs whose traces have no cell in common
can be run in either order.

`Uses S Q` says of a program that it stays within the cells of `S` whatever it reads, and that its result satisfies `Q`.
-/

namespace LogOS.Lib

open List Function

/-- A program over the cells `A`. -/
inductive Prog {A : Type} (V : A → Type) (α : Type) : Type
  | ret (x : α)
  | read (a : A) (k : V a → Prog V α)
  | write (a : A) (v : V a) (k : Prog V α)

namespace Prog

variable {A : Type} {V : A → Type} {α β : Type}

def andThen : Prog V α → (α → Prog V β) → Prog V β
  | ret x, f => f x
  | read a k, f => read a fun v => (k v).andThen f
  | write a v k, f => write a v (k.andThen f)

instance : Monad (Prog V) where
  pure := ret
  bind := andThen

def get (a : A) : Prog V (V a) := read a ret

def put (a : A) (v : V a) : Prog V Unit := write a v (ret ())

section Run

variable [DecidableEq A]

def run : Prog V α → (∀ a, V a) → α × (∀ a, V a)
  | ret x, m => (x, m)
  | read a k, m => (k (m a)).run m
  | write a v k, m => k.run (Function.update m a v)

/-- The cells that a run reads or writes. -/
def trace : Prog V α → (∀ a, V a) → List A
  | ret _, _ => []
  | read a k, m => a :: (k (m a)).trace m
  | write a v k, m => a :: k.trace (Function.update m a v)

/-- What is not in the trace is not changed. -/
theorem run_of_notMem (p : Prog V α) {m : ∀ a, V a} {a : A} (h : a ∉ p.trace m) : (p.run m).2 a = m a := by
  induction p generalizing m with
  | ret x => rfl
  | read b k ih => exact ih (m b) fun hmem => h (mem_cons_of_mem _ hmem)
  | write b v k ih =>
    have hab : a ≠ b := by
      rintro rfl
      exact h mem_cons_self
    have hrest := ih fun hmem => h (mem_cons_of_mem _ hmem)
    rw [run, hrest, update_of_ne hab]

/-- What is not in the trace is not read. -/
theorem run_congr (p : Prog V α) (m m' : ∀ a, V a) (h : ∀ a ∈ p.trace m, m' a = m a) :
    p.trace m' = p.trace m ∧ (p.run m').1 = (p.run m).1 ∧ ∀ a ∈ p.trace m, (p.run m').2 a = (p.run m).2 a := by
  suffices hboth : p.trace m' = p.trace m ∧ (p.run m').1 = (p.run m).1 ∧ ∀ a, m' a = m a → (p.run m').2 a = (p.run m).2 a from
    ⟨hboth.1, hboth.2.1, fun a ha => hboth.2.2 a (h a ha)⟩
  induction p generalizing m m' with
  | ret x => exact ⟨rfl, rfl, fun _ ha => ha⟩
  | read b k ih =>
    have hb : m' b = m b := h b mem_cons_self
    rw [trace, run, hb]
    have hrest := ih (m b) m m' fun a ha => h a (mem_cons_of_mem _ ha)
    exact ⟨congrArg _ hrest.1, hrest.2⟩
  | write b v k ih =>
    have hagree : ∀ a, m' a = m a → update m' b v a = update m b v a := by
      intro a ha
      by_cases hab : a = b
      · subst hab
        rw [update_self, update_self]
      · rw [update_of_ne hab, update_of_ne hab, ha]
    have hrest := ih _ _ fun a ha => hagree a (h a (mem_cons_of_mem _ ha))
    rw [trace, run]
    exact ⟨congrArg _ hrest.1, hrest.2.1, fun a ha => hrest.2.2 a (hagree a ha)⟩

/-- **Programs without a common cell commute**: each returns the same in either order, and the cells are the same in the end. -/
theorem run_comm (p : Prog V α) (q : Prog V β) {m : ∀ a, V a} (h : ∀ a ∈ p.trace m, a ∉ q.trace m) :
    (q.run (p.run m).2).1 = (q.run m).1 ∧ (p.run (q.run m).2).1 = (p.run m).1 ∧
      (q.run (p.run m).2).2 = (p.run (q.run m).2).2 := by
  obtain ⟨htraceq, hresultq, hcellsq⟩ := q.run_congr m (p.run m).2 fun a ha => p.run_of_notMem fun hp => h a hp ha
  obtain ⟨htracep, hresultp, hcellsp⟩ := p.run_congr m (q.run m).2 fun a ha => q.run_of_notMem (h a ha)
  refine ⟨hresultq, hresultp, funext fun a => ?_⟩
  by_cases hp : a ∈ p.trace m
  · rw [hcellsp a hp, q.run_of_notMem (by rw [htraceq]; exact h a hp)]
  · rw [p.run_of_notMem (by rwa [htracep])]
    by_cases hq : a ∈ q.trace m
    · exact hcellsq a hq
    · rw [q.run_of_notMem (by rwa [htraceq]), p.run_of_notMem hp, q.run_of_notMem hq]

end Run

/-! ## Staying within a set of cells -/

/-- Whatever it reads, the program stays within `S` and returns what satisfies `Q`. -/
def Uses (S : A → Prop) (Q : α → Prop) : Prog V α → Prop
  | ret x => Q x
  | read a k => S a ∧ ∀ v, Uses S Q (k v)
  | write a _ k => S a ∧ Uses S Q k

variable {S : A → Prop} {Q : α → Prop} {R : β → Prop}

lemma uses_pure {x : α} (h : Q x) : Uses S Q (pure x : Prog V α) := h

lemma uses_get {a : A} (ha : S a) : Uses S (fun _ => True) (get a : Prog V (V a)) := ⟨ha, fun _ => trivial⟩

lemma uses_put {a : A} (v : V a) (ha : S a) : Uses S (fun _ => True) (put a v : Prog V Unit) := ⟨ha, trivial⟩

lemma Uses.bind {p : Prog V α} {f : α → Prog V β} (hp : Uses S Q p) (hf : ∀ x, Q x → Uses S R (f x)) : Uses S R (p >>= f) := by
  induction p with
  | ret x => exact hf x hp
  | read a k ih => exact ⟨hp.1, fun v => ih v (hp.2 v)⟩
  | write a v k ih => exact ⟨hp.1, ih hp.2⟩

lemma Uses.mem_trace [DecidableEq A] {p : Prog V α} (hp : Uses S Q p) (m : ∀ a, V a) : ∀ a ∈ p.trace m, S a := by
  induction p generalizing m with
  | ret x => exact nofun
  | read b k ih =>
    intro a ha
    rcases mem_cons.mp ha with rfl | ha
    · exact hp.1
    · exact ih (m b) (hp.2 _) m a ha
  | write b v k ih =>
    intro a ha
    rcases mem_cons.mp ha with rfl | ha
    · exact hp.1
    · exact ih hp.2 _ a ha

end Prog

end LogOS.Lib
