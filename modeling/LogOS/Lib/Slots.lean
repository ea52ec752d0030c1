import Mathlib.Data.List.Induction
import Mathlib.Data.List.ReduceOption
import Mathlib.Tactic.Common

/-!
# Rows of slots

An array of a fixed number of slots, each of them empty or taken.  A table of records without generations is such a row, and so
is a list with a bounded number of entries.
-/

namespace LogOS.Lib

open List Option

/-- A row of `n` slots. -/
structure Slots (n : ℕ) (α : Type) where
  entries : List (Option α)
  length_eq : entries.length = n
  deriving DecidableEq

namespace Slots

variable {n : ℕ} {α : Type}

def empty (n : ℕ) (α : Type) : Slots n α := ⟨List.replicate n none, List.length_replicate⟩

/-- What slot `i` holds; nothing past the end. -/
def get (t : Slots n α) (i : ℕ) : Option α := t.entries[i]?.join

/-- The values in the slots that are taken, in order. -/
def values (t : Slots n α) : List α := t.entries.reduceOption

def put (t : Slots n α) (i : ℕ) (o : Option α) : Slots n α :=
  ⟨t.entries.set i o, by rw [List.length_set, t.length_eq]⟩

/-- The first slot whose content satisfies `p`. -/
def firstWhere (t : Slots n α) (p : Option α → Bool) : Option ℕ := t.entries.findIdx? p

def firstFree (t : Slots n α) : Option ℕ := t.firstWhere Option.isNone

/-- The first value that satisfies `p` is changed by `f`. -/
def change (t : Slots n α) (p : α → Bool) (f : α → α) : Slots n α :=
  match t.firstWhere (Option.any p) with
  | some i => t.put i ((t.get i).map f)
  | none => t

/-! ## Lookup -/

variable {t : Slots n α} {a : α} {i : ℕ}

lemma mem_values_iff : a ∈ t.values ↔ ∃ i, t.get i = some a := by
  unfold values get
  rw [reduceOption_mem_iff, mem_iff_getElem?]
  constructor
  · rintro ⟨i, hi⟩
    exact ⟨i, by rw [hi]; rfl⟩
  · rintro ⟨i, hi⟩
    exact ⟨i, join_eq_some_iff.mp hi⟩

lemma values_empty : (empty n α).values = [] := by
  refine eq_nil_iff_forall_not_mem.mpr ?_
  intro a ha
  have hmem : some a ∈ replicate n (none : Option α) := reduceOption_mem_iff.mp ha
  exact some_ne_none a (eq_of_mem_replicate hmem)

lemma get_empty (i : ℕ) : (empty n α).get i = none := by
  unfold get empty
  rw [getElem?_replicate]
  split <;> rfl

lemma put_put (t : Slots n α) (i : ℕ) (o o' : Option α) : (t.put i o).put i o' = t.put i o' := by
  unfold put
  rw [Slots.mk.injEq, set_set]

lemma get_put (t : Slots n α) (i : ℕ) (o : Option α) (j : ℕ) : (t.put i o).get j = if j = i ∧ i < n then o else t.get j := by
  unfold get put
  rw [getElem?_set]
  by_cases hij : i = j
  · subst hij
    by_cases hi : i < n
    · rw [if_pos rfl, if_pos (by rw [t.length_eq]; exact hi), if_pos ⟨rfl, hi⟩]
      rfl
    · have hlen : ¬ i < t.entries.length := by rw [t.length_eq]; exact hi
      rw [if_pos rfl, if_neg hlen, if_neg fun h => hi h.2, getElem?_eq_none (Nat.le_of_not_lt hlen)]
  · rw [if_neg hij, if_neg fun h => hij h.1.symm]

lemma mem_values_put {o : Option α} (h : a ∈ (t.put i o).values) : o = some a ∨ a ∈ t.values := by
  obtain ⟨j, hj⟩ := mem_values_iff.mp h
  rw [get_put] at hj
  split at hj
  · exact .inl hj
  · exact .inr (mem_values_iff.mpr ⟨j, hj⟩)

/-- A value in another slot stays where it is. -/
theorem mem_values_put_of_get {j : ℕ} {o : Option α} (h : t.get j = some a) (hj : j ≠ i) : a ∈ (t.put i o).values := by
  refine mem_values_iff.mpr ⟨j, ?_⟩
  rw [get_put, if_neg fun hji => hj hji.1, h]

lemma mem_values_put_self (hi : i < n) (a : α) : a ∈ (t.put i (some a)).values := by
  refine mem_values_iff.mpr ⟨i, ?_⟩
  rw [get_put, if_pos ⟨rfl, hi⟩]

/-! ## Search -/

lemma firstWhere_eq_some {p : Option α → Bool} (h : t.firstWhere p = some i) : i < n ∧ p (t.get i) = true := by
  obtain ⟨hi, hp, -⟩ := findIdx?_eq_some_iff_getElem.mp h
  refine ⟨t.length_eq ▸ hi, ?_⟩
  rw [get, getElem?_eq_getElem hi]
  exact hp

lemma firstFree_eq_some (h : t.firstFree = some i) : i < n ∧ t.get i = none := by
  obtain ⟨hi, hfree⟩ := firstWhere_eq_some h
  exact ⟨hi, isNone_iff_eq_none.mp hfree⟩

/-- Where slot `i` is free, the first free slot is not behind it. -/
theorem exists_firstFree (t : Slots n α) (hi : i < n) (h : t.get i = none) : ∃ j, t.firstFree = some j ∧ j ≤ i := by
  have hlt : i < t.entries.length := by rw [t.length_eq]; exact hi
  have hfree : t.entries[i] = none := by
    rw [get, getElem?_eq_getElem hlt] at h
    exact h
  rcases hj : t.firstFree with _ | j
  · have := findIdx?_eq_none_iff.mp hj t.entries[i] (getElem_mem hlt)
    rw [hfree] at this
    cases this
  · obtain ⟨_, _, hbefore⟩ := findIdx?_eq_some_iff_getElem.mp hj
    refine ⟨j, rfl, Nat.le_of_not_lt fun hij => ?_⟩
    have := hbefore i hij
    rw [hfree] at this
    exact this rfl

lemma firstWhere_any_eq_none {p : α → Bool} (h : t.firstWhere (Option.any p) = none) (ha : a ∈ t.values) : p a = false := by
  have hmem : some a ∈ t.entries := reduceOption_mem_iff.mp ha
  exact Bool.eq_false_iff.mpr fun hp => by
    have := findIdx?_eq_none_iff.mp h (some a) hmem
    rw [Option.any_some, hp] at this
    cases this

/-! ## Changes -/

/-- What a change of the first match does: one value that satisfies `p` is replaced, and all others stay. -/
theorem change_spec (t : Slots n α) (p : α → Bool) (f : α → α) :
    (t.change p f = t ∧ ∀ a ∈ t.values, p a = false) ∨
      ∃ i a, i < n ∧ t.get i = some a ∧ p a = true ∧ t.change p f = t.put i (some (f a)) := by
  unfold change
  split
  · rename_i i hi
    obtain ⟨hlt, hp⟩ := firstWhere_eq_some hi
    obtain ⟨a, ha, hpa⟩ : ∃ a, t.get i = some a ∧ p a = true := by
      rcases hget : t.get i with _ | a
      · rw [hget] at hp
        cases hp
      · rw [hget] at hp
        exact ⟨a, rfl, hp⟩
    refine .inr ⟨i, a, hlt, ha, hpa, ?_⟩
    rw [ha]
    rfl
  · rename_i hnone
    exact .inl ⟨rfl, fun a ha => firstWhere_any_eq_none hnone ha⟩

/-- Where every entry differs in `f` from those before it, no two values agree in `f`. -/
theorem nodup_map_values {β : Type} (f : α → β)
    (h : ∀ i a, t.get i = some a → ∀ b ∈ (t.entries.take i).reduceOption, f b ≠ f a) : (t.values.map f).Nodup := by
  suffices haux : ∀ l : List (Option α), (∀ i a, l[i]? = some (some a) → ∀ b ∈ (l.take i).reduceOption, f b ≠ f a) →
      (l.reduceOption.map f).Nodup from
    haux t.entries fun i a hia => h i a (join_eq_some_iff.mpr hia)
  intro l
  induction l using List.reverseRecOn with
  | nil => intro _; exact List.nodup_nil
  | append_singleton l x ih =>
    intro hl
    have hinit : (l.reduceOption.map f).Nodup := by
      refine ih fun i a hia b hb => ?_
      have hi : i < l.length := (List.getElem?_eq_some_iff.mp hia).1
      refine hl i a (by rw [List.getElem?_append_left hi, hia]) b ?_
      rwa [List.take_append_of_le_length (Nat.le_of_lt hi)]
    rcases x with _ | a
    · rwa [List.reduceOption_append, List.reduceOption_singleton, toList_none, List.append_nil]
    rw [List.reduceOption_append, List.map_append, List.nodup_append]
    refine ⟨hinit, by simp, ?_⟩
    intro y hy z hz
    obtain ⟨b, hb, rfl⟩ := List.mem_map.mp hy
    obtain rfl : z = f a := by simpa using hz
    refine hl l.length a ?_ b ?_
    · rw [List.getElem?_append_right (Nat.le_refl _), Nat.sub_self]
      rfl
    · rwa [List.take_left]

end Slots

end LogOS.Lib
