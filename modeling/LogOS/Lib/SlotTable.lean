import Mathlib.Algebra.BigOperators.Group.List.Basic
import Mathlib.Data.List.Basic
import Mathlib.Data.Nat.Init
import Mathlib.Tactic.Common

/-!
# Tables of slots with generations

A table hands out places by index.  Every slot carries a generation that is advanced when its value is given up, so a
reference made of an index and a generation stops working at that moment.  A reference is looked up with `lookup`;
the changes below are the only ones a table undergoes, and each has one lemma that says what `lookup` sees after it.
-/

namespace LogOS.Lib

open List Option

/-- A place of the table, with the generation of what is or will next be in it. -/
structure Slot (α : Type) where
  generation : ℕ
  value : Option α
  deriving DecidableEq, Repr

/-- A table of slots, addressed by position. -/
abbrev SlotTable (α : Type) := List (Slot α)

/-- The generation after `current`: a 32-bit counter that leaves out zero. -/
def nextGeneration (current : ℕ) : ℕ := max ((current + 1) % 2 ^ 32) 1

lemma nextGeneration_pos (g : ℕ) : 1 ≤ nextGeneration g := Nat.le_max_right _ _

lemma nextGeneration_lt (g : ℕ) : nextGeneration g < 2 ^ 32 :=
  Nat.max_lt.mpr ⟨Nat.mod_lt _ (by decide), by decide⟩

/-- An empty slot of the given generation, which is at least one. -/
def Slot.withGeneration {α : Type} (generation : ℕ) : Slot α := ⟨max generation 1, none⟩

/-- The slot after its value was given up. -/
def Slot.retire {α : Type} (slot : Slot α) : Slot α := ⟨nextGeneration slot.generation, none⟩

namespace SlotTable

variable {α : Type}

/-- What a reference to slot `i` in generation `g` leads to. -/
def lookup (t : SlotTable α) (i g : ℕ) : Option α :=
  (t[i]?).bind fun slot => if slot.generation = g then slot.value else none

/-- The first slot that holds nothing. -/
def firstFree (t : SlotTable α) : Option ℕ := t.findIdx? fun slot => slot.value.isNone

/-- `a` put in slot `i`. -/
def store (t : SlotTable α) (i : ℕ) (a : α) : SlotTable α := t.modify i fun slot => { slot with value := some a }

/-- The value of slot `i` changed by `f`. -/
def update (t : SlotTable α) (i : ℕ) (f : α → α) : SlotTable α :=
  t.modify i fun slot => { slot with value := slot.value.map f }

/-- The value of slot `i` given up. -/
def retire (t : SlotTable α) (i : ℕ) : SlotTable α := t.modify i Slot.retire

/-- Every value changed by `f`, which sees the index and the generation too. -/
def updateAll (t : SlotTable α) (f : ℕ → ℕ → α → α) : SlotTable α :=
  t.mapIdx fun i slot => { slot with value := slot.value.map (f i slot.generation) }

/-- Every value that `p` picks given up. -/
def retireAll (t : SlotTable α) (p : α → Bool) : SlotTable α :=
  t.map fun slot => if slot.value.any p then slot.retire else slot

/-- The values in the table, in order. -/
def values (t : SlotTable α) : List α := t.filterMap fun slot => slot.value

/-- Generations are 32-bit and not zero, and an index fits in 32 bits. -/
structure Sound (t : SlotTable α) : Prop where
  pos : ∀ slot ∈ t, 1 ≤ slot.generation
  lt : ∀ slot ∈ t, slot.generation < 2 ^ 32
  length : t.length ≤ 2 ^ 32

variable {i g : ℕ}

variable {t : SlotTable α} {a : α}

lemma lookup_eq_some_iff : t.lookup i g = some a ↔ t[i]? = some ⟨g, some a⟩ := by
  unfold lookup
  rcases h : t[i]? with _ | ⟨g', v⟩
  · simp
  · simp only [bind_some]
    split
    · simp [*]
    · simp [*]

/-- Two references to the same slot are of the same generation. -/
theorem generation_eq {g' : ℕ} {a' : α} (h : t.lookup i g = some a) (h' : t.lookup i g' = some a') : g' = g := by
  rw [lookup_eq_some_iff] at h h'
  rw [h] at h'
  injection h' with h'
  injection h' with h'
  exact h'.symm

lemma mem_values_iff : a ∈ t.values ↔ ∃ i g, t.lookup i g = some a := by
  unfold values
  rw [mem_filterMap]
  constructor
  · rintro ⟨⟨g, v⟩, hmem, rfl⟩
    obtain ⟨i, hi⟩ := mem_iff_getElem?.mp hmem
    exact ⟨i, g, lookup_eq_some_iff.mpr hi⟩
  · rintro ⟨i, g, h⟩
    exact ⟨⟨g, some a⟩, mem_iff_getElem?.mpr ⟨i, lookup_eq_some_iff.mp h⟩, rfl⟩

/-! ## Changes -/

/-- Slot `i` with nothing in it, in generation `g`. -/
def FreeAt (t : SlotTable α) (i g : ℕ) : Prop := t[i]? = some ⟨g, none⟩

lemma freeAt_of_firstFree (h : t.firstFree = some i) : ∃ g, t.FreeAt i g := by
  obtain ⟨hi, hp, -⟩ := findIdx?_eq_some_iff_getElem.mp h
  rcases hslot : t[i] with ⟨g, v⟩
  rw [hslot, isNone_iff_eq_none] at hp
  refine ⟨g, ?_⟩
  rw [FreeAt, getElem?_eq_getElem hi, hslot]
  exact congrArg some (congrArg (Slot.mk g) hp)

lemma lookup_of_freeAt (h : t.FreeAt i g) (g' : ℕ) : t.lookup i g' = none := by
  rw [eq_none_iff_forall_ne_some]
  intro a
  rw [Ne, lookup_eq_some_iff, show t[i]? = some ⟨g, none⟩ from h]
  simp

lemma freeAt_append (t : SlotTable α) (seed : ℕ) :
    SlotTable.FreeAt (t ++ [Slot.withGeneration seed]) t.length (max seed 1) := by
  simp [FreeAt, Slot.withGeneration]

@[simp] lemma lookup_append (t : SlotTable α) (seed i g : ℕ) :
    SlotTable.lookup (t ++ [Slot.withGeneration seed]) i g = t.lookup i g := by
  unfold lookup
  rcases Nat.lt_trichotomy i t.length with h | rfl | h
  · rw [getElem?_append_left h]
  · simp [Slot.withGeneration]
  · rw [getElem?_eq_none (by simp; omega), getElem?_eq_none (by omega)]

lemma getElem?_modify_self {slot : Slot α} (h : t[i]? = some slot)
    (f : Slot α → Slot α) : (modify t i f)[i]? = some (f slot) := by
  simp [h]

/-- What a free slot holds after `a` was put in it. -/
theorem lookup_store (h : t.FreeAt i g) (a : α) (j k : ℕ) :
    (t.store i a).lookup j k = if j = i ∧ k = g then some a else t.lookup j k := by
  split
  · rename_i hjk
    obtain ⟨rfl, rfl⟩ := hjk
    rw [lookup_eq_some_iff, store, getElem?_modify_self h]
  rename_i hjk
  by_cases hj : i = j
  · subst hj
    rw [lookup_of_freeAt h, lookup, store, getElem?_modify_self h, bind_some, if_neg]
    exact fun hg => hjk ⟨rfl, hg.symm⟩
  · rw [lookup, lookup, store, getElem?_modify_ne _ _ hj]

lemma lookup_update (i : ℕ) (f : α → α) (j k : ℕ) :
    (t.update i f).lookup j k = if j = i then (t.lookup j k).map f else t.lookup j k := by
  split
  · rename_i hj
    subst hj
    rw [lookup, lookup, update, getElem?_modify_eq]
    rcases t[j]? with _ | ⟨g, v⟩
    · rfl
    · by_cases hg : g = k <;> simp [hg]
  · rename_i hj
    rw [lookup, lookup, update, getElem?_modify_ne _ _ (Ne.symm hj)]

lemma lookup_retire (i j k : ℕ) : (t.retire i).lookup j k = if j = i then none else t.lookup j k := by
  split
  · rename_i hj
    subst hj
    rw [lookup, retire, getElem?_modify_eq]
    rcases t[j]? with _ | ⟨g, v⟩
    · rfl
    · simp [Slot.retire]
  · rename_i hj
    rw [lookup, lookup, retire, getElem?_modify_ne _ _ (Ne.symm hj)]

lemma lookup_updateAll (f : ℕ → ℕ → α → α) (i g : ℕ) : (t.updateAll f).lookup i g = (t.lookup i g).map (f i g) := by
  unfold lookup updateAll
  rw [getElem?_mapIdx]
  rcases t[i]? with _ | ⟨g', v⟩
  · rfl
  · simp only [map_some, bind_some]
    split
    · rename_i hg
      rw [hg]
    · rfl

lemma lookup_retireAll (p : α → Bool) (i g : ℕ) : (t.retireAll p).lookup i g = (t.lookup i g).filter fun a => !p a := by
  unfold lookup retireAll
  rw [getElem?_map]
  rcases t[i]? with _ | ⟨g', _ | a⟩
  · rfl
  · simp
  · by_cases hp : p a = true
    · by_cases hg : g' = g <;> simp [hp, hg, Slot.retire, Option.filter]
    · by_cases hg : g' = g <;> simp [hp, hg, Option.filter]

/-! ## Totals -/

/-- The sum of `f` over the values of the table. -/
def total (t : SlotTable α) (f : α → ℕ) : ℕ := (t.values.map f).foldr (· + ·) 0

lemma total_cons (slot : Slot α) (t : SlotTable α) (f : α → ℕ) :
    SlotTable.total (slot :: t) f = (slot.value.map f).getD 0 + t.total f := by
  unfold total values
  rcases slot with ⟨g, _ | a⟩ <;> simp

lemma total_append (t : SlotTable α) (seed : ℕ) (f : α → ℕ) :
    SlotTable.total (t ++ [Slot.withGeneration seed]) f = t.total f := by
  unfold total values
  simp [Slot.withGeneration]

/-- A change of one slot changes the total by the difference it makes there. -/
theorem total_modify (f : α → ℕ) (g : Slot α → Slot α) :
    ∀ (t : SlotTable α) (i : ℕ) {slot : Slot α}, t[i]? = some slot →
      SlotTable.total (modify t i g) f + (slot.value.map f).getD 0 =
        t.total f + ((g slot).value.map f).getD 0
  | [], i, slot, h => by simp at h
  | s :: t, 0, slot, h => by
    obtain rfl : s = slot := by simpa using h
    rw [modify_zero_cons, total_cons, total_cons]
    omega
  | s :: t, i + 1, slot, h => by
    have := total_modify f g t i (by simpa using h)
    rw [modify_succ_cons, total_cons, total_cons]
    omega

lemma total_store (h : t.FreeAt i g) (a : α) (f : α → ℕ) : (t.store i a).total f = t.total f + f a := by
  simpa [store] using total_modify f (fun slot => { slot with value := some a }) t i h

lemma total_retire (h : t.lookup i g = some a) (f : α → ℕ) : (t.retire i).total f + f a = t.total f := by
  simpa [retire, Slot.retire] using total_modify f Slot.retire t i (lookup_eq_some_iff.mp h)

lemma total_update (h : t.lookup i g = some a) (f : α → ℕ) (u : α → α) :
    (t.update i u).total f + f a = t.total f + f (u a) := by
  simpa [update] using total_modify f (fun slot => { slot with value := slot.value.map u }) t i (lookup_eq_some_iff.mp h)

/-! ## Soundness is kept -/

lemma Sound.nil : SlotTable.Sound ([] : SlotTable α) :=
  ⟨by simp, by simp, by simp⟩

section

variable (h : t.Sound)
include h

lemma Sound.append {seed : ℕ} (hseed : seed < 2 ^ 32) (hlen : t.length < 2 ^ 32) :
    SlotTable.Sound (t ++ [Slot.withGeneration seed]) where
  pos := by
    intro slot hslot
    rcases mem_append.mp hslot with hslot | hslot
    · exact h.pos slot hslot
    · rw [mem_singleton.mp hslot]
      exact Nat.le_max_right _ _
  lt := by
    intro slot hslot
    rcases mem_append.mp hslot with hslot | hslot
    · exact h.lt slot hslot
    · rw [mem_singleton.mp hslot]
      exact Nat.max_lt.mpr ⟨hseed, by decide⟩
  length := by
    rw [length_append]
    exact hlen

/-- A change of single slots that keeps their generations in range keeps the table sound. -/
theorem Sound.modify (i : ℕ) {f : Slot α → Slot α}
    (hf : ∀ slot, 1 ≤ slot.generation → slot.generation < 2 ^ 32 →
      1 ≤ (f slot).generation ∧ (f slot).generation < 2 ^ 32) : SlotTable.Sound (List.modify t i f) := by
  have hmem : ∀ slot ∈ List.modify t i f, 1 ≤ slot.generation ∧ slot.generation < 2 ^ 32 := by
    intro slot hslot
    obtain ⟨j, hj⟩ := List.mem_iff_getElem?.mp hslot
    by_cases hij : i = j
    · subst hij
      rw [List.getElem?_modify_eq, Option.map_eq_map, Option.map_eq_some_iff] at hj
      obtain ⟨slot', hslot', rfl⟩ := hj
      have hm := List.mem_of_getElem? hslot'
      exact hf slot' (h.pos slot' hm) (h.lt slot' hm)
    · rw [List.getElem?_modify_ne _ _ hij] at hj
      have hm := List.mem_of_getElem? hj
      exact ⟨h.pos slot hm, h.lt slot hm⟩
  exact ⟨fun slot hs => (hmem slot hs).1, fun slot hs => (hmem slot hs).2, by simpa using h.length⟩

lemma Sound.store (i : ℕ) (a : α) : (t.store i a).Sound :=
  h.modify i fun _ h1 h2 => ⟨h1, h2⟩

lemma Sound.update (i : ℕ) (f : α → α) : (t.update i f).Sound :=
  h.modify i fun _ h1 h2 => ⟨h1, h2⟩

lemma Sound.retire (i : ℕ) : (t.retire i).Sound :=
  h.modify i fun slot _ _ => ⟨nextGeneration_pos slot.generation, nextGeneration_lt slot.generation⟩

lemma Sound.updateAll (f : ℕ → ℕ → α → α) : (t.updateAll f).Sound := by
  have hmem : ∀ slot ∈ t.updateAll f, ∃ slot' ∈ t, slot.generation = slot'.generation := by
    intro slot hslot
    obtain ⟨i, hi, rfl⟩ := mem_mapIdx.mp hslot
    exact ⟨t[i], getElem_mem hi, rfl⟩
  refine ⟨fun slot hs => ?_, fun slot hs => ?_, by simpa [SlotTable.updateAll] using h.length⟩
  · obtain ⟨slot', hm, hg⟩ := hmem slot hs
    rw [hg]
    exact h.pos slot' hm
  · obtain ⟨slot', hm, hg⟩ := hmem slot hs
    rw [hg]
    exact h.lt slot' hm

lemma Sound.retireAll (p : α → Bool) : (t.retireAll p).Sound := by
  have hmem : ∀ slot ∈ t.retireAll p, 1 ≤ slot.generation ∧ slot.generation < 2 ^ 32 := by
    intro slot hslot
    obtain ⟨slot', hm, rfl⟩ := mem_map.mp hslot
    split
    · exact ⟨nextGeneration_pos _, nextGeneration_lt _⟩
    · exact ⟨h.pos slot' hm, h.lt slot' hm⟩
  exact ⟨fun slot hs => (hmem slot hs).1, fun slot hs => (hmem slot hs).2, by
    simpa [SlotTable.retireAll] using h.length⟩

lemma Sound.of_lookup (hl : t.lookup i g = some a) : i < 2 ^ 32 ∧ 1 ≤ g ∧ g < 2 ^ 32 := by
  rw [lookup_eq_some_iff] at hl
  have hm := List.mem_of_getElem? hl
  have hi := (List.getElem?_eq_some_iff.mp hl).1
  exact ⟨Nat.lt_of_lt_of_le hi h.length, h.pos _ hm, h.lt _ hm⟩

lemma Sound.of_freeAt (hf : t.FreeAt i g) : i < 2 ^ 32 ∧ 1 ≤ g ∧ g < 2 ^ 32 := by
  have hm := List.mem_of_getElem? hf
  have hi := (List.getElem?_eq_some_iff.mp hf).1
  exact ⟨Nat.lt_of_lt_of_le hi h.length, h.pos _ hm, h.lt _ hm⟩

end

end SlotTable

/-- What is found after one value has been written. -/
theorem eq_some_of_update {κ α : Type*} [DecidableEq κ] {f g : κ → Option α} {k k' : κ} {a b : α}
    (h : g = Function.update f k (some a)) (hb : g k' = some b) : k' = k ∧ b = a ∨ k' ≠ k ∧ f k' = some b := by
  rw [h, Function.update_apply] at hb
  split at hb
  · exact .inl ⟨‹_›, (some.inj hb).symm⟩
  · exact .inr ⟨‹_›, hb⟩

end LogOS.Lib
