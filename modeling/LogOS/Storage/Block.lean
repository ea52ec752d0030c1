import LogOS.Lib.Op
import LogOS.Lib.Bytes

/-!
# Block stores

The seam between the storage format and a device: the trait `BlockStore`, and what a program above it may rely on.

A store has a *volatile* content, `view`, which is what an uncached read returns, and for every block the set `poss` of
the contents it may be found with after a power loss.  An operation that fails has no effect.  `faithful` says of a
block that a cached read of it returns its volatile content, `page` names the cache pages a client has mapped, and
`Healthy` says that no I/O fails.  `Evolves W s s'` is the frame of everything that happens above a store: from `s` to
`s'` at most the writes of `W` were made.
-/

namespace LogOS.Storage

open Lib

/-- The logical storage block size. -/
def blockBytes : ℕ := 4096

/-- One fixed-size logical storage block. -/
abbrev Block : Type := Bytes 4096

/-- `Block::zero()`. -/
def Block.zero : Block := Bytes.zeros 4096

/-- Errors exposed by the format-facing block seam. -/
inductive BlockError where
  | outOfBounds
  | io
  | responseTimeout
  | readOnly
  | unauthorized
  | stale
  | invalidRequest
  deriving DecidableEq, Repr

/-- A stretch of cache pages handed to a client. -/
structure ReadMap where
  sourcePage : ℕ
  pages : ℕ
  deriving DecidableEq, Repr

/-- The synchronous seam between the storage format and a device. -/
class BlockStore (σ : Type) where
  blockCount : σ → ℕ
  readBlock : ℕ → Op σ BlockError Block
  readBlockUncached : ℕ → Op σ BlockError Block
  writeBlock : ℕ → Block → Op σ BlockError Unit
  flush : Op σ BlockError Unit
  mapReadBlocks : ℕ → ℕ → Op σ BlockError ReadMap
  unmapRead : ReadMap → Op σ BlockError Unit

export BlockStore (blockCount readBlock readBlockUncached writeBlock flush mapReadBlocks unmapRead)

/-- What can be observed of a store: the vocabulary in which its laws are stated. -/
class StoreModel (σ : Type) where
  /-- The invariant of the store's own bookkeeping. -/
  Inv : σ → Prop
  /-- The volatile content. -/
  view : σ → ℕ → Block
  /-- The contents a block may be found with after a power loss. -/
  poss : σ → ℕ → Block → Prop
  /-- A cached read of the block returns its volatile content. -/
  faithful : σ → ℕ → Prop
  /-- A mapped cache page: the block it shows, and with what content. -/
  page : σ → ℕ → Option (ℕ × Block)
  /-- No operation within the bounds of the store fails. -/
  Healthy : σ → Prop

export StoreModel (view poss faithful page Healthy)

section Frame

variable {σ : Type} [BlockStore σ] [StoreModel σ]

/-- From `s` to `s'` at most the writes of `W` were made. -/
structure Evolves (W : ℕ → Block → Prop) (s s' : σ) : Prop where
  inv : StoreModel.Inv s → StoreModel.Inv s'
  count : blockCount s' = blockCount s
  healthy : Healthy s → Healthy s'
  faithful : ∀ j, faithful s j → StoreModel.faithful s' j
  poss : ∀ j c, poss s' j c → StoreModel.poss s j c ∨ W j c
  view : ∀ j, view s' j = StoreModel.view s j ∨ W j (StoreModel.view s' j)
  page : ∀ p i b, page s p = some (i, b) →
    StoreModel.page s' p = some (i, b) ∨ ∃ c, W i c ∧ StoreModel.page s' p = some (i, c)

/-- No write at all. -/
def noWrite : ℕ → Block → Prop := fun _ _ => False

/-- The write of `b` at `i`. -/
def oneWrite (i : ℕ) (b : Block) : ℕ → Block → Prop := fun j c => j = i ∧ c = b

/-- Any writes to the blocks of `P`. -/
def writesIn (P : ℕ → Prop) : ℕ → Block → Prop := fun j _ => P j

namespace Evolves

variable {W W' : ℕ → Block → Prop} {s s' s'' : σ}

lemma refl (W : ℕ → Block → Prop) (s : σ) : Evolves W s s :=
  ⟨id, rfl, id, fun _ => id, fun _ _ => .inl, fun _ => .inl rfl, fun _ _ _ => .inl⟩

lemma mono (h : Evolves W s s') (hW : ∀ j c, W j c → W' j c) : Evolves W' s s' where
  inv := h.inv
  count := h.count
  healthy := h.healthy
  faithful := h.faithful
  poss j c hc := (h.poss j c hc).imp_right (hW j c)
  view j := (h.view j).imp_right (hW j _)
  page p i b hp := (h.page p i b hp).imp_right fun ⟨c, hc, hp⟩ => ⟨c, hW i c hc, hp⟩

lemma trans (h : Evolves W s s') (h' : Evolves W s' s'') : Evolves W s s'' where
  inv := h'.inv ∘ h.inv
  count := h'.count.trans h.count
  healthy := h'.healthy ∘ h.healthy
  faithful j := h'.faithful j ∘ h.faithful j
  poss j c hc := (h'.poss j c hc).elim (h.poss j c) .inr
  view j := by
    rcases h'.view j with e | hw
    · rw [e]; exact h.view j
    · exact .inr hw
  page p i b hp := by
    rcases h.page p i b hp with hp | ⟨c, hc, hp⟩
    · exact h'.page p i b hp
    · rcases h'.page p i c hp with hp | hp
      · exact .inr ⟨c, hc, hp⟩
      · exact .inr hp

lemma of_noWrite (h : Evolves noWrite s s') (W : ℕ → Block → Prop) : Evolves W s s' :=
  h.mono fun _ _ h => h.elim

/-- A block that nothing was written to keeps its volatile content. -/
theorem view_eq (h : Evolves W s s') {j : ℕ} (hj : ∀ c, ¬ W j c) : StoreModel.view s' j = StoreModel.view s j :=
  (h.view j).resolve_right (hj _)

lemma view_eq_of_noWrite (h : Evolves noWrite s s') : StoreModel.view s' = StoreModel.view s :=
  funext fun _ => h.view_eq fun _ => id

end Evolves

/-- A block that will be found with its volatile content after a power loss. -/
def Stable (s : σ) (i : ℕ) : Prop := ∀ c, poss s i c → c = view s i

lemma Stable.evolves {W : ℕ → Block → Prop} {s s' : σ} {i : ℕ} (h : Stable s i) (he : Evolves W s s')
    (hi : ∀ c, ¬ W i c) : Stable s' i := by
  intro c hc
  rw [he.view_eq hi]
  exact h c ((he.poss i c hc).resolve_right (hi c))

end Frame

/-! ## The laws of a store -/

/-- What every store promises: one law for each operation. -/
class LawfulStore (σ : Type) [BlockStore σ] extends StoreModel σ where
  poss_view : ∀ {s : σ} (i : ℕ), Inv s → poss s i (view s i)
  read_law : ∀ {s : σ} (i : ℕ), Inv s → Op.wp (readBlock i)
    (fun b s' => Evolves noWrite s s' ∧ (faithful s i → b = view s i))
    (fun _ s' => Evolves noWrite s s' ∧ (Healthy s → ¬ i < blockCount s)) s
  readUncached_law : ∀ {s : σ} (i : ℕ), Inv s → Op.wp (readBlockUncached i)
    (fun b s' => Evolves noWrite s s' ∧ b = view s i)
    (fun _ s' => Evolves noWrite s s' ∧ (Healthy s → ¬ i < blockCount s)) s
  write_law : ∀ {s : σ} (i : ℕ) (b : Block), Inv s → Op.wp (writeBlock i b)
    (fun _ s' => Evolves (oneWrite i b) s s' ∧ view s' i = b)
    (fun _ s' => Evolves noWrite s s' ∧ (Healthy s → ¬ i < blockCount s)) s
  flush_law : ∀ {s : σ}, Inv s → Op.wp flush
    (fun _ s' => Evolves noWrite s s' ∧ ∀ i, Stable s' i)
    (fun _ s' => Evolves noWrite s s' ∧ ¬ Healthy s) s

section Rules

variable {σ : Type} [BlockStore σ] [LawfulStore σ] {s : σ} {E : BlockError → σ → Prop}

section

variable (hs : StoreModel.Inv s)
include hs

lemma wp_readBlock {i : ℕ} {Q : Block → σ → Prop}
    (hQ : ∀ b s', Evolves noWrite s s' → (faithful s i → b = view s i) → Q b s')
    (hE : ∀ e s', Evolves noWrite s s' → (Healthy s → ¬ i < blockCount s) → E e s') : Op.wp (readBlock i) Q E s :=
  Op.wp_mono (LawfulStore.read_law i hs) (fun b s' h => hQ b s' h.1 h.2) (fun e s' h => hE e s' h.1 h.2)

lemma wp_readBlockUncached {i : ℕ} {Q : Block → σ → Prop}
    (hQ : ∀ s', Evolves noWrite s s' → Q (view s i) s')
    (hE : ∀ e s', Evolves noWrite s s' → (Healthy s → ¬ i < blockCount s) → E e s') : Op.wp (readBlockUncached i) Q E s :=
  Op.wp_mono (LawfulStore.readUncached_law i hs) (fun _ s' h => h.2 ▸ hQ s' h.1) (fun e s' h => hE e s' h.1 h.2)

lemma wp_writeBlock {i : ℕ} {b : Block} {Q : Unit → σ → Prop}
    (hQ : ∀ s', Evolves (oneWrite i b) s s' → view s' i = b → Q () s')
    (hE : ∀ e s', Evolves noWrite s s' → (Healthy s → ¬ i < blockCount s) → E e s') : Op.wp (writeBlock i b) Q E s :=
  Op.wp_mono (LawfulStore.write_law i b hs) (fun _ s' h => hQ s' h.1 h.2) (fun e s' h => hE e s' h.1 h.2)

lemma wp_flush {Q : Unit → σ → Prop}
    (hQ : ∀ s', Evolves noWrite s s' → (∀ i, Stable s' i) → Q () s')
    (hE : ∀ e s', Evolves noWrite s s' → ¬ Healthy s → E e s') : Op.wp (flush : Op σ BlockError Unit) Q E s :=
  Op.wp_mono (LawfulStore.flush_law hs) (fun _ s' h => hQ s' h.1 h.2) (fun e s' h => hE e s' h.1 h.2)

end

end Rules

end LogOS.Storage
