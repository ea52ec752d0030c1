import LogOS.Storage.Catalog.Fresh

/-!
# Recovery after a failed publication

A publication that fails leaves the store decided for the old root, or with the commit record of the new one written.
Opening the volume again settles which: `wp_recover` says that an `open` that succeeds finds either the old root, and then
nothing was published, or the planned root with everything it refers to.  When `open` fails as well, the store may be left
between the two roots (`Limbo`), and the volume in memory does not know.
-/

namespace LogOS.Storage.Catalog

open Lib SystemCatalogVolume Op Mounted

section Recover

variable {σ : Type} [BlockStore σ] [LawfulStore σ]

/-- The planned root is on the store, and a power loss may still decide against it. -/
structure Limbo (P : PlanRel) (D : σ → SystemCatalogRoot → Prop) (s' : σ) (R R' : SystemCatalogRoot) : Prop where
  plan : P R' (bitmapOf s' R')
  state : Anchored s' R R' ∨ Settled s' R'
  held : Held s' R'
  data : D s' R'

/-- A plan whose roots follow `R` in a store with `n` blocks, and data that superblocks are no part of. -/
structure PlanOk (n : ℕ) (R : SystemCatalogRoot) (P : PlanRel) (D : σ → SystemCatalogRoot → Prop) : Prop where
  follows : ∀ R' bitmap, P R' bitmap → Follows n R R'
  data : ∀ {s s' : σ} {R' bitmap F}, P R' bitmap → Evolves (superWrites F) s s' → D s R' → D s' R'

variable {P : PlanRel} {D : σ → SystemCatalogRoot → Prop} {s s' : σ} {v : SystemCatalogVolume} {ioError : Prop}

/-- Where a failed publication and a failed recovery leave the store. -/
structure Stranded (P : PlanRel) (D : σ → SystemCatalogRoot → Prop) (s : σ) (v : SystemCatalogVolume) (s' : σ) : Prop where
  frame : Evolves (freeWrites s v.root) s s'
  held : Held s' v.root
  state : Settled s' v.root ∨ ∃ R', Limbo P D s' v.root R'

lemma bitmapOf_superWrites {n : ℕ} {R F : SystemCatalogRoot} (hv : R.Valid n) (he : Evolves (superWrites F) s s') :
    bitmapOf s' R = bitmapOf s R :=
  he.view_eq fun c hw => by
    have := hw.1; have := hv.dataStart_le_bitmapBlock
    unfold dataStart commitStart at this
    omega

lemma Held.superWrites {n : ℕ} {R F : SystemCatalogRoot} (h : Held s R) (hv : R.Valid n)
    (he : Evolves (superWrites F) s s') : Held s' R :=
  h.evolves he (.superWrites hv h.bitmapOk F)

/-- **Recovery.** -/
theorem wp_recover (h : VolumeOk s v) (hfail : Halted P D s v s') (hP : PlanOk (blockCount s) v.root P D) :
    wp openVolume
      (fun v' s'' => (v'.root = v.root ∧ VolumeOk s'' v' ∧ Evolves (freeWrites s v.root) s s'' ∧ Settled s' v.root) ∨
        Published P D s v v' s'') (fun e s'' => (∃ b, e = .block b) ∧ ¬ Healthy s' ∧ Stranded P D s v s'') s' := by
  have hs' : StoreModel.Inv s' := hfail.frame.inv h.inv
  have hf' : ∀ i < 4, faithful s' i := fun i hi => hfail.frame.faithful i (h.faithful_records i hi)
  have hv' : v.root.Valid (blockCount s') := by rw [hfail.frame.count]; exact h.valid
  have hframe : ∀ {F s''}, Evolves (superWrites F) s' s'' → Evolves (freeWrites s v.root) s s'' := fun he =>
    freeWrites_trans hfail.frame ((Spares.superWrites hv' hfail.held.bitmapOk _).free he)
  have hfaith : ∀ {F s''}, Evolves (superWrites F) s' s'' → ∀ {R' : SystemCatalogRoot}, v.root.Kin R' →
      ∀ i, i < R'.userStart ∨ R'.userEnd ≤ i → faithful s'' i := by
    intro F s'' he R' hk i hi
    obtain ⟨-, -, -, hg1, hg2, -, -⟩ := hk.geometry
    exact (hframe he).faithful i (h.faithful i (by omega))
  rcases hfail.state with hset | ⟨R', hplan, hstate, hheld, hdata⟩
  · -- the store is decided for the old root
    refine wp_mono (wp_openVolume_settled hset hs' hf') ?_ ?_
    · rintro v' s'' ⟨hr, ha, he, hset''⟩
      refine .inl ⟨hr, ⟨he.inv hs', by rw [hr]; exact hset'', ?_, ha, ?_⟩, hframe he, hset⟩
      · rw [hr]; exact hfail.held.superWrites hv' he
      · rw [hr]; exact hfaith he (.refl _)
    · rintro e s'' ⟨hb, hh, he, hset''⟩
      exact ⟨hb, hh, ⟨hframe he, hfail.held.superWrites hv' he, .inl hset''⟩⟩
  -- the commit record of the planned root is there
  have hF := hP.follows R' _ hplan
  have hvR : R'.Valid (blockCount s') := by rw [hfail.frame.count]; exact hF.valid
  have hpub : ∀ {v' s''}, v'.root = R' → v'.activeSuperblock < 2 → Evolves (superWrites R') s' s'' → Settled s'' R' →
      Published P D s v v' s'' := by
    intro v' s'' hr ha he hset
    refine ⟨?_, ⟨he.inv hs', by rw [hr]; exact hset, ?_, ha, ?_⟩, hframe he, by rw [hr]; exact hP.data hplan he hdata⟩
    · rw [hr, bitmapOf_superWrites hvR he]; exact hplan
    · rw [hr]; exact hheld.superWrites hvR he
    · rw [hr]; exact hfaith he hF.kin
  have hstrand : ∀ {F s''}, Evolves (superWrites F) s' s'' → Anchored s'' v.root R' ∨ Settled s'' R' →
      Stranded P D s v s'' := by
    intro F s'' he hstate
    refine ⟨hframe he, hfail.held.superWrites hv' he, .inr ⟨R', ?_, hstate, hheld.superWrites hvR he, hP.data hplan he hdata⟩⟩
    rw [bitmapOf_superWrites hvR he]; exact hplan
  rcases hstate with htorn | hset
  · refine wp_mono (wp_openVolume_torn htorn hs' hf') ?_ ?_
    · rintro v' s'' ⟨hr, ha, he, hset⟩
      exact .inr (hpub hr ha he hset)
    · rintro e s'' ⟨hb, hh, ⟨F, he⟩, hanch⟩
      exact ⟨hb, hh, hstrand he (.inl hanch)⟩
  · refine wp_mono (wp_openVolume_settled hset hs' hf') ?_ ?_
    · rintro v' s'' ⟨hr, ha, he, hset''⟩
      exact .inr (hpub hr ha he hset'')
    · rintro e s'' ⟨hb, hh, he, hset''⟩
      exact ⟨hb, hh, hstrand he (.inr hset'')⟩

/-- A volume that failed to publish for another reason than an I/O error is at rest. -/
theorem Failed.atRest (h : VolumeOk s v) (hfail : Failed P D s v ioError s') (hio : ¬ ioError) : VolumeOk s' v where
  inv := hfail.frame.inv h.inv
  settled := (hfail.reason.resolve_left fun hr => hio hr.1).2.1
  held := hfail.held
  active := h.active
  faithful i hi := hfail.frame.faithful i (h.faithful i hi)

/-- What a failed publication leaves, as it is before recovery. -/
theorem Failed.stranded (hfail : Failed P D s v ioError s') : Stranded P D s v s' where
  frame := hfail.frame
  held := hfail.held
  state := hfail.state.imp_right fun ⟨R', hp, hst, hh, hd⟩ => ⟨R', hp, hst.imp_left Torn.anchored, hh, hd⟩

end Recover

/-! ## `replace_catalog` -/

section ReplaceCatalog

lemma wp_update {σ ε : Type} {m : Mounted σ} {call : SystemCatalogVolume → Op σ ε SystemCatalogVolume}
    {Q : ℕ → Mounted σ → Prop} {E : ε → Mounted σ → Prop}
    (h : wp (call m.volume) (fun v' s' => Q v'.root.generation ⟨v', s', m.lost⟩) (fun e s' => E e ⟨m.volume, s', m.lost⟩)
      m.store) : wp (update call) Q E m := by
  unfold update
  rw [wp_bind, wp_get, wp_bind, onStore, wp_zoom]
  exact h

variable {σ : Type} [BlockStore σ] [LawfulStore σ] {m : Mounted σ}

/-- The bytes of the new catalog are in the blocks of the new root. -/
def CatalogIs (snapshot : List UInt8) (s : σ) (R : SystemCatalogRoot) : Prop :=
  HoldsChunks s R.catalogStart R.catalogBlocks snapshot

lemma catalogPlanOk {s : σ} {v : SystemCatalogVolume} (h : VolumeOk s v) (snapshot : List UInt8) :
    PlanOk (blockCount s) v.root (CatalogPlan v.root (bitmapOf s v.root) snapshot) (CatalogIs (σ := σ) snapshot) where
  follows R' bm hp := (hp.follows h.valid h.held.bitmapOk).1
  data {s1 s2 R' bm F} hp he hd k hk := by
    have h1 := (allocateInArena_spec (le_of_lt h.valid.system) hp.extent).1
    have h2 := h.valid.systemStart
    unfold dataStart commitStart at h2
    rw [he.view_eq fun c hw => by have := hw.1; omega]
    exact hd k hk

/-- **`replace_catalog`.**  It succeeds with the new catalog published; or it fails with the volume at rest on the old root;
or its recovery fails too, with an I/O error, and then the volume in memory is the old one whatever the store says. -/
theorem wp_replaceCatalog (h : VolumeOk m.store m.volume) (snapshot : List UInt8) :
    let P := CatalogPlan m.volume.root (bitmapOf m.store m.volume.root) snapshot
    wp (replaceCatalog snapshot)
      (fun generation m' => generation = m'.volume.root.generation ∧ m'.lost = m.lost ∧
        Published P (CatalogIs snapshot) m.store m.volume m'.volume m'.store)
      (fun e m' =>
        (m'.lost = m.lost ∧ m'.volume.root = m.volume.root ∧ VolumeOk m'.store m'.volume ∧
          Evolves (freeWrites m.store m.volume.root) m.store m'.store ∧
          ((¬ e.IsIo ∧ ∀ R' bitmap, ¬ P R' bitmap) ∨ (e.IsIo ∧ ¬ Healthy m.store))) ∨
        (m'.lost = true ∧ m'.volume = m.volume ∧ e.IsIo ∧ ¬ Healthy m.store ∧
          Stranded P (CatalogIs snapshot) m.store m.volume m'.store)) m := by
  unfold replaceCatalog
  rw [wp_bind, wp_get, wp_bind, wp_attempt]
  refine wp_update (wp_mono (wp_replaceCatalogInner h snapshot) (fun v' s' hp => ⟨rfl, rfl, hp⟩) fun e s' hfail => ?_)
  rw [wp_ite]
  refine ⟨fun hrec => ?_, fun hrec => ?_⟩
  · -- an I/O error or a corrupt record: the store is looked at again
    rw [wp_bind, wp_onError, onStore, wp_zoom]
    have hh : ∀ {s''}, ¬ Healthy s'' → Evolves (freeWrites m.store m.volume.root) m.store s'' → ¬ Healthy m.store :=
      fun h1 h2 h3 => h1 (h2.healthy h3)
    refine wp_mono (wp_recover h ⟨hfail.frame, hfail.held, hfail.state⟩ (catalogPlanOk h snapshot)) ?_ ?_
    · rintro v' s'' (⟨hr, hok, he, hset⟩ | hpub)
      · rw [wp_bind, if_neg (by rw [hr]; exact lt_irrefl _)]
        exact .inl ⟨rfl, hr, hok, he, (hfail.reason.imp id fun hr => ⟨hr.1, hr.2.2⟩).symm⟩
      · have hgen := ((catalogPlanOk h snapshot).follows _ _ hpub.plan).generation
        rw [wp_bind, if_pos (by rw [hgen]; exact Nat.lt_succ_self _)]
        exact ⟨rfl, rfl, hpub⟩
    · rintro e' s'' ⟨hb, hh', hstr⟩
      exact .inr ⟨rfl, rfl, hb, hh hh' hfail.frame, hstr⟩
  · have hio : ¬ e.IsIo := by
      rintro ⟨b, rfl⟩
      exact hrec rfl
    have hr := hfail.reason.resolve_left fun hr => hio hr.1
    exact .inl ⟨rfl, rfl, hfail.atRest h hio, hfail.frame, .inl ⟨hio, hr.2.2⟩⟩

end ReplaceCatalog

end LogOS.Storage.Catalog
