import LogOS.StorageService.Layout
import LogOS.StorageService.Snapshot

/-!
# Well-formed trees

A namespace is a table of four slots; what makes it a tree are the parent links.  `WellFormed` says that the links of the
live objects lead to the root, that siblings have different names and that names are names, and `FilesApart` that the
extents of the files share no block.  The checks of a decoded snapshot are the same conditions taken slot by slot: what
they accept is a tree, except for the parent of the root, which none of them looks at.
-/

namespace LogOS.StorageService

open Lib Abi Storage Storage.Catalog Package List

namespace ObjectNamespace

variable {ns : ObjectNamespace} {id : ObjectId} {r : ObjectRecord} {slot : ℕ}

/-! ## Live objects -/

/-- The record in a slot, when it is alive. -/
def Live (ns : ObjectNamespace) (slot : ℕ) (r : ObjectRecord) : Prop := ns.records[slot]? = some r ∧ r.alive = true

/-- `id` is the name of the live object with this record. -/
def Names (ns : ObjectNamespace) (id : ObjectId) (r : ObjectRecord) : Prop := ns.Live id.slot r ∧ r.generation = id.generation

lemma Live.unique {r' : ObjectRecord} (h : ns.Live slot r) (h' : ns.Live slot r') : r = r' :=
  Option.some.inj (h.1.symm.trans h'.1)

lemma Live.lt (h : ns.Live slot r) : slot < maxObjects := (Vector.getElem?_eq_some_iff.mp h.1).1

lemma objectRecord_eq_ok_iff : ns.lookup.objectRecord id = .ok r ↔ ns.Names id r := by
  unfold Lookup.objectRecord lookup Names Live
  rcases ns.records[id.slot]? with _ | record
  · simp
  simp only [ite_eq_ok, Except.ok.injEq, Option.some.injEq]
  constructor
  · rintro ⟨h, rfl⟩
    simpa using h
  · rintro ⟨⟨rfl, ha⟩, hg⟩
    simp [ha, hg]

/-- The object hangs below the root. -/
inductive BelowRoot (ns : ObjectNamespace) : ObjectId → Prop
  | root : BelowRoot ns .root
  | child {id : ObjectId} {r : ObjectRecord} : ns.Names id r → BelowRoot ns r.parent → BelowRoot ns id

/-! ## Trees -/

/-- The namespace is a tree of named objects under the root directory in slot 0. -/
structure WellFormed (ns : ObjectNamespace) : Prop where
  root : ∃ r, ns.Live 0 r ∧ r.kind = .directory
  /-- The root is no object's child. -/
  orphan : ∀ r, ns.Live 0 r → ∀ p, ¬ ns.Names r.parent p
  parent : ∀ slot r, slot ≠ 0 → ns.Live slot r → ∃ p, ns.Names r.parent p ∧ p.kind = .directory
  below : ∀ slot r, ns.Live slot r → ns.BelowRoot ⟨slot, r.generation⟩
  siblings : ∀ slot slot' r r', ns.Live slot r → ns.Live slot' r' → r.parent = r'.parent → r.nameBytes = r'.nameBytes →
    slot = slot'
  names : ∀ slot r, slot ≠ 0 → ns.Live slot r → r.nameBytes ≠ [] ∧ 0 ∉ r.nameBytes ∧ 47 ∉ r.nameBytes

/-- The extents of the live files lie in the arena and share no block. -/
structure FilesApart (arena : ℕ × ℕ) (ns : ObjectNamespace) : Prop where
  kind : ∀ slot r, ns.Live slot r → r.extents ≠ [] → r.kind = .file
  inside : ∀ slot r, ns.Live slot r → ∀ e ∈ r.extents, Inside arena e
  within : ∀ slot r, ns.Live slot r → r.extents.Pairwise Extent.Disjoint
  across : ∀ slot slot' r r', slot ≠ slot' → ns.Live slot r → ns.Live slot' r' →
    ∀ e ∈ r.extents, ∀ e' ∈ r'.extents, e.Disjoint e'

/-! ## The checks -/

lemma validateName_eq_ok_iff {name : List UInt8} :
    validateName name = .ok () ↔ name ≠ [] ∧ name.length ≤ maxComponentBytes ∧ 0 ∉ name ∧ 47 ∉ name := by
  have hany : (name.any fun byte => byte == 0 || byte == 47) = true ↔ 0 ∈ name ∨ 47 ∈ name := by
    simp [and_or_left, exists_or]
  simp [validateName, hany, not_lt]

lemma findSome?_range {α : Type} {f : ℕ → Option α} {b : α} :
    ∀ {n : ℕ}, (range n).findSome? f = some b ↔ ∃ i < n, f i = some b ∧ ∀ j < i, f j = none
  | 0 => by simp
  | n + 1 => by
    have hlast : [n].findSome? f = f n := by cases h : f n <;> simp [h]
    rw [range_succ, findSome?_append, Option.or_eq_some_iff, findSome?_range, hlast]
    constructor
    · rintro (⟨i, hi, hb, hnone⟩ | ⟨hnone, hb⟩)
      · exact ⟨i, by omega, hb, hnone⟩
      · refine ⟨n, by omega, hb, fun j hj => ?_⟩
        exact findSome?_eq_none_iff.mp hnone j (mem_range.mpr hj)
    · rintro ⟨i, hi, hb, hnone⟩
      by_cases hin : i = n
      · subst hin
        refine .inr ⟨?_, hb⟩
        rw [findSome?_eq_none_iff]
        exact fun j hj => hnone j (mem_range.mp hj)
      · exact .inl ⟨i, by omega, hb, hnone⟩

lemma childAt_eq_some_iff {parent : ObjectId} {name : List UInt8} {slot : ℕ} :
    ns.lookup.childAt parent name slot = some id ↔
      ∃ r, ns.Live slot r ∧ r.parent = parent ∧ r.nameLength = name.length ∧ r.nameBytes = name ∧
        id = ⟨slot, r.generation⟩ := by
  unfold Lookup.childAt lookup Live ObjectRecord.nameBytes
  rcases ns.records[slot]? with _ | record
  · simp
  simp only [Option.ite_none_right_eq_some, Option.some.injEq]
  constructor
  · rintro ⟨⟨ha, hp, hl, hn⟩, rfl⟩
    exact ⟨record, ⟨rfl, ha⟩, hp, hl, by rw [hl]; exact hn, rfl⟩
  · rintro ⟨_, ⟨rfl, ha⟩, hp, hl, hn, rfl⟩
    exact ⟨⟨ha, hp, hl, by rw [← hl]; exact hn⟩, rfl⟩

lemma length_nameBytes (h : r.nameLength ≤ maxComponentBytes) : r.nameBytes.length = r.nameLength := by
  unfold ObjectRecord.nameBytes
  rw [length_take, Vector.length_toList]
  exact Nat.min_eq_left h

/-- The way up to the root was found. -/
theorem belowRoot_of_checkReachesRoot : ∀ {n : ℕ} {id : ObjectId}, ns.checkReachesRoot n id = .ok () → ns.BelowRoot id
  | 0, _, h => by cases h
  | n + 1, id, h => by
    rw [checkReachesRoot] at h
    split at h
    · next heq => exact heq ▸ .root
    · obtain ⟨r, hr, h⟩ := bind_eq_ok.mp h
      exact .child (objectRecord_eq_ok_iff.mp hr) (belowRoot_of_checkReachesRoot h)

/-- What the check of a live object establishes; the object is the first one under its parent with its name. -/
theorem checkObject_eq_ok (hlive : ns.Live slot r) (h : ns.checkObject slot r = .ok ()) :
    validateName r.nameBytes = .ok () ∧ (∃ p, ns.Names r.parent p ∧ p.kind = .directory) ∧
      (∀ j < slot, ns.lookup.childAt r.parent r.nameBytes j = none) ∧ ns.BelowRoot ⟨slot, r.generation⟩ := by
  unfold checkObject at h
  rw [if_neg (by rw [hlive.2]; decide)] at h
  simp only [bind_eq_ok, ite_eq_ok, not_or, not_not] at h
  obtain ⟨⟨⟩, hname, p, hp, child, hchild, hc, h⟩ := h
  obtain ⟨_, -, hchild⟩ := bind_eq_ok.mp hchild
  obtain ⟨i, -, hi, hnone⟩ := findSome?_range.mp ((Except.ok.inj hchild).trans hc.2)
  obtain ⟨_, _, _, _, _, heq⟩ := childAt_eq_some_iff.mp hi
  obtain rfl : slot = i := congrArg ObjectId.slot heq
  exact ⟨hname, ⟨p, objectRecord_eq_ok_iff.mp hp, hc.1⟩, hnone, belowRoot_of_checkReachesRoot h⟩

/-- **What the checks accept is a tree**, if the parent stored for the root is not an object. -/
theorem wellFormed_of_checks (hfit : ∀ slot r, ns.Live slot r → r.nameLength ≤ maxComponentBytes)
    (hroot : ns.checkRoot = .ok ())
    (hobjects : ∀ slot r, slot ≠ 0 → ns.Live slot r → ns.checkObject slot r = .ok ())
    (horphan : ∀ r, ns.Live 0 r → ∀ p, ¬ ns.Names r.parent p) : ns.WellFormed := by
  have hobj := fun slot r hne hlive => checkObject_eq_ok hlive (hobjects slot r hne hlive)
  have h0 : ∃ r, ns.Live 0 r ∧ r.kind = .directory ∧ r.generation = 1 := by
    simp only [checkRoot, ite_eq_ok, not_or, not_not, Bool.not_eq_false] at hroot
    exact ⟨ns.records.get 0, ⟨rfl, hroot.1.2.1⟩, hroot.1.2.2, hroot.1.1⟩
  -- the later one of two siblings with one name would have found the other
  have hsib : ∀ slot slot' r r', slot < slot' → ns.Live slot r → ns.Live slot' r' → r.parent = r'.parent →
      r.nameBytes ≠ r'.nameBytes := by
    intro slot slot' r r' hlt hr hr' hparent hname
    have hnone := (hobj slot' r' (by omega) hr').2.2.1 slot hlt
    have hlen : r.nameLength = r'.nameBytes.length := by rw [← hname, length_nameBytes (hfit slot r hr)]
    have hsome := childAt_eq_some_iff.mpr ⟨r, hr, hparent, hlen, hname, rfl⟩
    rw [hnone] at hsome
    cases hsome
  refine ⟨?_, horphan, ?_, ?_, ?_, ?_⟩
  · obtain ⟨r, hr, hk, -⟩ := h0
    exact ⟨r, hr, hk⟩
  · intro slot r hne hr
    exact (hobj slot r hne hr).2.1
  · intro slot r hr
    by_cases hne : slot = 0
    · subst hne
      obtain ⟨r0, hr0, -, hg⟩ := h0
      rw [hr.unique hr0, hg]
      exact .root
    · exact (hobj slot r hne hr).2.2.2
  · intro slot slot' r r' hr hr' hparent hname
    rcases Nat.lt_trichotomy slot slot' with hlt | heq | hlt
    · exact absurd hname (hsib slot slot' r r' hlt hr hr' hparent)
    · exact heq
    · exact absurd hname.symm (hsib slot' slot r' r hlt hr' hr hparent.symm)
  · intro slot r hne hr
    have := validateName_eq_ok_iff.mp (hobj slot r hne hr).1
    exact ⟨this.1, this.2.2.1, this.2.2.2⟩

lemma apart_iff {e : CowExtent} {l : List CowExtent} : apart e l = true ↔ ∀ o ∈ l, extentsMeet e o = false := by
  simp [apart]

/-- What the check of a live file with extents establishes. -/
theorem checkFile_eq_ok {arena : ℕ × ℕ} (hlive : ns.Live slot r) (hne : r.extents ≠ [])
    (h : ns.checkFile arena slot r = .ok ()) : r.kind = .file ∧
      ∀ (k : ℕ) (e : CowExtent), r.extents[k]? = some e → insideArena e arena = true ∧
        (∀ p ∈ r.extents.take k, extentsMeet e p = false) ∧
        ∀ (j : ℕ) (other : ObjectRecord), j < slot → ns.Live j other → ∀ o ∈ other.extents, extentsMeet e o = false := by
  unfold checkFile at h
  rw [if_neg (by rw [hlive.2, not_or]; exact ⟨by decide, hne⟩)] at h
  simp only [ite_eq_ok, not_or, not_not, all_eq_true] at h
  obtain ⟨hk, hall, -⟩ := h
  refine ⟨hk.1, fun k e he => ?_⟩
  have hke := hall (e, k) (mem_zipIdx_iff_getElem?.mpr he)
  simp only [Bool.and_eq_true, apart_iff, all_eq_true, Bool.or_eq_true] at hke
  refine ⟨hke.1.1, hke.1.2, fun j other hj hother => ?_⟩
  have hmem : other ∈ ns.records.toList.take slot := mem_take_iff.mpr ⟨j, hj, by simpa using hother.1⟩
  exact (hke.2 other hmem).resolve_left (by simp [hother.2])

/-- **The files that the checks accept share no block.** -/
theorem filesApart_of_checks {arena : ℕ × ℕ} (hpos : ∀ slot r, ns.Live slot r → ∀ e ∈ r.extents, 0 < e.blocks)
    (hfiles : ∀ slot r, ns.Live slot r → ns.checkFile arena slot r = .ok ()) : ns.FilesApart arena := by
  have hfile := fun slot r hlive hne => checkFile_eq_ok hlive hne (hfiles slot r hlive)
  have hacross : ∀ slot slot' r r', slot < slot' → ns.Live slot r → ns.Live slot' r' →
      ∀ e ∈ r.extents, ∀ e' ∈ r'.extents, e.Disjoint e' := by
    intro slot slot' r r' hlt hr hr' e he e' he'
    obtain ⟨k, hk⟩ := mem_iff_getElem?.mp he'
    have := ((hfile slot' r' hr' (ne_nil_of_mem he')).2 k e' hk).2.2 slot r hlt hr e he
    exact (disjoint_of_not_meet this).symm
  refine ⟨fun slot r hr hne => (hfile slot r hr hne).1, ?_, ?_, ?_⟩
  · intro slot r hr e he
    obtain ⟨k, hk⟩ := mem_iff_getElem?.mp he
    obtain ⟨h1, -, h2⟩ := insideArena_iff.mp ((hfile slot r hr (ne_nil_of_mem he)).2 k e hk).1
    exact ⟨hpos slot r hr e he, h1, h2⟩
  · intro slot r hr
    rw [pairwise_iff_take]
    intro k e hk p hp
    have hne := ne_nil_of_mem (mem_of_getElem? hk)
    exact (disjoint_of_not_meet (((hfile slot r hr hne).2 k e hk).2.1 p hp)).symm
  · intro slot slot' r r' hne hr hr' e he e' he'
    rcases Nat.lt_or_gt_of_ne hne with hlt | hlt
    · exact hacross slot slot' r r' hlt hr hr' e he e' he'
    · exact (hacross slot' slot r' r hlt hr' hr e' he' e he).symm

/-- The files and the packages share no block. -/
theorem disjoint_of_checkPackages {packages : List PackageExtent} (h : ns.checkPackages packages = .ok ()) :
    ∀ slot r, ns.Live slot r → ∀ e ∈ r.extents, ∀ p ∈ packages, e.Disjoint p := by
  simp only [checkPackages, ite_eq_ok_of_else, all_eq_true] at h
  intro slot r hr e he p hp
  have hr' := h.1 r (mem_of_getElem? (by simpa using hr.1))
  simp only [hr.2, Bool.not_true, Bool.false_or, all_eq_true] at hr'
  exact disjoint_of_not_meet (apart_iff.mp (hr' e he) p hp)

/-! ## What the checks accept -/

/-- The object is `n` links away from the root. -/
inductive LinksTo (ns : ObjectNamespace) : ℕ → ObjectId → Prop
  | root : LinksTo ns 0 .root
  | child {n : ℕ} {id : ObjectId} {r : ObjectRecord} : ns.Names id r → LinksTo ns n r.parent → LinksTo ns (n + 1) id

lemma BelowRoot.linksTo (h : ns.BelowRoot id) : ∃ n, ns.LinksTo n id := by
  induction h with
  | root => exact ⟨0, .root⟩
  | child hid _ ih =>
    obtain ⟨n, hn⟩ := ih
    exact ⟨n + 1, .child hid hn⟩

lemma Names.unique {id' : ObjectId} {r' : ObjectRecord} (h : ns.Names id r) (h' : ns.Names id' r')
    (hslot : id.slot = id'.slot) : id = id' := by
  obtain ⟨hlive, hgen⟩ := h
  obtain ⟨hlive', hgen'⟩ := h'
  rw [hslot] at hlive
  obtain rfl := hlive.unique hlive'
  cases id
  simp_all

/-- The least number of links. -/
def Depth (ns : ObjectNamespace) (n : ℕ) (id : ObjectId) : Prop := ns.LinksTo n id ∧ ∀ m < n, ¬ ns.LinksTo m id

lemma exists_depth (h : ns.BelowRoot id) : ∃ n, ns.Depth n id := by
  classical
  have hex := h.linksTo
  exact ⟨Nat.find hex, Nat.find_spec hex, fun m hm => Nat.find_min hex hm⟩

lemma Depth.unique {n m : ℕ} (h : ns.Depth n id) (h' : ns.Depth m id) : n = m := by
  rcases Nat.lt_trichotomy n m with hlt | heq | hlt
  · exact absurd h.1 (h'.2 n hlt)
  · exact heq
  · exact absurd h'.1 (h.2 m hlt)

/-- Above an object there is one that is nearer to the root by one link. -/
theorem Depth.up {n : ℕ} (h : ns.Depth (n + 1) id) : ∃ r, ns.Names id r ∧ ns.Depth n r.parent := by
  obtain ⟨hlinks, hmin⟩ := h
  cases hlinks with
  | @child _ _ r hid hp =>
    refine ⟨r, hid, hp, fun m hm hlink => ?_⟩
    exact hmin (m + 1) (Nat.succ_lt_succ hm) (.child hid hlink)

/-- An object that is not the root itself is in a slot other than that of the root. -/
theorem Depth.slot_pos {n : ℕ} (h : ns.Depth (n + 1) id) {r0 : ObjectRecord} (hroot : ns.Live 0 r0) (hgen : r0.generation = 1) :
    0 < id.slot ∧ id.slot < maxObjects := by
  obtain ⟨r, hid, -⟩ := h.up
  refine ⟨Nat.pos_of_ne_zero fun hz => ?_, hid.1.lt⟩
  have hname : ns.Names .root r0 := ⟨hroot, hgen⟩
  obtain rfl : id = .root := hid.unique hname hz
  exact h.2 0 (Nat.succ_pos n) .root

/-- **The way up is short**: four slots are not enough for a longer one. -/
theorem Depth.le {n : ℕ} (h : ns.Depth n id) {r0 : ObjectRecord} (hroot : ns.Live 0 r0) (hgen : r0.generation = 1) : n ≤ 3 := by
  by_contra hn
  -- go up until four links are left; the four objects on the rest of the way lie in four slots
  have hdown : ∀ k, ∀ {m : ℕ} {x : ObjectId}, ns.Depth m x → m = 4 + k → ∃ y, ns.Depth 4 y := by
    intro k
    induction k with
    | zero =>
      intro m x hx hm
      subst hm
      exact ⟨x, hx⟩
    | succ k ih =>
      intro m x hx hm
      subst hm
      obtain ⟨r, -, hp⟩ := hx.up
      exact ih hp rfl
  obtain ⟨a, ha⟩ := hdown (n - 4) h (by omega)
  obtain ⟨ra, hna, hb⟩ := ha.up
  obtain ⟨rb, hnb, hc⟩ := hb.up
  obtain ⟨rc, hnc, hd⟩ := hc.up
  obtain ⟨rd, hnd, -⟩ := hd.up
  have hne : ∀ {x y : ObjectId} {rx ry : ObjectRecord} {m k : ℕ}, ns.Names x rx → ns.Names y ry → ns.Depth m x →
      ns.Depth k y → m ≠ k → x.slot ≠ y.slot := by
    intro x y rx ry m k hx hy hm hk hmk hs
    obtain rfl := hx.unique hy hs
    exact hmk (hm.unique hk)
  have h1 := ha.slot_pos hroot hgen
  have h2 := hb.slot_pos hroot hgen
  have h3 := hc.slot_pos hroot hgen
  have h4 := hd.slot_pos hroot hgen
  have n1 := hne hna hnb ha hb (by decide)
  have n2 := hne hna hnc ha hc (by decide)
  have n3 := hne hna hnd ha hd (by decide)
  have n4 := hne hnb hnc hb hc (by decide)
  have n5 := hne hnb hnd hb hd (by decide)
  have n6 := hne hnc hnd hc hd (by decide)
  unfold maxObjects at h1 h2 h3 h4
  omega

lemma checkReachesRoot_of_linksTo : ∀ {n k : ℕ} {id : ObjectId}, ns.LinksTo n id → n < k → ns.checkReachesRoot k id = .ok ()
  | n, 0, _, _, hlt => absurd hlt (Nat.not_lt_zero n)
  | _, k + 1, id, h, hlt => by
    rw [checkReachesRoot]
    split
    · rfl
    next hne =>
    cases h with
    | root => exact absurd rfl hne
    | child hid hp =>
      refine bind_eq_ok.mpr ⟨_, objectRecord_eq_ok_iff.mpr hid, ?_⟩
      exact checkReachesRoot_of_linksTo hp (by omega)

/-- The tree as the checks see it, which leaves out the parent of the root. -/
structure Linked (ns : ObjectNamespace) : Prop where
  root : ∃ r, ns.Live 0 r ∧ r.kind = .directory ∧ r.generation = 1
  parent : ∀ slot r, slot ≠ 0 → ns.Live slot r → ∃ p, ns.Names r.parent p ∧ p.kind = .directory
  below : ∀ slot r, ns.Live slot r → ns.BelowRoot ⟨slot, r.generation⟩
  siblings : ∀ slot slot' r r', ns.Live slot r → ns.Live slot' r' → r.parent = r'.parent → r.nameBytes = r'.nameBytes →
    slot = slot'
  names : ∀ slot r, slot ≠ 0 → ns.Live slot r → validateName r.nameBytes = .ok ()
  lengths : ∀ slot r, ns.Live slot r → r.nameLength ≤ maxComponentBytes

lemma Linked.checkRoot (h : ns.Linked) : ns.checkRoot = .ok () := by
  obtain ⟨r, ⟨hr, ha⟩, hk, hg⟩ := h.root
  have hget : ns.records.get 0 = r := Option.some.inj hr
  unfold ObjectNamespace.checkRoot
  rw [hget, if_neg]
  rw [ha, hk, hg]
  decide

lemma Linked.checkObject (h : ns.Linked) (hne : slot ≠ 0) (hr : ns.Live slot r) : ns.checkObject slot r = .ok () := by
  obtain ⟨p, hp, hkind⟩ := h.parent slot r hne hr
  obtain ⟨r0, hr0, -, hgen⟩ := h.root
  obtain ⟨n, hn⟩ := exists_depth (h.below slot r hr)
  have hle := hn.le hr0 hgen
  have hself : ns.lookup.childAt r.parent r.nameBytes slot = some ⟨slot, r.generation⟩ :=
    childAt_eq_some_iff.mpr ⟨r, hr, rfl, (length_nameBytes (h.lengths slot r hr)).symm, rfl, rfl⟩
  have hfirst : (range maxObjects).findSome? (ns.lookup.childAt r.parent r.nameBytes) = some ⟨slot, r.generation⟩ := by
    refine findSome?_range.mpr ⟨slot, hr.lt, hself, fun j hj => ?_⟩
    rcases hc : ns.lookup.childAt r.parent r.nameBytes j with _ | id
    · rfl
    · obtain ⟨r', hr', hparent, -, hname, -⟩ := childAt_eq_some_iff.mp hc
      have := h.siblings j slot r' r hr' hr hparent hname
      omega
  have hfind : ns.lookup.findChild r.parent r.nameBytes = .ok (some ⟨slot, r.generation⟩) :=
    bind_eq_ok.mpr ⟨p, objectRecord_eq_ok_iff.mpr hp, by rw [hfirst]⟩
  unfold ObjectNamespace.checkObject
  rw [if_neg (by rw [hr.2]; decide)]
  refine bind_eq_ok.mpr ⟨(), h.names slot r hne hr, bind_eq_ok.mpr ⟨p, objectRecord_eq_ok_iff.mpr hp,
    bind_eq_ok.mpr ⟨_, hfind, ?_⟩⟩⟩
  rw [if_neg (by rw [hkind, not_or]; exact ⟨not_not.mpr rfl, not_not.mpr rfl⟩)]
  exact checkReachesRoot_of_linksTo hn.1 (by unfold maxObjects; omega)

lemma FilesApart.checkFile {arena : ℕ × ℕ} (h : ns.FilesApart arena) (hbound : arena.2 < 2 ^ 64) (hr : ns.Live slot r)
    (hcount : r.extents.length ≤ maxFileExtents) (hroom : r.extents ≠ [] → r.length ≤ Extent.total r.extents * blockBytes) :
    ns.checkFile arena slot r = .ok () := by
  unfold ObjectNamespace.checkFile
  split
  · rfl
  next hne =>
  rw [not_or] at hne
  have hlt : ∀ {e : Extent}, Inside arena e → e.start + e.blocks < 2 ^ 64 := fun he => lt_of_le_of_lt he.stop hbound
  rw [if_neg, if_neg]
  · rw [not_not, all_eq_true]
    rintro ⟨e, k⟩ hmem
    have hk := mem_zipIdx_iff_getElem?.mp hmem
    have he := h.inside slot r hr e (mem_of_getElem? hk)
    simp only [Bool.and_eq_true, apart_iff, all_eq_true, Bool.or_eq_true]
    refine ⟨⟨insideArena_iff.mpr ⟨he.start, hlt he, he.stop⟩, fun p hp => ?_⟩, fun other hother => ?_⟩
    · have hp' := h.inside slot r hr p (mem_of_mem_take hp)
      exact not_meet_of_disjoint he.pos hp'.pos (hlt he) (hlt hp')
        (pairwise_iff_take.mp (h.within slot r hr) k e hk p hp).symm
    obtain ⟨j, hj, hother⟩ := mem_take_iff.mp hother
    rcases halive : other.alive with _ | _
    · exact .inl rfl
    right
    have hlive : ns.Live j other := ⟨by simpa using hother, halive⟩
    intro o ho
    have ho' := h.inside j other hlive o ho
    exact not_meet_of_disjoint he.pos ho'.pos (hlt he) (hlt ho')
      (h.across slot j r other (by omega) hr hlive e (mem_of_getElem? hk) o ho)
  · rintro (hk | hk | hk)
    · exact hk (h.kind slot r hr hne.2)
    · omega
    · have := hroom hne.2
      omega

lemma checkPackages_of_disjoint {dataArena packageArena : ℕ × ℕ} {packages : List PackageExtent}
    (hfiles : ns.FilesApart dataArena) (hdata : dataArena.2 < 2 ^ 64) (hpackages : ∀ p ∈ packages, Inside packageArena p)
    (hpack : packageArena.2 < 2 ^ 64)
    (h : ∀ slot r, ns.Live slot r → ∀ e ∈ r.extents, ∀ p ∈ packages, e.Disjoint p) : ns.checkPackages packages = .ok () := by
  unfold checkPackages
  rw [if_pos]
  rw [all_eq_true]
  intro r hr
  obtain ⟨slot, hslot⟩ := mem_iff_getElem?.mp hr
  rcases halive : r.alive with _ | _
  · rfl
  have hlive : ns.Live slot r := ⟨by simpa using hslot, halive⟩
  simp only [Bool.not_true, Bool.false_or, all_eq_true, apart_iff]
  intro e he p hp
  have he' := hfiles.inside slot r hlive e he
  have hp' := hpackages p hp
  exact not_meet_of_disjoint he'.pos hp'.pos (lt_of_le_of_lt he'.stop hdata) (lt_of_le_of_lt hp'.stop hpack)
    (h slot r hlive e he p hp)

end ObjectNamespace

end LogOS.StorageService
