import LogOS.Memory.PageTable

/-!
# Page tables refine a page map

The tables that a builder has made form a tree: its nodes are known by the indices that lead to them, the last index first, and
no frame holds two of them.  An entry of an upper table leads to the table below, or it is vacant: zero, or what the root inherits.
The walk of the processor in user mode finds the pages of the tree and nothing else.
-/

namespace LogOS.Memory

open Lib Op Function List Option

/-! ## Bits of entries -/

variable {frame : BitVec 64}

/-- An address that an entry can hold. -/
structure Usable (frame : Frame) : Prop where
  ne_zero : frame ≠ 0#64
  masked : frame &&& addressMask = frame

/-- The flags of an address with flags are the flags. -/
theorem Usable.or_and_flag {flags flag : BitVec 64} (h : Usable frame) (hflag : addressMask &&& flag = 0#64) :
    (frame ||| flags) &&& flag = flags &&& flag := by
  rw [BitVec.and_or_distrib_right, ← h.masked, BitVec.and_assoc, hflag, BitVec.and_zero, BitVec.zero_or]

lemma Usable.or_and_mask {flags : BitVec 64} (h : Usable frame) (hflags : flags &&& addressMask = 0#64) :
    (frame ||| flags) &&& addressMask = frame := by
  rw [BitVec.and_or_distrib_right, h.masked, hflags, BitVec.or_zero]

lemma childEntry_eq (child : Frame) : childEntry child = child ||| 7#64 := by
  rw [childEntry, BitVec.or_assoc, BitVec.or_assoc]
  rfl

/-- An entry that leads to a table below. -/
structure LeadsTo (entry : BitVec 64) (child : Frame) : Prop where
  present : entry &&& flagPresent ≠ 0#64
  user : entry &&& flagUser ≠ 0#64
  writable : entry &&& flagWritable ≠ 0#64
  notHuge : entry &&& flagHuge = 0#64
  executable : entry &&& flagNoExecute = 0#64
  address : entry &&& addressMask = child

lemma Usable.leadsTo {child : Frame} (h : Usable child) : LeadsTo (childEntry child) child := by
  rw [childEntry_eq]
  refine ⟨?_, ?_, ?_, ?_, ?_, h.or_and_mask (by decide)⟩ <;> rw [h.or_and_flag (by decide)] <;> decide

def leafFlags (writable executable : Bool) : BitVec 64 :=
  flagPresent ||| flagUser ||| (if writable then flagWritable else 0#64) ||| (if executable then 0#64 else flagNoExecute)

lemma leafEntry_eq (frame : Frame) (writable executable : Bool) :
    leafEntry frame writable executable = frame ||| leafFlags writable executable := by
  cases writable <;> cases executable <;>
    simp [leafEntry, leafFlags, BitVec.or_assoc]

lemma leafEntry_spec {frame : Frame} (h : Usable frame) (writable executable : Bool) :
    leafEntry frame writable executable &&& flagPresent ≠ 0#64 ∧ leafEntry frame writable executable &&& flagUser ≠ 0#64 ∧
      (leafEntry frame writable executable &&& flagWritable != 0#64) = writable ∧
      (leafEntry frame writable executable &&& flagNoExecute == 0#64) = executable ∧
      leafEntry frame writable executable &&& addressMask = frame := by
  have hmask : leafFlags writable executable &&& addressMask = 0#64 := by
    cases writable <;> cases executable <;> decide
  rw [leafEntry_eq]
  refine ⟨?_, ?_, ?_, ?_, h.or_and_mask hmask⟩ <;> rw [h.or_and_flag (by decide)] <;>
    cases writable <;> cases executable <;> decide

/-! ## Writing memory -/

variable {index : ℕ}

lemma writeTo_self (memory : Frame → ℕ → BitVec 64) (table : Frame) (index : ℕ) (value : BitVec 64) :
    writeTo memory table index value table index = value := by
  rw [writeTo, update_self, update_self]

lemma writeTo_of_ne {memory : Frame → ℕ → BitVec 64} {table table' : Frame} {index' : ℕ} (value : BitVec 64)
    (h : ¬ (table' = table ∧ index' = index)) : writeTo memory table index value table' index' = memory table' index' := by
  rw [writeTo]
  by_cases htable : table' = table
  · subst htable
    rw [update_self, update_of_ne fun hindex => h ⟨rfl, hindex⟩]
  · rw [update_of_ne htable]

/-! ## The tree of tables -/

variable {p : List ℕ} {t : Frame} {s s' : Space}

/-- What a vacant entry of the table at `path` holds. -/
def vacant (inherited : ℕ → BitVec 64) (path : List ℕ) (index : ℕ) : BitVec 64 := if path = [] then inherited index else 0#64

def pageEntry (page : Option Translation) : BitVec 64 :=
  match page with
  | some page => leafEntry page.frame page.writable page.executable
  | none => 0#64

/-- The space holds the tables `table` and the pages `page`, by the indices that lead to them. -/
structure Tables (inherited : ℕ → BitVec 64) (s : Space) (table : List ℕ → Option Frame) (page : List ℕ → Option Translation) :
    Prop where
  root : table [] = some s.root
  apart : ∀ p q t, table p = some t → table q = some t → p = q
  owned : ∀ p t, table p = some t → t ∈ s.frames
  below : ∀ i p, table (i :: p) ≠ none → table p ≠ none
  paged : ∀ i p, page (i :: p) ≠ none → p.length = 3 ∧ table p ≠ none
  upper : ∀ p t, table p = some t → p.length < 3 → ∀ i < entryCount,
    s.memory t i = ((table (i :: p)).map childEntry).getD (vacant inherited p i)
  leaf : ∀ p t, table p = some t → p.length = 3 → ∀ i < entryCount, s.memory t i = pageEntry (page (i :: p))
  sound : ∀ p tr, page p = some tr → Usable tr.frame ∧ ¬ (tr.writable = true ∧ tr.executable = true)
  usable : ∀ f ∈ s.frames ++ s.pool, Usable f
  fresh : (s.frames ++ s.pool).Nodup
  foreign : ∀ i < entryCount, inherited i &&& flagPresent ≠ 0#64 → inherited i &&& addressMask ∉ s.frames ++ s.pool
  closed : ∀ i < entryCount, inherited i &&& flagUser = 0#64

variable {inherited : ℕ → BitVec 64} {table : List ℕ → Option Frame} {page : List ℕ → Option Translation}

namespace Tables

/-- The pages counted do not matter. -/
theorem counted (h : Tables inherited s table page) (count : ℕ) : Tables inherited { s with mappedPages := count } table page :=
  ⟨h.root, h.apart, h.owned, h.below, h.paged, h.upper, h.leaf, h.sound, h.usable, h.fresh, h.foreign, h.closed⟩

lemma ne_none_of_append (h : Tables inherited s table page) {q : List ℕ} (htable : table (q ++ p) ≠ none) : table p ≠ none := by
  induction q with
  | nil => exact htable
  | cons i q ih => exact ih (h.below i (q ++ p) htable)

variable {i : ℕ}

section

variable (h : Tables inherited s table page)
include h

/-- An upper entry leads to the table below. -/
theorem leadsTo {child : Frame} (ht : table p = some t)
    (hp : p.length < 3) (hi : i < entryCount) (hchild : table (i :: p) = some child) : LeadsTo (s.memory t i) child := by
  rw [h.upper p t ht hp i hi, hchild]
  exact (h.usable child (mem_append_left _ (h.owned _ _ hchild))).leadsTo

/-- An upper entry that leads nowhere is closed to the user, and the builder does not follow it. -/
theorem vacant_spec (ht : table p = some t) (hp : p.length < 3) (hi : i < entryCount) (hnone : table (i :: p) = none) :
    s.memory t i &&& flagUser = 0#64 ∧ (s.memory t i &&& flagPresent ≠ 0#64 → s.memory t i &&& addressMask ∉ s.frames) := by
  rw [h.upper p t ht hp i hi, hnone, map_none, vacant]
  split
  · exact ⟨h.closed i hi, fun hpresent hmem => h.foreign i hi hpresent (mem_append_left _ hmem)⟩
  · exact ⟨BitVec.zero_and, fun hpresent => absurd BitVec.zero_and hpresent⟩

/-- **The walk finds the pages of the tree.** -/
theorem walk_eq (indices : List ℕ) (ht : table p = some t)
    (hlength : p.length + indices.length = 4) (hne : indices ≠ []) (hindices : ∀ i ∈ indices, i < entryCount) :
    walk s.memory indices t true true = page (indices.reverse ++ p) := by
  induction indices generalizing p t with
  | nil => exact absurd rfl hne
  | cons i rest ih =>
    have hi := hindices i mem_cons_self
    cases rest with
    | nil =>
      have hentry := h.leaf p t ht (by simpa using hlength) i hi
      rw [walk, reverse_singleton, singleton_append]
      rcases hpage : page (i :: p) with _ | tr
      · rw [hentry, hpage]
        exact if_pos (.inl BitVec.zero_and)
      · obtain ⟨hpresent, huser, hwritable, hexecutable, haddress⟩ :=
          leafEntry_spec (h.sound _ _ hpage).1 tr.writable tr.executable
        rw [hentry, hpage, pageEntry, if_neg fun hor => hor.elim hpresent huser, hwritable, hexecutable, haddress, Bool.true_and,
          Bool.true_and]
    | cons j rest =>
      have hp : p.length < 3 := by
        simp only [length_cons] at hlength
        omega
      rw [walk]
      dsimp only
      rcases hchild : table (i :: p) with _ | child
      · obtain ⟨huser, -⟩ := h.vacant_spec ht hp hi hchild
        rw [if_pos (.inr huser)]
        -- no page below a table that is not there
        rcases hpage : page ((i :: j :: rest).reverse ++ p) with _ | tr
        · rfl
        exfalso
        have hsplit : (i :: j :: rest).reverse ++ p = (j :: rest).reverse ++ (i :: p) := by
          rw [reverse_cons, append_assoc, singleton_append]
        obtain ⟨x, q, hq⟩ : ∃ x q, (j :: rest).reverse = x :: q := by
          rcases hreverse : (j :: rest).reverse with _ | ⟨x, q⟩
          · exact absurd (reverse_eq_nil_iff.mp hreverse) (cons_ne_nil _ _)
          · exact ⟨x, q, rfl⟩
        rw [hsplit, hq, cons_append] at hpage
        have htable := (h.paged x (q ++ i :: p) (by rw [hpage]; exact some_ne_none tr)).2
        exact h.ne_none_of_append htable hchild
      · have hleads := h.leadsTo ht hp hi hchild
        rw [if_neg fun hor => hor.elim hleads.present hleads.user, if_neg fun hhuge => hhuge hleads.notHuge, hleads.address,
          hleads.executable, bne_iff_ne.mpr hleads.writable]
        rw [show (true && (0#64 == 0#64)) = true from rfl, show (true && true) = true from rfl,
          ih hchild (by simp [length_cons] at hlength ⊢; omega) (cons_ne_nil _ _)
            fun k hk => hindices k (mem_cons_of_mem _ hk),
          reverse_cons (a := i), append_assoc, singleton_append]

/-- A new table below a vacant entry. -/
theorem install {f : Frame} {pool : List Frame} (ht : table p = some t)
    (hp : p.length < 3) (hi : i < entryCount) (hnone : table (i :: p) = none) (hpool : s.pool = f :: pool) :
    Tables inherited { s with pool, memory := writeTo (clearFrame s.memory f) t i (childEntry f), frames := s.frames ++ [f] }
      (update table (i :: p) (some f)) page := by
  have hfree : f ∉ s.frames := by
    intro hmem
    have hfresh := h.fresh
    rw [hpool] at hfresh
    exact (nodup_append.mp hfresh).2.2 f hmem f mem_cons_self rfl
  have hholdings : s.frames ++ [f] ++ pool = s.frames ++ s.pool := by
    rw [hpool, append_assoc, singleton_append]
  have hother : ∀ q t', table q = some t' → t' ≠ f := fun q t' hq heq => hfree (heq ▸ h.owned q t' hq)
  have hold : ∀ q, q ≠ i :: p → update table (i :: p) (some f) q = table q := fun q hq => update_of_ne hq _ _
  have hnew : update table (i :: p) (some f) (i :: p) = some f := update_self _ _ _
  -- a table of the new tree is the new one, or an old one at its old place
  have hcases : ∀ q t', update table (i :: p) (some f) q = some t' →
      q = i :: p ∧ t' = f ∨ q ≠ i :: p ∧ table q = some t' := by
    intro q t' hq
    by_cases heq : q = i :: p
    · rw [heq, hnew] at hq
      exact .inl ⟨heq, (some.inj hq).symm⟩
    · rw [hold q heq] at hq
      exact .inr ⟨heq, hq⟩
  have hcleared : ∀ j, writeTo (clearFrame s.memory f) t i (childEntry f) f j = 0#64 := by
    intro j
    rw [writeTo_of_ne _ fun heq => hother p t ht heq.1.symm, clearFrame, update_self]
  have hkept : ∀ q t', table q = some t' → ∀ j, ¬ (t' = t ∧ j = i) →
      writeTo (clearFrame s.memory f) t i (childEntry f) t' j = s.memory t' j := by
    intro q t' hq j hne
    rw [writeTo_of_ne _ hne, clearFrame, update_of_ne (hother q t' hq)]
  refine ⟨?_, ?_, ?_, ?_, ?_, ?_, ?_, h.sound, ?_, ?_, ?_, h.closed⟩
  · exact h.root
  · intro q q' t' hq hq'
    rcases hcases q t' hq with ⟨rfl, rfl⟩ | ⟨-, hq⟩ <;> rcases hcases q' _ hq' with ⟨rfl, hf⟩ | ⟨-, hq'⟩
    · rfl
    · exact absurd rfl (hother q' _ hq')
    · exact absurd hf (hother q _ hq)
    · exact h.apart q q' t' hq hq'
  · intro q t' hq
    rcases hcases q t' hq with ⟨-, rfl⟩ | ⟨-, hq⟩
    · exact mem_append_right _ mem_cons_self
    · exact mem_append_left _ (h.owned q t' hq)
  · intro j q hq
    have hqne : ∀ {o : Option Frame}, table q = o → o ≠ none → update table (i :: p) (some f) q ≠ none := by
      intro o ho hone
      by_cases heq : q = i :: p
      · rw [heq, hnew]
        exact some_ne_none f
      · rw [hold q heq, ho]
        exact hone
    by_cases heq : j :: q = i :: p
    · obtain ⟨-, rfl⟩ := cons.inj heq
      exact hqne ht (some_ne_none t)
    · rw [hold _ heq] at hq
      exact hqne rfl (h.below j q hq)
  · intro j q hq
    obtain ⟨hlength, htable⟩ := h.paged j q hq
    refine ⟨hlength, ?_⟩
    by_cases heq : q = i :: p
    · rw [heq, hnew]
      exact some_ne_none f
    · rwa [hold q heq]
  · intro q t' hq hqlength j hj
    dsimp only
    rcases hcases q t' hq with ⟨rfl, rfl⟩ | ⟨-, htq⟩
    · have hbelow : table (j :: i :: p) = none := by
        rcases hget : table (j :: i :: p) with _ | x
        · rfl
        · exact absurd hnone (h.below j (i :: p) (by rw [hget]; exact some_ne_none x))
      rw [hcleared, hold _ fun heq => by simpa using congrArg length heq, hbelow]
      rfl
    · by_cases hplace : t' = t ∧ j = i
      · obtain ⟨rfl, rfl⟩ := hplace
        obtain rfl := h.apart q p t' htq ht
        rw [writeTo_self, hnew]
        rfl
      · rw [hkept q t' htq j hplace, h.upper q t' htq hqlength j hj, hold]
        intro heq
        obtain ⟨rfl, rfl⟩ := cons.inj heq
        exact hplace ⟨some.inj (htq.symm.trans ht), rfl⟩
  · intro q t' hq hqlength j hj
    dsimp only
    rcases hcases q t' hq with ⟨rfl, rfl⟩ | ⟨-, htq⟩
    · rcases hpage : page (j :: i :: p) with _ | tr
      · rw [hcleared]
        rfl
      · exact absurd hnone (h.paged j (i :: p) (by rw [hpage]; exact some_ne_none tr)).2
    · rw [hkept q t' htq j, h.leaf q t' htq hqlength j hj]
      rintro ⟨rfl, -⟩
      rw [h.apart q p t' htq ht] at hqlength
      omega
  · rw [hholdings]
    exact h.usable
  · rw [hholdings]
    exact h.fresh
  · rw [hholdings]
    exact h.foreign

/-- A page is set or removed. -/
theorem setPage (ht : table p = some t) (hp : p.length = 3)
    (new : Option Translation) (hnew : ∀ tr, new = some tr → Usable tr.frame ∧ ¬ (tr.writable = true ∧ tr.executable = true)) :
    Tables inherited { s with memory := writeTo s.memory t i (pageEntry new) } table (update page (i :: p) new) := by
  refine ⟨h.root, h.apart, h.owned, h.below, ?_, ?_, ?_, ?_, h.usable, h.fresh, h.foreign, h.closed⟩
  · intro j q hq
    by_cases heq : j :: q = i :: p
    · obtain ⟨-, rfl⟩ := cons.inj heq
      exact ⟨hp, by rw [ht]; exact some_ne_none t⟩
    · rw [update_of_ne heq] at hq
      exact h.paged j q hq
  · intro q t' hq hqlength j hj
    dsimp only
    rw [writeTo_of_ne, h.upper q t' hq hqlength j hj]
    rintro ⟨rfl, -⟩
    rw [h.apart q p t' hq ht] at hqlength
    omega
  · intro q t' hq hqlength j hj
    dsimp only
    by_cases hplace : t' = t ∧ j = i
    · obtain ⟨rfl, rfl⟩ := hplace
      obtain rfl := h.apart q p t' hq ht
      rw [writeTo_self, update_self]
    · rw [writeTo_of_ne _ hplace, h.leaf q t' hq hqlength j hj, update_of_ne]
      intro heq
      obtain ⟨rfl, rfl⟩ := cons.inj heq
      exact hplace ⟨some.inj (hq.symm.trans ht), rfl⟩
  · intro q tr hq
    by_cases heq : q = i :: p
    · rw [heq, update_self] at hq
      exact hnew tr hq
    · rw [update_of_ne heq] at hq
      exact h.sound q tr hq

/-- Every table that a walk in user mode reads is one of the tree. -/
theorem exists_of_tableAt {level : ℕ} (ht : s.TableAt level t) :
    ∃ p, p.length = level ∧ table p = some t := by
  induction ht with
  | root => exact ⟨[], rfl, h.root⟩
  | @child level t i _ hlevel hi hpresent huser ih =>
    obtain ⟨p, rfl, ht⟩ := ih
    rcases hchild : table (i :: p) with _ | child
    · exact absurd (h.vacant_spec ht hlevel hi hchild).1 huser
    · exact ⟨i :: p, rfl, by rw [hchild, (h.leadsTo ht hlevel hi hchild).address]⟩

end

end Tables

/-! ## The operations -/

variable {va : ℕ}

lemma wp_readEntry {table : Frame} {Q : BitVec 64 → Space → Prop} {E : PageTableError → Space → Prop} :
    wp (readEntry table index) Q E s ↔ Q (s.memory table index) s := Iff.rfl

/-- The space holds the pages, in some tables. -/
def Represents (inherited : ℕ → BitVec 64) (s : Space) (page : List ℕ → Option Translation) : Prop :=
  ∃ table, Tables inherited s table page

section

variable (indices : List ℕ) (h : Tables inherited s table page) (ht : table p = some t)
  (hlength : p.length + indices.length = 3) (hindices : ∀ i ∈ indices, i < entryCount)
include h ht hlength hindices

/-- The way down to the table of a page, with new tables where there are none. -/
theorem tableFor_spec :
    wp (tableFor indices t)
      (fun t' s' => ∃ table', Tables inherited s' table' page ∧ table' (indices.reverse ++ p) = some t')
      (fun _ s' => Represents inherited s' page) s := by
  induction indices generalizing s table p t with
  | nil => exact ⟨table, h, ht⟩
  | cons i rest ih =>
    have hi := hindices i mem_cons_self
    have hp : p.length < 3 := by
      simp only [length_cons] at hlength
      omega
    have hrest : ∀ {s' : Space} {table' : List ℕ → Option Frame} {child : Frame}, Tables inherited s' table' page →
        table' (i :: p) = some child →
        wp (tableFor rest child)
          (fun t' s'' => ∃ table'', Tables inherited s'' table'' page ∧ table'' ((i :: rest).reverse ++ p) = some t')
          (fun _ s'' => Represents inherited s'' page) s' := by
      intro s' table' child h' hchild
      rw [reverse_cons, append_assoc]
      exact ih h' hchild (by simp [length_cons] at hlength ⊢; omega) fun k hk => hindices k (mem_cons_of_mem _ hk)
    rw [tableFor, wp_bind, wp_readEntry, wp_ite]
    refine ⟨fun hpresent => ?_, fun hpresent => ?_⟩
    · refine wp_guard_seq (fun _ => ⟨table, h⟩) fun _ => ?_
      refine wp_guard_seq (fun _ => ⟨table, h⟩) fun hcontains => ?_
      rcases hchild : table (i :: p) with _ | child
      · exact absurd (contains_iff_mem.mp hcontains) ((h.vacant_spec ht hp hi hchild).2 hpresent)
      · rw [(h.leadsTo ht hp hi hchild).address]
        exact hrest h hchild
    · have hnone : table (i :: p) = none := by
        rcases hchild : table (i :: p) with _ | child
        · rfl
        · exact absurd (h.leadsTo ht hp hi hchild).present hpresent
      rw [wp_bind, allocateTable, wp_bind]
      refine wp_guard_seq (fun _ => ⟨table, h⟩) fun _ => ?_
      rcases hpool : s.pool with _ | ⟨f, pool⟩
      · exact ⟨table, h⟩
      · exact hrest (h.install ht hp hi hnone hpool) (update_self _ _ _)

lemma findTable_spec :
    wp (findTable indices t) (fun t' s' => s' = s ∧ table (indices.reverse ++ p) = some t') (fun _ s' => s' = s) s := by
  induction indices generalizing p t with
  | nil => exact ⟨rfl, ht⟩
  | cons i rest ih =>
    have hi := hindices i mem_cons_self
    have hp : p.length < 3 := by
      simp only [length_cons] at hlength
      omega
    refine wp_guard_seq (fun _ => rfl) fun hentry => ?_
    have hpresent : s.memory t i &&& flagPresent ≠ 0#64 := by
      simp only [Bool.not_eq_true', Bool.or_eq_false_iff, beq_eq_false_iff_ne] at hentry
      exact hentry.1.1
    refine wp_guard_seq (fun _ => rfl) fun hcontains => ?_
    rcases hchild : table (i :: p) with _ | child
    · exact absurd (contains_iff_mem.mp hcontains) ((h.vacant_spec ht hp hi hchild).2 hpresent)
    · rw [(h.leadsTo ht hp hi hchild).address, reverse_cons, append_assoc]
      exact ih hchild (by simp [length_cons] at hlength ⊢; omega) fun k hk => hindices k (mem_cons_of_mem _ hk)

end

/-- The indices of a virtual address, the last one first. -/
def pathOf (virtualAddress : ℕ) : List ℕ := leafIndex virtualAddress :: (upperIndices virtualAddress).reverse

lemma tableIndex_eq (virtualAddress shift : ℕ) : tableIndex virtualAddress shift = virtualAddress / 2 ^ shift % 512 := by
  rw [tableIndex, Nat.shiftRight_eq_div_pow]
  exact Nat.and_two_pow_sub_one_eq_mod _ 9

lemma tableIndex_lt (virtualAddress shift : ℕ) : tableIndex virtualAddress shift < entryCount := by
  rw [tableIndex_eq]
  exact Nat.mod_lt _ (by decide)

lemma upperIndices_lt (virtualAddress : ℕ) : ∀ i ∈ upperIndices virtualAddress, i < entryCount := by
  intro i hi
  simp only [upperIndices, mem_cons, not_mem_nil, or_false] at hi
  rcases hi with rfl | rfl | rfl <;> exact tableIndex_lt _ _

/-- Pages of 48 bits are told apart by their indices. -/
theorem pathOf_inj {va' : ℕ} (h : va % 4096 = 0 ∧ va < 2 ^ 48) (h' : va' % 4096 = 0 ∧ va' < 2 ^ 48)
    (heq : pathOf va = pathOf va') : va = va' := by
  simp only [pathOf, leafIndex, upperIndices, tableIndex_eq, reverse_cons, reverse_nil, nil_append,
    cons_append, cons.injEq] at heq
  omega

lemma translation_eq (h : Represents inherited s page) (hva : va % 4096 = 0 ∧ va < 2 ^ 48) :
    s.translation va = page (pathOf va) := by
  obtain ⟨table, h⟩ := h
  rw [Space.translation, if_pos hva, h.walk_eq _ h.root rfl (by simp [upperIndices])]
  · rfl
  · intro i hi
    rcases mem_append.mp hi with hi | hi
    · exact upperIndices_lt va i hi
    · rw [mem_singleton.mp hi]
      exact tableIndex_lt _ _

lemma validVirtualAddress_spec (h : validVirtualAddress va = true) : va % 4096 = 0 ∧ va < 2 ^ 48 := by
  simp only [validVirtualAddress, Bool.and_eq_true, beq_iff_eq, decide_eq_true_eq] at h
  exact ⟨h.1.2, by omega⟩

lemma validatePage_spec {p : LoadedPage} (h : validatePage p = .ok ()) :
    validVirtualAddress p.virtualAddress = true ∧ Usable p.frame ∧ ¬ (p.flags.writable = true ∧ p.flags.executable = true) := by
  unfold validatePage at h
  split at h
  · cases h
  rename_i haddress
  split at h
  · cases h
  rename_i hframe
  split at h
  · cases h
  rename_i hflags
  simp only [not_or, not_not] at hframe
  refine ⟨Bool.eq_true_of_not_eq_false haddress, ⟨hframe.1, ?_⟩, fun hboth => hflags (.inr hboth)⟩
  have hsplit : p.frame = (p.frame &&& addressMask) ||| (p.frame &&& ~~~ addressMask) := by
    rw [← BitVec.and_or_distrib_left, BitVec.or_not_self, BitVec.and_allOnes]
  rw [hframe.2.2, BitVec.or_zero] at hsplit
  exact hsplit.symm

def LoadedPage.translation (p : LoadedPage) : Translation := ⟨p.frame, p.flags.writable, p.flags.executable⟩

/-- The table of a page, and what it holds for it. -/
theorem leaf_spec (h : Tables inherited s table page) (ht : table ((upperIndices va).reverse ++ []) = some t) :
    table (upperIndices va).reverse = some t ∧ s.memory t (leafIndex va) = pageEntry (page (pathOf va)) := by
  exact ⟨ht, h.leaf _ t ht rfl _ (tableIndex_lt va 12)⟩

lemma mapPage_spec (h : Represents inherited s page) (p : LoadedPage) : wp (mapPage p)
      (fun _ s' => validVirtualAddress p.virtualAddress = true ∧ page (pathOf p.virtualAddress) = none ∧
        Represents inherited s' (update page (pathOf p.virtualAddress) (some p.translation)))
      (fun _ s' => Represents inherited s' page) s := by
  obtain ⟨table, h⟩ := h
  rw [mapPage, wp_bind, wp_lift]
  refine ⟨fun _ hvalid => ?_, fun _ _ => ⟨table, h⟩⟩
  obtain ⟨haddress, hframe, hflags⟩ := validatePage_spec hvalid
  rw [wp_bind, wp_get, wp_bind]
  refine wp_mono (tableFor_spec _ h h.root rfl (upperIndices_lt _)) (fun t s' hs' => ?_) fun _ _ h' => h'
  obtain ⟨table', h', ht⟩ := hs'
  obtain ⟨ht, hentry⟩ := leaf_spec h' ht
  refine wp_guard_seq (fun _ => ⟨table', h'⟩) fun hvacant => ?_
  have hnone : page (pathOf p.virtualAddress) = none := by
    rcases hpage : page (pathOf p.virtualAddress) with _ | tr
    · rfl
    · rw [hentry, hpage, beq_iff_eq] at hvacant
      exact absurd hvacant (leafEntry_spec (h'.sound _ _ hpage).1 _ _).1
  refine ⟨haddress, hnone, table', (h'.setPage ht rfl (some p.translation) fun tr htr => ?_).counted _⟩
  obtain rfl := some.inj htr
  exact ⟨hframe, hflags⟩

lemma unmapPage_spec (h : Represents inherited s page) (va : ℕ) : wp (unmapPage va)
      (fun frame s' => validVirtualAddress va = true ∧ (∃ tr, page (pathOf va) = some tr ∧ frame = tr.frame) ∧
        Represents inherited s' (update page (pathOf va) none)) (fun _ s' => Represents inherited s' page) s := by
  obtain ⟨table, h⟩ := h
  refine wp_guard_seq (fun _ => ⟨table, h⟩) fun haddress => ?_
  rw [wp_bind, wp_get, wp_bind]
  refine wp_mono (findTable_spec _ h h.root rfl (upperIndices_lt _)) (fun t s' hs' => ?_) fun _ s' hs' => ⟨table, hs' ▸ h⟩
  obtain ⟨rfl, ht⟩ := hs'
  obtain ⟨ht, hentry⟩ := leaf_spec h ht
  refine wp_guard_seq (fun _ => ⟨table, h⟩) fun htaken => ?_
  rcases hpage : page (pathOf va) with _ | tr
  · rw [hentry, hpage] at htaken
    cases htaken
  · refine ⟨haddress, ⟨tr, rfl, ?_⟩, table, (h.setPage ht rfl none fun tr htr => nomatch htr).counted _⟩
    rw [hentry, hpage]
    exact (leafEntry_spec (h.sound _ _ hpage).1 _ _).2.2.2.2

/-! ## Calls -/

/-- A map from virtual pages to frames with permissions. -/
abbrev PageMap := ℕ → Option Translation

def PageMap.insert (m : PageMap) (p : LoadedPage) : PageMap := Function.update m p.virtualAddress (some p.translation)

inductive PageCall where
  | mapPage (page : LoadedPage)
  | mapRawPage (virtualAddress : ℕ) (frame : Frame) (flags : MappingFlags)
  | mapImage (pages : List LoadedPage)
  | unmapPage (virtualAddress : ℕ)

/-- A call of the builder; only `unmap_page` returns a frame. -/
def PageCall.perform : PageCall → PageOp (Option Frame)
  | .mapPage page => do
    Memory.mapPage page
    return none
  | .mapRawPage virtualAddress frame flags => do
    Memory.mapRawPage virtualAddress frame flags
    return none
  | .mapImage pages => do
    Memory.mapImage pages
    return none
  | .unmapPage virtualAddress => do
    let frame ← Memory.unmapPage virtualAddress
    return some frame

/-- What a call with the result may do to the page map. -/
def PageCall.Effect (m m' : PageMap) : PageCall → Except PageTableError (Option Frame) → Prop
  | .mapPage page, .ok _ => m page.virtualAddress = none ∧ m' = m.insert page
  | .mapRawPage virtualAddress frame flags, .ok _ => m virtualAddress = none ∧ m' = m.insert ⟨virtualAddress, frame, flags⟩
  | .mapImage pages, .ok _ => m' = pages.foldl PageMap.insert m
  -- the pages before the one that failed stay mapped
  | .mapImage pages, .error _ => ∃ count < pages.length, m' = (pages.take count).foldl PageMap.insert m
  | .unmapPage virtualAddress, .ok frame =>
    ∃ tr, m virtualAddress = some tr ∧ frame = some tr.frame ∧ m' = Function.update m virtualAddress none
  | _, .error _ => m' = m

lemma translation_of_not_page (h : ¬ (va % 4096 = 0 ∧ va < 2 ^ 48)) : s.translation va = none := if_neg h

section

variable (h : Represents inherited s page)
include h

lemma translation_same (h' : Represents inherited s' page) : s'.translation = s.translation := by
  funext va
  by_cases hva : va % 4096 = 0 ∧ va < 2 ^ 48
  · rw [translation_eq h hva, translation_eq h' hva]
  · rw [translation_of_not_page hva, translation_of_not_page hva]

lemma translation_update (hva : va % 4096 = 0 ∧ va < 2 ^ 48) {o : Option Translation}
    (h' : Represents inherited s' (update page (pathOf va) o)) : s'.translation = update s.translation va o := by
  funext va'
  by_cases heq : va' = va
  · subst heq
    rw [translation_eq h' hva, update_self, update_self]
  · rw [update_of_ne heq]
    by_cases hva' : va' % 4096 = 0 ∧ va' < 2 ^ 48
    · rw [translation_eq h hva', translation_eq h' hva', update_of_ne fun hpath => heq (pathOf_inj hva' hva hpath)]
    · rw [translation_of_not_page hva', translation_of_not_page hva']

/-- `map_page`, in terms of what the processor finds. -/
theorem mapPage_translation (p : LoadedPage) : wp (mapPage p)
      (fun _ s' => (∃ page', Represents inherited s' page') ∧ s.translation p.virtualAddress = none ∧
        s'.translation = PageMap.insert s.translation p) (fun _ s' => Represents inherited s' page) s := by
  refine wp_mono (mapPage_spec h p) (fun _ s' hs' => ?_) fun _ _ h' => h'
  obtain ⟨haddress, hnone, h'⟩ := hs'
  have hva := validVirtualAddress_spec haddress
  exact ⟨⟨_, h'⟩, by rw [translation_eq h hva, hnone], translation_update h hva h'⟩

/-- Each call keeps the tables in order and has its effect. -/
theorem perform_spec (call : PageCall) : wp call.perform
      (fun result s' => (∃ page', Represents inherited s' page') ∧ call.Effect s.translation s'.translation (.ok result))
      (fun error s' => (∃ page', Represents inherited s' page') ∧ call.Effect s.translation s'.translation (.error error)) s := by
  cases call with
  | mapPage p =>
    rw [PageCall.perform, wp_bind]
    exact wp_mono (mapPage_translation h p) (fun _ _ h' => h') fun _ _ h' => ⟨⟨_, h'⟩, translation_same h h'⟩
  | mapRawPage va frame flags =>
    rw [PageCall.perform, wp_bind, mapRawPage, wp_bind, wp_orFail]
    refine ⟨fun p hp => ?_, fun _ => ⟨⟨_, h⟩, rfl⟩⟩
    unfold LoadedPage.fromParts at hp
    split at hp
    · obtain rfl := some.inj hp
      exact wp_mono (mapPage_translation h _) (fun _ _ h' => h') fun _ _ h' => ⟨⟨_, h'⟩, translation_same h h'⟩
    · cases hp
  | mapImage pages =>
    rw [PageCall.perform, wp_bind]
    refine wp_mono (wp_forEach (fun done s' =>
      (∃ page', Represents inherited s' page') ∧ s'.translation = done.foldl PageMap.insert s.translation) ?_ ⟨⟨_, h⟩, rfl⟩)
      (fun _ _ h' => h') fun _ _ h' => h'
    rintro done p todo s1 hsplit ⟨⟨page1, h1⟩, htranslation⟩
    refine wp_mono (mapPage_translation h1 p) (fun _ s2 hs2 => ⟨hs2.1, ?_⟩) fun _ s2 h2 => ⟨⟨_, h2⟩, done.length, ?_, ?_⟩
    · rw [hs2.2.2, htranslation, foldl_append]
      rfl
    · rw [← hsplit, length_append, length_cons]
      omega
    · rw [translation_same h1 h2, htranslation, ← hsplit, take_left]
  | unmapPage va =>
    rw [PageCall.perform, wp_bind]
    refine wp_mono (unmapPage_spec h va) (fun frame s' hs' => ?_) fun _ _ h' => ⟨⟨_, h'⟩, translation_same h h'⟩
    obtain ⟨haddress, ⟨tr, hpage, rfl⟩, h'⟩ := hs'
    have hva := validVirtualAddress_spec haddress
    exact ⟨⟨_, h'⟩, tr, by rw [translation_eq h hva, hpage], rfl, translation_update h hva h'⟩

end

/-! ## Runs -/

/-- The calls on a new builder, the last one first, with their results. -/
inductive Built (kernelRoot : ℕ → BitVec 64) (pool : List Frame) (memory : Frame → ℕ → BitVec 64) :
    List (PageCall × Except PageTableError (Option Frame)) → Space → Prop
  | new {s : Space} (h : newForOwner kernelRoot pool memory = .ok s) : Built kernelRoot pool memory [] s
  | call {log : List (PageCall × Except PageTableError (Option Frame))} {s : Space} (call : PageCall)
      (h : Built kernelRoot pool memory log s) :
      Built kernelRoot pool memory ((call, (call.perform s).1) :: log) (call.perform s).2

/-- The page map that calls with these results lead to, from an empty one. -/
inductive Tracks : List (PageCall × Except PageTableError (Option Frame)) → PageMap → Prop
  | nil : Tracks [] fun _ => none
  | cons {log : List (PageCall × Except PageTableError (Option Frame))} {m m' : PageMap} {call : PageCall}
      {result : Except PageTableError (Option Frame)} (h : Tracks log m) (heffect : call.Effect m m' result) :
      Tracks ((call, result) :: log) m'

/-- The pool holds frames that an entry can name, each once, and none that the kernel's root leads to. -/
structure Unused (kernelRoot : ℕ → BitVec 64) (pool : List Frame) : Prop where
  nodup : pool.Nodup
  usable : ∀ f ∈ pool, Usable f
  foreign : ∀ i < entryCount, kernelRoot i &&& flagPresent ≠ 0#64 → kernelRoot i &&& addressMask ∉ pool

lemma sanitize_and_user (kernelRoot : ℕ → BitVec 64) (index : ℕ) : sanitizeInheritedRoot kernelRoot index &&& flagUser = 0#64 := by
  unfold sanitizeInheritedRoot
  split
  · exact BitVec.zero_and
  · rw [BitVec.and_assoc, show ~~~ flagUser &&& flagUser = 0#64 by decide, BitVec.and_zero]

/-- What an inherited entry leads to, the kernel's entry leads to. -/
theorem sanitize_address {kernelRoot : ℕ → BitVec 64} (h : sanitizeInheritedRoot kernelRoot index &&& flagPresent ≠ 0#64) :
    kernelRoot index &&& flagPresent ≠ 0#64 ∧
      sanitizeInheritedRoot kernelRoot index &&& addressMask = kernelRoot index &&& addressMask := by
  unfold sanitizeInheritedRoot at h ⊢
  split at h
  · exact absurd BitVec.zero_and h
  · rename_i hindex
    rw [BitVec.and_assoc] at h
    rw [if_neg hindex, BitVec.and_assoc]
    exact ⟨h, rfl⟩

lemma represents_new {kernelRoot : ℕ → BitVec 64} {pool : List Frame} {memory : Frame → ℕ → BitVec 64}
    (hpool : Unused kernelRoot pool) (h : newForOwner kernelRoot pool memory = .ok s) :
    Represents (sanitizeInheritedRoot kernelRoot) s fun _ => none := by
  rcases pool with _ | ⟨root, pool⟩
  · cases h
  obtain rfl := Except.ok.inj h
  refine ⟨fun p => if p = [] then some root else none, rfl, ?_, ?_, ?_, ?_, ?_, ?_, ?_, hpool.usable, hpool.nodup, ?_, ?_⟩
  · intro p q t hp hq
    split at hp
    · rename_i hp'
      split at hq
      · rename_i hq'
        rw [hp', hq']
      · cases hq
    · cases hp
  · intro p t hp
    split at hp
    · rw [← some.inj hp]
      exact mem_cons_self
    · cases hp
  · intro i p hp
    exact absurd (if_neg (cons_ne_nil i p)) hp
  · intro i p hp
    exact absurd rfl hp
  · intro p t hp _ i _
    split at hp
    · rename_i hnil
      obtain rfl := some.inj hp
      dsimp only
      rw [update_self, hnil]
      rfl
    · cases hp
  · intro p t hp hlength
    split at hp
    · rename_i hnil
      rw [hnil] at hlength
      cases hlength
    · cases hp
  · exact nofun
  · intro i hi hpresent
    obtain ⟨hkernel, haddress⟩ := sanitize_address hpresent
    rw [haddress]
    exact hpool.foreign i hi hkernel
  · exact fun i _ => sanitize_and_user kernelRoot i

section Runs

variable {kernelRoot : ℕ → BitVec 64} {pool : List Frame} {memory : Frame → ℕ → BitVec 64}
  {log : List (PageCall × Except PageTableError (Option Frame))} {s : Space}

lemma call_effect (h : Represents inherited s page)
    (call : PageCall) : (∃ page', Represents inherited (call.perform s).2 page') ∧
      call.Effect s.translation (call.perform s).2.translation (call.perform s).1 := by
  have hspec := perform_spec h call
  rcases hresult : call.perform s with ⟨error | result, s'⟩
  · have hfailed := wp_error hspec hresult
    exact hfailed
  · have hdone := wp_ok hspec hresult
    exact hdone

lemma Built.represents (hpool : Unused kernelRoot pool) (h : Built kernelRoot pool memory log s) :
    (∃ page, Represents (sanitizeInheritedRoot kernelRoot) s page) ∧ Tracks log s.translation := by
  induction h with
  | new h =>
    have hnew := represents_new hpool h
    refine ⟨⟨_, hnew⟩, ?_⟩
    rename_i s
    have hempty : s.translation = fun _ => none := by
      funext va
      by_cases hva : va % 4096 = 0 ∧ va < 2 ^ 48
      · exact translation_eq hnew hva
      · exact translation_of_not_page hva
    rw [hempty]
    exact .nil
  | call call _ ih =>
    obtain ⟨⟨page, h⟩, htracks⟩ := ih
    obtain ⟨h', heffect⟩ := call_effect h call
    exact ⟨h', .cons htracks heffect⟩

/-- **Page tables refine a page map.**  What the processor finds in user mode is the page map that the calls lead to: a page is
found with its frame and permissions if it was mapped and not unmapped since.  A call that fails changes no translation, but for
`map_image`, which leaves the pages before the one that failed.  No page is writable and executable, and the tables that the
processor reads are frames of the builder, which `reclaim` returns, each of them once. -/
theorem page_tables_refine (hpool : Unused kernelRoot pool) (h : Built kernelRoot pool memory log s) :
    Tracks log s.translation ∧
    (∀ call : PageCall, call.Effect s.translation (call.perform s).2.translation (call.perform s).1) ∧
    (∀ va tr, s.translation va = some tr → ¬ (tr.writable = true ∧ tr.executable = true)) ∧
    (∀ level table, s.TableAt level table → table ∈ s.frames) ∧
    s.reclaim.pool.Nodup ∧ ∀ frame ∈ s.frames, frame ∈ s.reclaim.pool := by
  obtain ⟨⟨page, hrepresents⟩, htracks⟩ := h.represents hpool
  refine ⟨htracks, fun call => (call_effect hrepresents call).2, fun va tr htr => ?_, fun level table htable => ?_, ?_,
    fun frame hframe => mem_append_left _ hframe⟩
  · by_cases hva : va % 4096 = 0 ∧ va < 2 ^ 48
    · rw [translation_eq hrepresents hva] at htr
      obtain ⟨table, htables⟩ := hrepresents
      exact (htables.sound _ _ htr).2
    · rw [translation_of_not_page hva] at htr
      cases htr
  · obtain ⟨table', htables⟩ := hrepresents
    obtain ⟨p, -, hp⟩ := htables.exists_of_tableAt htable
    exact htables.owned p table hp
  · obtain ⟨table', htables⟩ := hrepresents
    exact htables.fresh

end Runs

/-! ## Concrete tables -/

def codePage : LoadedPage := ⟨0x10000000000, 0x9000#64, ⟨true, false, true⟩⟩
def distantPage : LoadedPage := ⟨0x18000000000, 0xa000#64, ⟨true, true, false⟩⟩

def fourFrames : List Frame := [0x1000#64, 0x2000#64, 0x3000#64, 0x4000#64]

/-- A new builder that has frames for the tables of one page. -/
def smallSpace : Space :=
  ⟨fourFrames.tail, Function.update (clearFrame (fun _ _ => 0#64) 0x1000#64) 0x1000#64 (sanitizeInheritedRoot fun _ => 0#64),
    [0x1000#64], 0x1000#64, 0⟩

/-- The page that was mapped is found. -/
theorem page_tables_refine_codePage :
    ((PageCall.mapPage codePage).perform smallSpace).2.translation 0x10000000000 = some ⟨0x9000#64, false, true⟩ := by
  have hunused : Unused (fun _ => 0#64) fourFrames := by
    refine ⟨by decide, fun f hf => ?_, fun _ _ hpresent => absurd BitVec.zero_and hpresent⟩
    simp only [fourFrames, mem_cons, not_mem_nil, or_false] at hf
    rcases hf with rfl | rfl | rfl | rfl <;> exact ⟨by decide, by decide⟩
  have hbuilt : Built (fun _ => 0#64) fourFrames (fun _ _ => 0#64) [] smallSpace := .new rfl
  have heffect := (page_tables_refine hunused hbuilt).2.1 (.mapPage codePage)
  rw [heffect.2]
  exact update_self _ _ _

/-- **An image that fails in the middle stays mapped in part**: the frames are used up at the second page, and the first one is
found. -/
theorem failed_image_changes_translation :
    ((PageCall.mapImage [codePage, distantPage]).perform smallSpace).1 = .error .exhausted ∧
      smallSpace.translation 0x10000000000 = none ∧
      ((PageCall.mapImage [codePage, distantPage]).perform smallSpace).2.translation 0x10000000000 =
        some ⟨0x9000#64, false, true⟩ := by
  decide +kernel

end LogOS.Memory
