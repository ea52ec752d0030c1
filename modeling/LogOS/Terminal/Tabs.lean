import LogOS.Terminal.Service

/-!
# Tabs and panes stay consistent

Sessions name the pane that owns them and panes name the session that they show.  Every call of `TerminalService` keeps these
references valid: the current pane and the owners of open sessions are in use, a pane in use shows a session that it owns, no
surface has two panes, and a pane without a surface is the only one.  So the loop of `next_tab` always finds a tab.

A slot gets a new generation when it is opened and when it is closed, so the handle of a tab that was closed is refused until
the generations of its slot come round.
-/

namespace LogOS.Terminal

open Graphics TerminalService List

/-! ## Fields -/

section Fields

variable (s : TerminalService) (slot i : Fin maxTerminalSessions) (pane q : Fin maxTerminalPanes)

@[grind =] lemma panes_onPane (f : Pane → Pane) :
    (s.onPane pane f).panes q = if q = pane then f (s.panes pane) else s.panes q := Function.update_apply _ _ _ _

@[grind =] lemma sessions_onPane (f : Pane → Pane) : (s.onPane pane f).sessions i = s.sessions i := rfl

@[grind =] lemma current_onPane (f : Pane → Pane) : (s.onPane pane f).current = s.current := rfl

variable (f : TerminalState → TerminalState)

@[grind =] lemma sessions_onTerminal : (s.onTerminal slot f).sessions i =
    if i = slot then { s.sessions slot with terminal := f (s.sessions slot).terminal } else s.sessions i :=
  Function.update_apply _ _ _ _

@[grind =] lemma panes_onTerminal : (s.onTerminal slot f).panes q = s.panes q := rfl

@[grind =] lemma current_onTerminal : (s.onTerminal slot f).current = s.current := rfl

@[grind =] lemma sessions_onActive : (s.onActive f).sessions i = if i = (s.panes s.current).active then
      { s.sessions i with terminal := f (s.sessions i).terminal } else s.sessions i := by
  rw [onActive, sessions_onTerminal, activeSlot]
  split
  · rename_i hi
    rw [hi]
  · rfl

@[grind =] lemma panes_onActive : (s.onActive f).panes q = s.panes q := rfl

@[grind =] lemma current_onActive : (s.onActive f).current = s.current := rfl

variable (t : TerminalState)

@[grind =] lemma sessions_openSlot : (s.openSlot slot pane t).sessions i =
    if i = slot then ⟨t, true, nextGeneration (s.sessions slot).generation, pane⟩ else s.sessions i :=
  Function.update_apply _ _ _ _

@[grind =] lemma panes_openSlot : (s.openSlot slot pane t).panes q = s.panes q := rfl

@[grind =] lemma current_openSlot : (s.openSlot slot pane t).current = s.current := rfl

@[grind =] lemma sessions_closeSlot : (s.closeSlot slot).sessions i =
    if i = slot then { s.sessions slot with isOpen := false, generation := nextGeneration (s.sessions slot).generation }
    else s.sessions i :=
  Function.update_apply _ _ _ _

@[grind =] lemma panes_closeSlot : (s.closeSlot slot).panes q = s.panes q := rfl

@[grind =] lemma current_closeSlot : (s.closeSlot slot).current = s.current := rfl

variable (bounds : GuiRect)

@[grind =] lemma sessions_resizeToSurface : (s.resizeToSurface bounds).sessions i =
    if s.owns s.current i then { s.sessions i with
      terminal := (s.sessions i).terminal.resize (terminalGridMetrics bounds).1 (terminalGridMetrics bounds).2 }
    else s.sessions i := rfl

@[grind =] lemma panes_resizeToSurface : (s.resizeToSurface bounds).panes q =
    if q = s.current then { s.panes s.current with bounds := bounds } else s.panes q := Function.update_apply _ _ _ _

@[grind =] lemma current_resizeToSurface : (s.resizeToSurface bounds).current = s.current := rfl

end Fields

@[grind =] lemma owns_iff {s : TerminalService} {pane : Fin maxTerminalPanes} {slot : Fin maxTerminalSessions} :
    s.owns pane slot = true ↔ (s.sessions slot).isOpen = true ∧ (s.sessions slot).owner = pane := by
  simp [owns]

@[grind =] lemma isBound_iff {pane : Pane} : pane.isBound = true ↔ pane.inUse = true ∧ pane.surface.isValid = true := by
  simp [Pane.isBound]

/-! ## What a call does to a slot -/

/-- The generation of a slot changes when it is opened or closed, and only then. -/
@[grind]
def SlotStep (a b : Session) : Prop :=
  (b.isOpen = a.isOpen ∧ b.generation = a.generation ∧ b.owner = a.owner) ∨
    (b.isOpen ≠ a.isOpen ∧ b.generation = nextGeneration a.generation)

/-- The sessions and panes refer to each other as before. -/
@[grind]
structure SameTabs (s s' : TerminalService) : Prop where
  isOpen : ∀ slot, (s'.sessions slot).isOpen = (s.sessions slot).isOpen
  owner : ∀ slot, (s'.sessions slot).owner = (s.sessions slot).owner
  generation : ∀ slot, (s'.sessions slot).generation = (s.sessions slot).generation
  inUse : ∀ pane, (s'.panes pane).inUse = (s.panes pane).inUse
  surface : ∀ pane, (s'.panes pane).surface = (s.panes pane).surface
  active : ∀ pane, (s'.panes pane).active = (s.panes pane).active
  current : s'.current = s.current

variable {s s' s'' : TerminalService} {pane : Fin maxTerminalPanes} {slot : Fin maxTerminalSessions}

variable (s)

lemma sameTabs_onTerminal (slot : Fin maxTerminalSessions) (f : TerminalState → TerminalState) :
    SameTabs s (s.onTerminal slot f) := by
  constructor <;> grind

lemma sameTabs_onActive (f : TerminalState → TerminalState) : SameTabs s (s.onActive f) :=
  sameTabs_onTerminal s _ f

lemma sameTabs_resizeToSurface (bounds : GuiRect) : SameTabs s (s.resizeToSurface bounds) := by
  constructor <;> grind

variable {s}

/-! ## Consistent tables -/

/-- **Consistent tabs and panes.** -/
@[grind]
structure Consistent (s : TerminalService) : Prop where
  current : (s.panes s.current).inUse = true
  owned : ∀ slot, (s.sessions slot).isOpen = true → (s.panes (s.sessions slot).owner).inUse = true
  active : ∀ pane, (s.panes pane).inUse = true → s.owns pane (s.panes pane).active = true
  surfaces : ∀ p q, (s.panes p).isBound = true → (s.panes q).isBound = true → (s.panes p).surface = (s.panes q).surface → p = q
  unbound : ∀ p q, (s.panes p).inUse = true → (s.panes p).surface.isValid = false → (s.panes q).inUse = true → q = p

lemma Consistent.congr (h : Consistent s) (hsame : SameTabs s s') : Consistent s' := by
  constructor <;> grind

lemma consistent_new : Consistent new where
  current := rfl
  owned := by decide
  active := by decide
  surfaces := by decide
  unbound := by decide

/-- **What a call keeps**: the tables stay consistent, and each slot takes at most one step. -/
structure Kept (s s' : TerminalService) : Prop where
  consistent : Consistent s'
  slots : ∀ slot, SlotStep (s.sessions slot) (s'.sessions slot)

namespace Kept

lemma of_sessions_eq (h : Consistent s') (heq : s'.sessions = s.sessions) : Kept s s' :=
  ⟨h, by grind⟩

lemma congr (h : Kept s s') (hsame : SameTabs s' s'') : Kept s s'' :=
  ⟨h.consistent.congr hsame, by have := h.slots; grind⟩

end Kept

/-! ### Searches -/

variable {surface : SurfaceHandle} {n : ℕ}

lemma paneIndex_some (h : s.paneIndex surface = some pane) :
    (s.panes pane).isBound = true ∧ (s.panes pane).surface = surface := by
  unfold paneIndex at h
  split at h
  · grind
  · cases h

lemma paneIndex_none (hvalid : surface.isValid = true) (h : s.paneIndex surface = none)
    (pane : Fin maxTerminalPanes) (huse : (s.panes pane).inUse = true) : (s.panes pane).surface ≠ surface := by
  rw [paneIndex, if_pos hvalid] at h
  grind

lemma freeSession_some (h : s.freeSession? = some slot) : (s.sessions slot).isOpen = false := by
  simpa using find?_some h

/-- A search over a table finds an entry if there is one. -/
theorem exists_find {p : Fin n → Bool} {i : Fin n} (h : p i = true) :
    ∃ j, (finRange n).find? p = some j ∧ p j = true := by
  have hsome : ((finRange n).find? p).isSome = true := find?_isSome.mpr ⟨i, mem_finRange i, h⟩
  obtain ⟨j, hj⟩ := Option.isSome_iff_exists.mp hsome
  exact ⟨j, hj, find?_some hj⟩

/-- Of at least two entries, one is another one. -/
theorem exists_other {p : Fin n → Bool} (h : ¬ ((finRange n).filter p).length ≤ 1) (i : Fin n) :
    ∃ j, j ≠ i ∧ p j = true := by
  by_contra hnone
  have hsub : ((finRange n).filter p).Subperm [i] :=
    subperm_of_subset ((nodup_finRange n).filter p) fun j hj => by
      simp only [mem_filter, mem_singleton] at hj ⊢
      by_contra hne
      exact hnone ⟨j, hne, hj.2⟩
  exact h hsub.length_le

lemma eq_of_filter {p : Fin n → Bool} (h : ((finRange n).filter p).length ≤ 1) {i j : Fin n}
    (hi : p i = true) (hj : p j = true) : i = j := by
  have hmem : ∀ k, p k = true → k ∈ (finRange n).filter p := fun k hk => mem_filter.mpr ⟨mem_finRange k, hk⟩
  match hl : (finRange n).filter p, hmem i hi, hmem j hj with
  | [x], hi, hj => exact (mem_singleton.mp hi).trans (mem_singleton.mp hj).symm
  | _ :: _ :: l, _, _ => rw [hl] at h; simp at h

/-! ## Binding and unbinding -/

/-- The pane without a surface gets one that no pane has; it is the only one in use. -/
theorem Consistent.rebound (h : Consistent s)
    (huse : (s.panes pane).inUse = true) (hnot : (s.panes pane).surface.isValid = false) :
    Consistent { s.onPane pane (fun p => { p with surface := surface }) with current := pane } := by
  constructor <;> grind

/-- A new pane with one session, while every pane in use is bound. -/
theorem Consistent.bindNew (h : Consistent s) (hvalid : surface.isValid = true)
    (hunused : (s.panes pane).inUse = false) (hfree : (s.sessions slot).isOpen = false)
    (hbound : ∀ q, (s.panes q).inUse = true → (s.panes q).isBound = true)
    (hfresh : ∀ q, (s.panes q).inUse = true → (s.panes q).surface ≠ surface) (t : TerminalState) :
    Consistent { (s.openSlot slot pane t).onPane pane (fun _ => ⟨true, surface, .empty, slot⟩) with current := pane } := by
  constructor <;> grind

lemma kept_bindSurface (h : Consistent s) (surface : SurfaceHandle) (bounds : GuiRect) :
    Kept s (s.bindSurface surface bounds).2 := by
  unfold bindSurface
  split
  · exact .of_sessions_eq h rfl
  rename_i hvalid
  simp only [Bool.not_eq_true, Bool.not_eq_false'] at hvalid
  split
  · rename_i pane hpane
    have hcurrent : Consistent { s with current := pane } := by
      have := paneIndex_some hpane
      constructor <;> grind
    dsimp only
    split
    · exact (Kept.of_sessions_eq (s := s) hcurrent rfl).congr (sameTabs_resizeToSurface _ bounds)
    · exact .of_sessions_eq hcurrent rfl
  rename_i hnone
  split
  · rename_i pane hpane
    have hfind := find?_some hpane
    simp only [Bool.and_eq_true, Bool.not_eq_true'] at hfind
    have hkept : Kept s { s.onPane pane (fun p => { p with surface := surface }) with current := pane } :=
      .of_sessions_eq (h.rebound hfind.1 hfind.2) rfl
    exact ((hkept.congr (sameTabs_onActive _ _)).congr (sameTabs_resizeToSurface _ bounds)).congr (sameTabs_onActive _ _)
  rename_i hall
  split
  · exact .of_sessions_eq h rfl
  rename_i pane hunused
  split
  · exact .of_sessions_eq h rfl
  rename_i slot hslot
  have hbound : ∀ q, (s.panes q).inUse = true → (s.panes q).isBound = true := by
    intro q hq
    have := find?_eq_none.mp hall q (mem_finRange q)
    grind
  have hnot : (s.panes pane).inUse = false := by simpa using find?_some hunused
  have hfree := freeSession_some hslot
  have hkept : Kept s { (s.openSlot slot pane s.freshTerminal).onPane pane (fun _ => ⟨true, surface, .empty, slot⟩) with
      current := pane } :=
    ⟨h.bindNew hvalid hnot hfree hbound (paneIndex_none hvalid hnone) _, by grind⟩
  exact (hkept.congr (sameTabs_resizeToSurface _ bounds)).congr (sameTabs_onActive _ _)

/-- The last pane that is bound is the only one in use. -/
theorem Consistent.only (h : Consistent s) (hbound : (s.panes pane).isBound = true) (hcount : s.boundPaneCount ≤ 1)
    (q : Fin maxTerminalPanes) (hq : (s.panes q).inUse = true) : q = pane := by
  cases hvalid : (s.panes q).surface.isValid with
  | false => exact (h.unbound q pane hq hvalid (isBound_iff.mp hbound).1).symm
  | true => exact eq_of_filter hcount (isBound_iff.mpr ⟨hq, hvalid⟩) hbound

/-- The sessions that a pane owned are closed; nothing else changes. -/
theorem closeSessionsOf_spec (pane : Fin maxTerminalPanes) (slots : List (Fin maxTerminalSessions)) (hnodup : slots.Nodup) :
    (∀ q, (s.closeSessionsOf pane slots).2.panes q = s.panes q) ∧ (s.closeSessionsOf pane slots).2.current = s.current ∧
      ∀ i, (s.closeSessionsOf pane slots).2.sessions i =
        if i ∈ slots ∧ s.owns pane i = true then (s.closeSlot i).sessions i else s.sessions i := by
  unfold closeSessionsOf
  generalize ([] : List IpcBytes) = closes
  induction slots generalizing s closes with
  | nil => exact ⟨fun _ => rfl, rfl, by simp⟩
  | cons slot slots ih =>
    obtain ⟨hslot, hnodup⟩ := nodup_cons.mp hnodup
    rw [foldl_cons, closeOwned]
    -- The slots that follow are as they were before this one was closed.
    split
    · obtain ⟨hpanes, hcurrent, hsessions⟩ := ih hnodup (closes ++ [closeMessage slot])
      exact ⟨hpanes, hcurrent, by grind⟩
    · obtain ⟨hpanes, hcurrent, hsessions⟩ := ih hnodup closes
      exact ⟨hpanes, hcurrent, by grind⟩

lemma kept_unbindSurface (h : Consistent s) (surface : SurfaceHandle) : Kept s (s.unbindSurface surface).2 := by
  unfold unbindSurface
  split
  · exact .of_sessions_eq h rfl
  rename_i pane hpane
  have hbound := (paneIndex_some hpane).1
  split
  · -- The last pane stays in use.
    rename_i hcount
    have honly := h.only hbound hcount
    refine .of_sessions_eq ?_ rfl
    constructor <;> grind
  rename_i hcount
  obtain ⟨hpanes, hcurrent, hsessions⟩ := closeSessionsOf_spec pane _ (nodup_finRange maxTerminalSessions)
  generalize s.closeSessionsOf pane (finRange maxTerminalSessions) = closed at hpanes hcurrent hsessions
  obtain ⟨closes, t⟩ := closed
  dsimp only at hpanes hcurrent hsessions ⊢
  simp only [mem_finRange, true_and] at hsessions
  -- Another pane is bound, and the search finds it or one before it.
  obtain ⟨q, hne, hq⟩ := exists_other hcount pane
  obtain ⟨found, hfound, hfoundBound⟩ := exists_find (p := fun q => ((t.onPane pane fun _ => Pane.empty).panes q).isBound)
    (i := q) (by grind)
  rw [hfound, Option.getD_some]
  have hempty : Pane.empty.inUse = false := rfl
  refine ⟨?_, by grind⟩
  constructor <;> grind

/-! ## Tabs -/

lemma kept_select (h : Consistent s) (surface : SurfaceHandle) : Kept s (s.select surface).2 := by
  unfold select
  split
  · rename_i pane hpane
    have := paneIndex_some hpane
    constructor <;> grind
  · exact .of_sessions_eq h rfl

lemma kept_openTab (h : Consistent s) : Kept s s.openTab.2 := by
  unfold openTab
  dsimp only
  split
  · exact .of_sessions_eq h rfl
  · rename_i slot hslot
    have hfree := freeSession_some hslot
    refine Kept.congr ⟨?_, ?_⟩ (sameTabs_onTerminal _ _ _)
    · constructor <;> grind
    · grind

lemma slotOf_some {handle : TabHandle} (h : s.slotOf handle = some slot) :
    s.owns s.current slot = true ∧ (s.sessions slot).generation = handle.generation ∧ slot.val = handle.slot.toNat ∧
      handle.isValid = true := by
  unfold slotOf at h
  split at h
  · dsimp only at h
    split at h
    · rename_i hall
      cases h
      exact ⟨hall.2.1, hall.2.2, rfl, hall.1⟩
    · cases h
  · cases h

/-- A pane shows another tab of its own. -/
theorem kept_show (h : Consistent s) (howns : s.owns s.current slot = true) :
    Kept s ((s.onPane s.current fun pane => { pane with active := slot }).onActive .forceRedraw) := by
  have hshown : Consistent (s.onPane s.current fun pane => { pane with active := slot }) := by
    constructor <;> grind
  exact (Kept.of_sessions_eq (s := s) hshown rfl).congr (sameTabs_onActive _ _)

lemma kept_switchTab (h : Consistent s) (handle : TabHandle) : Kept s (s.switchTab handle).2 := by
  unfold switchTab
  split
  · exact .of_sessions_eq h rfl
  · rename_i slot hslot
    split
    · exact kept_show h (slotOf_some hslot).1
    · exact .of_sessions_eq h rfl

lemma kept_closeTab (h : Consistent s) (handle : TabHandle) : Kept s (s.closeTab handle).2 := by
  unfold closeTab
  split
  · exact .of_sessions_eq h rfl
  rename_i slot hslot
  have howns := (slotOf_some hslot).1
  split
  · exact .of_sessions_eq h rfl
  rename_i hcount
  dsimp only
  split
  · -- The tab was shown: another one of the pane takes its place.
    rename_i hactive
    obtain ⟨other, hne, hother⟩ := exists_other hcount slot
    obtain ⟨next, hnext, hnextOwns⟩ := exists_find (p := (s.closeSlot slot).owns (s.closeSlot slot).current) (i := other)
      (by grind)
    rw [hnext, Option.getD_some]
    refine Kept.congr ⟨?_, ?_⟩ (sameTabs_onActive _ _)
    · constructor <;> grind
    · grind
  · rename_i hactive
    have hactive' : (s.panes s.current).active ≠ slot := hactive
    refine ⟨?_, by grind⟩
    constructor <;> grind

lemma searchTab_some {slot found : Fin maxTerminalSessions} (h : s.searchTab n slot = some found) :
    s.owns s.current found = true := by
  induction n generalizing slot with
  | zero => cases h
  | succ n ih =>
    rw [searchTab] at h
    split at h
    · rename_i howns
      cases h
      exact howns
    · exact ih h

variable {slot : Fin maxTerminalSessions}

lemma searchTab_none (h : s.searchTab n slot = none) (k : ℕ) (hk : k < n) :
    s.owns s.current (slot + Fin.ofNat maxTerminalSessions k) = false := by
  induction n generalizing slot k with
  | zero => exact absurd hk (Nat.not_lt_zero k)
  | succ n ih =>
    rw [searchTab] at h
    split at h
    · cases h
    rename_i hnot
    cases k with
    | zero =>
      simpa using hnot
    | succ k =>
      have hshift : slot + Fin.ofNat maxTerminalSessions (k + 1) = slot + 1 + Fin.ofNat maxTerminalSessions k := by
        apply Fin.ext
        simp only [Fin.val_add, Fin.ofNat, maxTerminalSessions]
        omega
      rw [hshift]
      exact ih h k (Nat.lt_of_succ_lt_succ hk)

/-- The search comes back to the tab that is shown after four rounds, so it ends there at the latest. -/
theorem Consistent.exists_nextTab (h : Consistent s) : ∃ slot, s.owns s.current slot = true ∧
      s.nextTab = some ((s.onPane s.current fun pane => { pane with active := slot }).onActive .forceRedraw) := by
  cases hsearch : s.searchTab maxTerminalSessions (s.activeSlot + 1) with
  | none =>
    have hround : s.activeSlot + 1 + Fin.ofNat maxTerminalSessions 3 = s.activeSlot := by
      generalize s.activeSlot = slot
      revert slot
      decide
    have hnot := searchTab_none hsearch 3 (by decide)
    rw [hround, activeSlot, h.active s.current h.current] at hnot
    cases hnot
  | some slot => exact ⟨slot, searchTab_some hsearch, by rw [nextTab, hsearch]; rfl⟩

lemma kept_input (h : Consistent s) (event : InputMessage) :
    ∃ message s', s.input event = some (message, s') ∧ Kept s s' := by
  unfold input
  split
  · refine ⟨_, _, rfl, (Kept.of_sessions_eq h rfl).congr ?_⟩
    exact ⟨fun _ => rfl, fun _ => rfl, fun _ => rfl, fun _ => rfl, fun _ => rfl, fun _ => rfl, rfl⟩
  split
  · obtain ⟨slot, howns, hnext⟩ := h.exists_nextTab
    rw [hnext]
    exact ⟨_, _, rfl, kept_show h howns⟩
  · split
    · exact ⟨_, _, rfl, kept_openTab h⟩
    · exact ⟨_, _, rfl, (Kept.of_sessions_eq h rfl).congr (sameTabs_onTerminal _ _ _)⟩

/-! ## Runs -/

/-- The calls that change tabs and panes. -/
inductive TabCall where
  | bindSurface (surface : SurfaceHandle) (bounds : GuiRect)
  | unbindSurface (surface : SurfaceHandle)
  | select (surface : SurfaceHandle)
  | openTab
  | closeTab (handle : TabHandle)
  | switchTab (handle : TabHandle)
  | nextTab
  | input (event : InputMessage)

/-- The state after a call, if it returns. -/
def TabCall.run (s : TerminalService) : TabCall → Option TerminalService
  | .bindSurface surface bounds => some (s.bindSurface surface bounds).2
  | .unbindSurface surface => some (s.unbindSurface surface).2
  | .select surface => some (s.select surface).2
  | .openTab => some s.openTab.2
  | .closeTab handle => some (s.closeTab handle).2
  | .switchTab handle => some (s.switchTab handle).2
  | .nextTab => s.nextTab
  | .input event => (s.input event).map Prod.snd

lemma Consistent.run (h : Consistent s) (call : TabCall) : ∃ s', call.run s = some s' ∧ Kept s s' := by
  cases call with
  | bindSurface surface bounds => exact ⟨_, rfl, kept_bindSurface h surface bounds⟩
  | unbindSurface surface => exact ⟨_, rfl, kept_unbindSurface h surface⟩
  | select surface => exact ⟨_, rfl, kept_select h surface⟩
  | openTab => exact ⟨_, rfl, kept_openTab h⟩
  | closeTab handle => exact ⟨_, rfl, kept_closeTab h handle⟩
  | switchTab handle => exact ⟨_, rfl, kept_switchTab h handle⟩
  | nextTab =>
    obtain ⟨slot, howns, hnext⟩ := h.exists_nextTab
    exact ⟨_, hnext, kept_show h howns⟩
  | input event =>
    obtain ⟨message, s', hinput, hkept⟩ := kept_input h event
    exact ⟨s', by rw [TabCall.run, hinput]; rfl, hkept⟩

/-- The states that calls reach from `new`. -/
inductive Reached : TerminalService → Prop where
  | new : Reached .new
  | call {s s' : TerminalService} (call : TabCall) : Reached s → call.run s = some s' → Reached s'

lemma Reached.consistent (h : Reached s) : Consistent s := by
  induction h with
  | new => exact consistent_new
  | call call _ hrun ih =>
    obtain ⟨s', hrun', hkept⟩ := ih.run call
    rw [hrun] at hrun'
    cases hrun'
    exact hkept.consistent

/-! ## Handles of closed tabs -/

/-- What calls did to a slot since a state: whether its tab was closed, and how often the slot was opened again. -/
inductive Since (slot : Fin maxTerminalSessions) (s : TerminalService) : Bool → ℕ → TerminalService → Prop where
  | start : Since slot s false 0 s
  | call {closed : Bool} {reuses : ℕ} {t t' : TerminalService} (call : TabCall) :
      Since slot s closed reuses t → call.run t = some t' →
      Since slot s (closed || ((t.sessions slot).isOpen && !(t'.sessions slot).isOpen))
        (if !(t.sessions slot).isOpen && (t'.sessions slot).isOpen then reuses + 1 else reuses) t'

lemma toNat_nextGeneration (g : UInt8) : (nextGeneration g).toNat = if g.toNat = 255 then 1 else g.toNat + 1 := by
  have hlt := g.toNat_lt
  have hadd : (g + 1).toNat = (g.toNat + 1) % 256 := UInt8.toNat_add g 1
  rw [nextGeneration, instMaxUInt8, maxOfLe]
  simp only [UInt8.le_iff_toNat_le, UInt8.toNat_one]
  split <;> split <;> simp only [hadd, UInt8.toNat_one] <;> omega

/-- Generations run through `1 … 255`. -/
theorem toNat_iterate_nextGeneration {g : UInt8} (hg : g ≠ 0) (k : ℕ) :
    (nextGeneration^[k] g).toNat = (g.toNat - 1 + k) % 255 + 1 := by
  have hpos : 1 ≤ g.toNat := Nat.one_le_iff_ne_zero.mpr fun h => hg (UInt8.toNat_inj.mp h)
  have hlt := g.toNat_lt
  induction k with
  | zero => rw [Function.iterate_zero, id]; omega
  | succ k ih =>
    rw [Function.iterate_succ_apply', toNat_nextGeneration]
    split <;> omega

/-- A slot that was reused `n` times had its generation changed twice as often, and once more if it is closed now. -/
theorem Since.generation {closed : Bool} {reuses : ℕ} {t : TerminalService}
    (h : Since slot s closed reuses t) (hs : Consistent s) (hopen : (s.sessions slot).isOpen = true) :
    Consistent t ∧ (t.sessions slot).generation =
        nextGeneration^[2 * reuses + (if (t.sessions slot).isOpen then 0 else 1)] (s.sessions slot).generation ∧
      (closed = true → (t.sessions slot).isOpen = true → 0 < reuses) := by
  induction h with
  | start =>
    refine ⟨hs, ?_, nofun⟩
    rw [hopen]
    rfl
  | @call closed reuses t t' call _ hrun ih =>
    obtain ⟨ht, hgen, hpos⟩ := ih
    obtain ⟨_, hrun', hkept⟩ := ht.run call
    rw [hrun] at hrun'
    cases hrun'
    refine ⟨hkept.consistent, ?_⟩
    rcases hkept.slots slot with ⟨hsame, hgenSame, -⟩ | ⟨hflip, hnext⟩
    · rw [hsame, hgenSame]
      simpa using ⟨hgen, hpos⟩
    rw [hnext, hgen, ← Function.iterate_succ_apply' nextGeneration]
    cases hbefore : (t.sessions slot).isOpen with
    | false =>
      rw [hbefore, Bool.ne_false_iff] at hflip
      rw [hflip]
      exact ⟨rfl, fun _ _ => Nat.succ_pos reuses⟩
    | true =>
      rw [hbefore, ne_eq, Bool.not_eq_true] at hflip
      rw [hflip]
      exact ⟨rfl, nofun⟩

/-- **Stale handles are refused.** -/
theorem Since.slotOf_handle {reuses : ℕ} {t : TerminalService}
    (h : Since slot s true reuses t) (hs : Consistent s) (hopen : (s.sessions slot).isOpen = true) (hreuses : reuses < 127) :
    t.slotOf (s.handle slot) = none := by
  obtain ⟨-, hgen, hpos⟩ := h.generation hs hopen
  by_contra hsome
  obtain ⟨found, hfound⟩ := Option.ne_none_iff_exists'.mp hsome
  obtain ⟨howns, hsame, hslot, hvalid⟩ := slotOf_some hfound
  have hslotEq : found = slot := by
    apply Fin.ext
    rw [hslot, handle, UInt8.toNat_ofNat_of_lt']
    exact lt_of_lt_of_le slot.isLt (by decide)
  subst hslotEq
  have hnow := (owns_iff.mp howns).1
  have hzero : (s.sessions found).generation ≠ 0 := by
    intro hzero
    simp [TabHandle.isValid, handle, hzero] at hvalid
  have hreused := hpos rfl hnow
  rw [hnow, if_pos rfl, hsame] at hgen
  have hnat := toNat_iterate_nextGeneration hzero (2 * reuses + 0)
  rw [← hgen] at hnat
  rw [show (s.handle found).generation = (s.sessions found).generation from rfl] at hnat
  omega

/-- **Tabs and panes stay consistent.** -/
theorem tabs_consistent (h : Reached s) : (s.panes s.current).inUse = true ∧
      (∀ slot, (s.sessions slot).isOpen = true → ∃! pane, (s.panes pane).inUse = true ∧ s.owns pane slot = true) ∧
      (∀ pane, (s.panes pane).inUse = true → s.owns pane (s.panes pane).active = true) ∧
      (∀ p q, (s.panes p).inUse = true → (s.panes q).inUse = true → (s.panes p).surface.isValid = true →
        (s.panes p).surface = (s.panes q).surface → p = q) ∧
      (∀ p q, (s.panes p).inUse = true → (s.panes p).surface.isValid = false → (s.panes q).inUse = true →
        (s.panes q).surface.isValid = false → p = q) ∧
      s.nextTab.isSome = true ∧
      ∀ slot reuses t, (s.sessions slot).isOpen = true → Since slot s true reuses t → reuses < 127 →
        t.switchTab (s.handle slot) = (false, t) ∧ t.closeTab (s.handle slot) = (none, t) := by
  have hc := h.consistent
  refine ⟨hc.current, fun slot hopen => ?_, hc.active, fun p q hp hq hvalid heq => ?_, fun p q hp hnot hq _ => ?_, ?_,
    fun slot reuses t hopen hsince hreuses => ?_⟩
  · refine ⟨(s.sessions slot).owner, ⟨hc.owned slot hopen, owns_iff.mpr ⟨hopen, rfl⟩⟩, fun pane hpane => ?_⟩
    exact (owns_iff.mp hpane.2).2.symm
  · exact hc.surfaces p q (isBound_iff.mpr ⟨hp, hvalid⟩) (isBound_iff.mpr ⟨hq, heq ▸ hvalid⟩) heq
  · exact (hc.unbound p q hp hnot hq).symm
  · obtain ⟨slot, -, hnext⟩ := hc.exists_nextTab
    rw [hnext]
    rfl
  · have hnone := hsince.slotOf_handle hc hopen hreuses
    rw [switchTab, closeTab, hnone]
    exact ⟨rfl, rfl⟩

/-- A tab is opened and closed; its handle is then refused. -/
theorem tabs_consistent_closed : (TerminalService.new.openTab.2.closeTab ⟨1, 1⟩).1 = some (closeMessage 1) ∧
      ((TerminalService.new.openTab.2.closeTab ⟨1, 1⟩).2.switchTab ⟨1, 1⟩).1 = false := by
  have hopened : Reached new.openTab.2 := .call .openTab .new rfl
  have hsince : Since 1 new.openTab.2 true 0 (new.openTab.2.closeTab ⟨1, 1⟩).2 :=
    .call (.closeTab ⟨1, 1⟩) .start rfl
  have hstale := (tabs_consistent hopened).2.2.2.2.2.2 1 0 _ (by decide) hsince (by decide)
  exact ⟨by decide, congrArg Prod.fst hstale.1⟩

end LogOS.Terminal
