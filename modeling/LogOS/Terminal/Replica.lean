import LogOS.Terminal.Marks
import LogOS.Terminal.Tabs

/-!
# The replicated grid

Display keeps a grid for each surface, blank when the surface is bound or resized, and overwrites it row by row with what
`next_grid_row` returns.  When there are no rows left to send, the grid of every bound pane is what the pane's active session
shows.

The invariant is that the cells that are not marked are up to date.  Emulators mark what they change; a pane that shows
another session, or one of another size, marks the whole grid.
-/

namespace LogOS.Terminal

open Graphics TerminalService TerminalState List

/-! ## Grids -/

abbrev Grid := ℕ → ℕ → Cell

def blankGrid : Grid := fun _ _ => blankCell

/-- The row of a message is overwritten. -/
def GridRow.write (message : GridRow) (grid : Grid) : Grid :=
  fun row column => if row = message.row then message.cells.getD column (grid row column) else grid row column

/-- The cells that are not marked are up to date. -/
def UpToDate (grid : Grid) (t : TerminalState) : Prop :=
  ∀ row < t.rows, ∀ column < t.columns, t.dirty (index column row) = false → grid row column = t.sentCell row column

namespace UpToDate

variable {grid : Grid} {t t' : TerminalState}

lemma of_allDirty (h : t.AllDirty) : UpToDate grid t := by
  intro row hrow column hcolumn hclean
  rw [h row hrow column hcolumn] at hclean
  cases hclean

lemma marks (h : UpToDate grid t) (hmarks : t.Marks t') : UpToDate grid t' := by
  intro row hrow column hcolumn hclean
  rw [hmarks.rows] at hrow
  rw [hmarks.columns] at hcolumn
  obtain ⟨hclean', hsent⟩ := hmarks.cells row hrow column hcolumn hclean
  rw [hsent]
  exact h row hrow column hcolumn hclean'

/-- With no row left to send, every cell is up to date. -/
theorem of_nextGridRow_none (h : UpToDate grid t) (hnone : t.nextGridRow = none) {row column : ℕ} (hrow : row < t.rows)
    (hcolumn : column < t.columns) : grid row column = t.sentCell row column := by
  refine h row hrow column hcolumn ?_
  have hfind := find?_eq_none.mp (Option.map_eq_none_iff.mp hnone) row (mem_range.mpr hrow)
  rw [rowDirty, Bool.not_eq_true, any_eq_false] at hfind
  simpa using hfind column (mem_range.mpr hcolumn)

/-- The row that is sent is up to date where it is written, and the others stay so. -/
theorem nextGridRow (h : UpToDate grid t) (ht : t.Fits) {message : GridRow} (hsome : t.nextGridRow = some (message, t')) :
    UpToDate (message.write grid) t' := by
  obtain ⟨row, -, hrow⟩ := Option.map_eq_some_iff.mp hsome
  cases hrow
  intro r hr c hc hclean
  have hc' : c < t.columns := hc
  unfold GridRow.write
  by_cases hrow : r = row
  · rw [hrow]
    simp [hc']
    rfl
  rw [if_neg hrow]
  refine h r hr c hc ?_
  have houtside : ¬ (index 0 row ≤ index c r ∧ index c r < index t.columns row) := by
    have hfits : t.columns ≤ defaultColumns := ht
    unfold index defaultColumns at *
    omega
  simpa [houtside] using hclean

end UpToDate

/-! ## The system -/

abbrev Replica := SurfaceHandle → Grid

/-- The calls of `TerminalService` other than `next_grid_row`. -/
inductive Call where
  | tab (call : TabCall)
  | sessionOutput (session : Fin maxTerminalSessions) (bytes : List UInt8)
  | blink (now : ℕ)
  | resizeToSurface (bounds : GuiRect)

namespace Call

/-- The state after a call, if it returns. -/
def run (s : TerminalService) : Call → Option TerminalService
  | .tab call => call.run s
  | .sessionOutput session bytes => some (s.sessionOutput session bytes)
  | .blink now => some (s.blink now)
  | .resizeToSurface bounds => some (s.resizeToSurface bounds)

/-- The grid of a surface is blank after the call: the surface is bound, or resized.  A surface that is bound already only
takes its new bounds. -/
def blanks (s : TerminalService) (surface : SurfaceHandle) : Call → Bool
  | .tab (.bindSurface bound bounds) =>
    surface == bound && match s.paneIndex bound with
      | some pane => (s.panes pane).bounds != bounds
      | none => true
  | .resizeToSurface _ => surface == (s.panes s.current).surface
  | _ => false

end Call

/-- The grids after a call. -/
def Replica.after (replica : Replica) (s : TerminalService) (call : Call) : Replica :=
  fun surface => if call.blanks s surface then blankGrid else replica surface

/-- The grids after a row. -/
def Replica.write (replica : Replica) (message : SurfaceRow) : Replica :=
  Function.update replica message.surface (message.row.write (replica message.surface))

/-- Calls in any order, with rows sent in between. -/
inductive Replicated : TerminalService → Replica → Prop where
  | new : Replicated .new fun _ => blankGrid
  | call {s s' : TerminalService} {replica : Replica} (call : Call) :
      Replicated s replica → call.run s = some s' → Replicated s' (replica.after s call)
  | row {s s' : TerminalService} {replica : Replica} (message : SurfaceRow) :
      Replicated s replica → s.nextGridRow = some (message, s') → Replicated s' (replica.write message)

/-! ## The invariant -/

/-- The session that a pane shows. -/
@[grind]
def TerminalService.shown (s : TerminalService) (pane : Fin maxTerminalPanes) : TerminalState :=
  (s.sessions (s.panes pane).active).terminal

/-- **What is not marked is up to date**, for every pane that is bound. -/
structure Tracked (s : TerminalService) (replica : Replica) : Prop where
  consistent : Consistent s
  fits : ∀ slot, (s.sessions slot).terminal.Fits
  upToDate : ∀ pane, (s.panes pane).isBound = true → UpToDate (replica (s.panes pane).surface) (s.shown pane)

/-- A pane shows the session that it showed, which marked what changed. -/
@[grind]
structure Follows (s : TerminalService) (replica : Replica) (s' : TerminalService) (replica' : Replica)
    (pane : Fin maxTerminalPanes) : Prop where
  bound : (s.panes pane).isBound = true
  surface : (s'.panes pane).surface = (s.panes pane).surface
  grid : replica' (s.panes pane).surface = replica (s.panes pane).surface
  marks : (s.shown pane).Marks (s'.shown pane)

attribute [grind .] TerminalState.Marks.refl TerminalState.marks_forceRedraw TerminalState.allDirty_forceRedraw
  TerminalState.allDirty_resize TerminalState.fits_resize
attribute [grind →] TerminalState.Marks.fits

variable {s s' : TerminalService} {replica replica' : Replica} {pane : Fin maxTerminalPanes} {slot : Fin maxTerminalSessions}

lemma Tracked.step (h : Tracked s replica) (hc : Consistent s') (hfits : ∀ slot, (s'.sessions slot).terminal.Fits)
    (hpanes : ∀ pane, (s'.panes pane).isBound = true → (s'.shown pane).AllDirty ∨ Follows s replica s' replica' pane) :
    Tracked s' replica' := by
  refine ⟨hc, hfits, fun pane hbound => ?_⟩
  rcases hpanes pane hbound with hall | hfollows
  · exact .of_allDirty hall
  · rw [hfollows.surface, hfollows.grid]
    exact (h.upToDate pane hfollows.bound).marks hfollows.marks

/-! ## Calls -/

section Calls

variable (h : Tracked s replica)
include h

/-- Every session marks what changes, and panes show what they did. -/
theorem Tracked.marks (hc : Consistent s') (hpanes : ∀ pane, s'.panes pane = s.panes pane)
    (hmarks : ∀ slot, (s.sessions slot).terminal.Marks (s'.sessions slot).terminal) : Tracked s' replica := by
  have hfits := h.fits
  refine h.step hc (by grind) fun pane hbound => .inr ⟨?_, ?_, rfl, ?_⟩ <;> grind

lemma Tracked.replica_congr (hreplica : ∀ pane, (s.panes pane).isBound = true →
    replica' (s.panes pane).surface = replica (s.panes pane).surface) : Tracked s replica' :=
  h.step h.consistent h.fits fun pane hbound => .inr ⟨hbound, rfl, hreplica pane hbound, .refl _⟩

lemma Tracked.onTerminal (slot : Fin maxTerminalSessions) {f : TerminalState → TerminalState}
    (hf : (s.sessions slot).terminal.Marks (f (s.sessions slot).terminal)) : Tracked (s.onTerminal slot f) replica :=
  h.marks (h.consistent.congr (sameTabs_onTerminal s slot f)) (fun _ => rfl) (by grind)

lemma Tracked.sessionOutput (session : Fin maxTerminalSessions) (bytes : List UInt8) :
    Tracked (s.sessionOutput session bytes) replica := by
  unfold TerminalService.sessionOutput
  split
  · exact h.onTerminal session (marks_feed (h.fits session) bytes)
  · exact h

lemma Tracked.blink (now : ℕ) : Tracked (s.blink now) replica := by
  suffices hfold : ∀ panes : List (Fin maxTerminalPanes), ∀ t, Tracked t replica →
      Tracked (panes.foldl (fun s' pane =>
        if (s.panes pane).isBound then s'.onTerminal (s.panes pane).active fun t => t.blink now else s') t) replica from
    hfold _ s h
  intro panes
  induction panes with
  | nil => exact fun _ ht => ht
  | cons pane panes ih =>
    intro t ht
    rw [foldl_cons]
    refine ih _ ?_
    split
    · exact ht.onTerminal _ (marks_blink _ now)
    · exact ht

variable (surface : SurfaceHandle)

lemma Tracked.select : Tracked (s.select surface).2 replica := by
  refine h.marks (kept_select h.consistent surface).consistent ?_ ?_ <;> unfold TerminalService.select <;> grind

/-- The current pane shows another session, which marks the whole grid. -/
theorem Tracked.show (hpanes : ∀ pane, s'.panes pane = s.panes pane)
    (hterminals : ∀ i, (s'.sessions i).terminal = (s.sessions i).terminal)
    (hc : Consistent ((s'.onPane s'.current fun pane => { pane with active := slot }).onActive .forceRedraw)) :
    Tracked ((s'.onPane s'.current fun pane => { pane with active := slot }).onActive .forceRedraw) replica := by
  have hfits := h.fits
  refine h.step hc (by grind) fun pane hbound => ?_
  by_cases hpane : pane = s'.current
  · grind
  · right
    constructor <;> grind

lemma Tracked.switchTab (handle : TabHandle) : Tracked (s.switchTab handle).2 replica := by
  have hc := (kept_switchTab h.consistent handle).consistent
  revert hc
  unfold TerminalService.switchTab
  split
  · exact fun _ => h
  · split
    · exact h.show (fun _ => rfl) fun _ => rfl
    · exact fun _ => h

lemma Tracked.nextTab (hnext : s.nextTab = some s') : Tracked s' replica := by
  obtain ⟨slot, howns, hsome⟩ := h.consistent.exists_nextTab
  rw [hsome] at hnext
  cases hnext
  exact h.show (fun _ => rfl) (fun _ => rfl) (kept_show h.consistent howns).consistent

lemma Tracked.closeTab (handle : TabHandle) : Tracked (s.closeTab handle).2 replica := by
  have hc := (kept_closeTab h.consistent handle).consistent
  have hclosed : ∀ slot i, ((s.closeSlot slot).sessions i).terminal = (s.sessions i).terminal := by grind
  revert hc
  unfold TerminalService.closeTab
  split
  · exact fun _ => h
  split
  · exact fun _ => h
  · dsimp only
    split
    · exact h.show (fun _ => rfl) (hclosed _)
    · exact fun hc => h.marks hc (fun _ => rfl) (by grind)

lemma Tracked.openTab : Tracked s.openTab.2 replica := by
  have hc := (kept_openTab h.consistent).consistent
  have hcs := h.consistent
  have hfits := h.fits
  revert hc
  unfold TerminalService.openTab
  dsimp only
  split
  · exact fun _ => h
  rename_i slot hslot
  have hfree := freeSession_some hslot
  intro hc
  -- No pane shows the slot that was free.
  refine h.step hc (by grind) fun pane hbound => ?_
  by_cases hpane : pane = s.current
  · left
    grind
  · right
    constructor <;> grind

lemma Tracked.input (event : InputMessage) {message : Option IpcBytes} (hinput : s.input event = some (message, s')) :
    Tracked s' replica := by
  obtain ⟨_, _, hsome, hkept⟩ := kept_input h.consistent event
  rw [hinput] at hsome
  cases hsome
  have hc := hkept.consistent
  unfold TerminalService.input at hinput
  split at hinput
  · cases hinput
    refine h.marks hc (fun _ => rfl) fun slot => ?_
    have hreduced := marks_setReducedMotion (s.sessions slot).terminal
    exact (hreduced _).trans (marks_setLightTheme ((hreduced _).fits (h.fits slot)) _)
  · split at hinput
    · obtain ⟨_, hnext, heq⟩ := Option.map_eq_some_iff.mp hinput
      cases heq
      exact h.nextTab hnext
    · split at hinput
      · cases hinput
        exact h.openTab
      · cases hinput
        exact h.onTerminal _ (marks_input (h.fits _) event)

/-! ### Surfaces -/

/-- The current pane takes a new size, and the grid of its surface may be anything. -/
theorem Tracked.resizeToSurface (bounds : GuiRect)
    (hreplica : ∀ surface, surface ≠ (s.panes s.current).surface → replica' surface = replica surface) :
    Tracked (s.resizeToSurface bounds) replica' := by
  have hcs := h.consistent
  have hfits := h.fits
  refine h.step (hcs.congr (sameTabs_resizeToSurface s bounds)) (by grind) fun pane hbound => ?_
  by_cases hpane : pane = s.current
  · grind
  · right
    constructor <;> grind

/-- The pane without a surface is the only one in use, and its session is redrawn. -/
theorem Tracked.rebind {surface : SurfaceHandle} {bounds : GuiRect} (huse : (s.panes pane).inUse = true)
    (hnot : (s.panes pane).surface.isValid = false)
    (hu : s' = { s.onPane pane (fun p => { p with surface := surface }) with current := pane })
    (hc : Consistent (((s'.onActive .reset).resizeToSurface bounds).onActive .forceRedraw)) :
    Tracked (((s'.onActive .reset).resizeToSurface bounds).onActive .forceRedraw) replica' := by
  have hfits := h.fits
  have honly := fun q hq => h.consistent.unbound pane q huse hnot hq
  have hsessions : ∀ i, s'.sessions i = s.sessions i := by subst hu; exact fun _ => rfl
  have hpanes : ∀ q, q ≠ pane → s'.panes q = s.panes q := by subst hu; grind
  refine h.step hc (by grind) fun q hbound => .inl ?_
  grind

/-- A new pane shows a session that was free; the other panes do not notice. -/
theorem Tracked.bindNew {surface : SurfaceHandle} {bounds : GuiRect} (hfree : (s.sessions slot).isOpen = false)
    (hfresh : ∀ q, (s.panes q).inUse = true → (s.panes q).surface ≠ surface)
    (hreplica : ∀ x, x ≠ surface → replica' x = replica x)
    (hu : s' = { (s.openSlot slot pane s.freshTerminal).onPane pane (fun _ => ⟨true, surface, .empty, slot⟩) with
      current := pane })
    (hc : Consistent ((s'.resizeToSurface bounds).onActive .forceRedraw)) :
    Tracked ((s'.resizeToSurface bounds).onActive .forceRedraw) replica' := by
  have hcs := h.consistent
  have hfits := h.fits
  have hnew : s.freshTerminal.Fits := by
    have hreduced := marks_setReducedMotion new (hasFlag s.appearance appearanceReducedMotion)
    have hnew : new.Fits := le_refl defaultColumns
    exact (marks_setLightTheme (hreduced.fits hnew) _).fits (hreduced.fits hnew)
  have hsessions : ∀ i, i ≠ slot → s'.sessions i = s.sessions i := by subst hu; grind
  have hslot : (s'.sessions slot).terminal = s.freshTerminal := by subst hu; grind
  have hcurrent : s'.current = pane := by subst hu; rfl
  have hpanes : ∀ q, q ≠ pane → s'.panes q = s.panes q := by subst hu; grind
  refine h.step hc (by clear hc hcs; grind) fun q hbound => ?_
  clear hc
  by_cases hq : q = pane
  · left
    grind
  · right
    have howns := owns_iff.mp (hcs.active q (by grind))
    constructor <;> grind

lemma Tracked.bindSurface (bounds : GuiRect) :
    Tracked (s.bindSurface surface bounds).2 (replica.after s (.tab (.bindSurface surface bounds))) := by
  have hc := (kept_bindSurface h.consistent surface bounds).consistent
  -- Only the grid of this surface may be blanked.
  have hother : ∀ x, x ≠ surface → replica.after s (.tab (.bindSurface surface bounds)) x = replica x := by
    intro x hx
    simp [Replica.after, Call.blanks, hx]
  revert hc
  unfold TerminalService.bindSurface
  split
  · refine fun _ => h.replica_congr fun pane hbound => hother _ ?_
    grind
  rename_i hvalid
  simp only [Bool.not_eq_true, Bool.not_eq_false'] at hvalid
  split
  · rename_i pane hpane
    obtain ⟨hbound, hsurface⟩ := paneIndex_some hpane
    have hmoved : Tracked { s with current := pane } replica := by
      refine h.marks ?_ (fun _ => rfl) fun _ => .refl _
      have := h.consistent
      constructor <;> grind
    dsimp only
    split
    · exact fun _ => hmoved.resizeToSurface bounds fun x hx => hother x (by grind)
    · rename_i hbounds
      refine fun _ => hmoved.replica_congr fun q _ => ?_
      have hequal : (s.panes pane).bounds = bounds := not_not.mp hbounds
      simp [Replica.after, Call.blanks, hpane, hequal]
  rename_i hnone
  have hfresh := paneIndex_none hvalid hnone
  have hkeep : Tracked s (replica.after s (.tab (.bindSurface surface bounds))) :=
    h.replica_congr fun pane hbound => hother _ (hfresh pane (isBound_iff.mp hbound).1)
  split
  · rename_i pane hpane
    have hfind := find?_some hpane
    simp only [Bool.and_eq_true, Bool.not_eq_true'] at hfind
    exact fun hc => h.rebind hfind.1 hfind.2 rfl hc
  split
  · exact fun _ => hkeep
  split
  · exact fun _ => hkeep
  · rename_i slot hslot
    exact fun hc => h.bindNew (freeSession_some hslot) hfresh hother rfl hc

lemma Tracked.unbindSurface : Tracked (s.unbindSurface surface).2 replica := by
  have hc := (kept_unbindSurface h.consistent surface).consistent
  have hfits := h.fits
  have hempty : SurfaceHandle.empty.isValid = false ∧ Pane.empty.inUse = false := by decide
  revert hc
  unfold TerminalService.unbindSurface
  split
  · exact fun _ => h
  rename_i pane hpane
  split
  · refine fun hc => h.step hc (by grind) fun q hbound => .inr ?_
    constructor <;> grind
  obtain ⟨hpanes, hcurrent, hsessions⟩ := closeSessionsOf_spec pane _ (nodup_finRange maxTerminalSessions)
  generalize s.closeSessionsOf pane (finRange maxTerminalSessions) = closed at hpanes hcurrent hsessions
  obtain ⟨closes, t⟩ := closed
  dsimp only at hpanes hcurrent hsessions ⊢
  refine fun hc => h.step hc (by grind) fun q hbound => .inr ?_
  constructor <;> grind

end Calls

/-! ## Rows -/

lemma nextGridRow_some {message : SurfaceRow} (h : s.nextGridRow = some (message, s')) :
    ∃ pane row terminal, (s.panes pane).isBound = true ∧ (s.shown pane).nextGridRow = some (row, terminal) ∧
      message = ⟨(s.panes pane).surface, row⟩ ∧
      s' = { s.onTerminal (s.panes pane).active (fun _ => terminal) with renderCursor := pane + 1 } := by
  obtain ⟨step, -, hrow⟩ := exists_of_findSome?_eq_some h
  unfold paneRow at hrow
  split at hrow
  · rename_i hbound
    split at hrow
    · cases hrow
    · rename_i row terminal hsome
      cases hrow
      exact ⟨_, row, terminal, hbound, hsome, rfl, rfl⟩
  · cases hrow

lemma nextGridRow_none (h : s.nextGridRow = none) {pane : Fin maxTerminalPanes} (hbound : (s.panes pane).isBound = true) :
    (s.shown pane).nextGridRow = none := by
  have hstep : ∀ cursor pane : Fin maxTerminalPanes, cursor + (pane - cursor) = pane := by decide
  have hnone := findSome?_eq_none_iff.mp h (pane - s.renderCursor) (mem_finRange _)
  rw [hstep, paneRow, if_pos hbound] at hnone
  split at hnone
  · assumption
  · cases hnone

lemma Tracked.row (h : Tracked s replica) {message : SurfaceRow} (hsome : s.nextGridRow = some (message, s')) :
    Tracked s' (replica.write message) := by
  obtain ⟨pane, row, terminal, hbound, hrow, rfl, rfl⟩ := nextGridRow_some hsome
  have hcs := h.consistent
  have hsent := (h.upToDate pane hbound).nextGridRow (h.fits _) hrow
  have hterminal : terminal.Fits := by
    obtain ⟨_, -, heq⟩ := Option.map_eq_some_iff.mp hrow
    cases heq
    exact h.fits _
  refine ⟨?_, fun i => ?_, fun q hq => ?_⟩
  · exact (hcs.congr (sameTabs_onTerminal s (s.panes pane).active fun _ => terminal)).congr (by constructor <;> grind)
  · have := h.fits i
    grind
  have hqBound : (s.panes q).isBound = true := hq
  by_cases hqp : q = pane
  · subst hqp
    simp only [shown, Replica.write, sessions_onTerminal, panes_onTerminal, Function.update_self, if_pos]
    exact hsent
  · -- Another pane has another surface and shows another session.
    have hold := h.upToDate q hqBound
    have hactive : (s.panes q).active ≠ (s.panes pane).active := by grind
    have hsurface : (s.panes q).surface ≠ (s.panes pane).surface := by grind
    simpa [shown, Replica.write, sessions_onTerminal, panes_onTerminal, hactive, hsurface] using hold

/-! ## Runs -/

lemma Tracked.call (h : Tracked s replica) (call : Call) (hrun : call.run s = some s') :
    Tracked s' (replica.after s call) := by
  cases call with
  | tab call =>
    cases call with
    | bindSurface surface bounds =>
      cases hrun
      exact h.bindSurface surface bounds
    | unbindSurface surface =>
      cases hrun
      exact h.unbindSurface surface
    | select surface =>
      cases hrun
      exact h.select surface
    | openTab =>
      cases hrun
      exact h.openTab
    | closeTab handle =>
      cases hrun
      exact h.closeTab handle
    | switchTab handle =>
      cases hrun
      exact h.switchTab handle
    | nextTab => exact h.nextTab hrun
    | input event =>
      obtain ⟨⟨message, _⟩, hinput, rfl⟩ := Option.map_eq_some_iff.mp hrun
      exact h.input event hinput
  | sessionOutput session bytes =>
    cases hrun
    exact h.sessionOutput session bytes
  | blink now =>
    cases hrun
    exact h.blink now
  | resizeToSurface bounds =>
    cases hrun
    refine h.resizeToSurface bounds fun surface hne => ?_
    simp [Replica.after, Call.blanks, hne]

lemma Replicated.tracked (h : Replicated s replica) : Tracked s replica := by
  induction h with
  | new =>
    have hunbound : ∀ pane, (TerminalService.new.panes pane).isBound = false := by decide
    refine ⟨consistent_new, fun slot => ?_, fun pane hbound => ?_⟩
    · rw [TerminalService.new]
      dsimp only
      rw [Function.update_apply]
      split <;> exact le_refl defaultColumns
    · rw [hunbound] at hbound
      cases hbound
  | call call _ hrun ih => exact ih.call call hrun
  | row message _ hrow ih => exact ih.row hrow

/-- **The grid is replicated exactly.**  When there is no row to send, the grid of every bound pane is what its session shows,
with the colours of the cursor's cell exchanged while the view is not scrolled back and the cursor is not hidden. -/
theorem replica_exact (h : Replicated s replica) (hnone : s.nextGridRow = none) (pane : Fin maxTerminalPanes)
    (hbound : (s.panes pane).isBound = true) (row column : ℕ) (hrow : row < (s.shown pane).rows)
    (hcolumn : column < (s.shown pane).columns) :
    replica (s.panes pane).surface row column =
      if (s.shown pane).viewOffset = 0 ∧ (s.shown pane).cursorHidden = false ∧ row = (s.shown pane).cursorRow ∧
          column = (s.shown pane).cursorColumn then
        ((s.shown pane).visibleCell row column).inverted else (s.shown pane).visibleCell row column := by
  have hsent := (h.tracked.upToDate pane hbound).of_nextGridRow_none (nextGridRow_none hnone hbound) hrow hcolumn
  rw [hsent, sentCell_eq]
  rfl

/-- One character on a surface of the smallest size. -/
def typedService : TerminalService := (TerminalService.new.bindSurface ⟨0, 1, 7⟩ .empty).2.sessionOutput 0 [0x41]

/-- The same after its row was sent. -/
def sentService : TerminalService := (typedService.nextGridRow.map Prod.snd).getD typedService

lemma replicated_sentService : ∃ replica, Replicated sentService replica := by
  have htyped : Replicated typedService _ :=
    .call (.sessionOutput 0 [0x41]) (.call (.tab (.bindSurface ⟨0, 1, 7⟩ .empty)) .new rfl) rfl
  cases hrow : typedService.nextGridRow with
  | none => exact absurd hrow (Option.isSome_iff_ne_none.mp (by decide))
  | some sent =>
    have hsent : sentService = sent.2 := by
      rw [sentService, hrow]
      rfl
    rw [hsent]
    exact ⟨_, .row sent.1 htyped hrow⟩

theorem replica_exact_character : ∃ replica, Replicated sentService replica ∧ sentService.nextGridRow = none ∧
    replica ⟨0, 1, 7⟩ 0 0 = { blankCell with codepoint := 0x41 }.inverted := by
  obtain ⟨replica, hreplicated⟩ := replicated_sentService
  have hnone : sentService.nextGridRow = none := Option.isNone_iff_eq_none.mp (by decide +kernel)
  have hcell := replica_exact hreplicated hnone 0 (by decide +kernel) 0 0 (by decide +kernel) (by decide +kernel)
  exact ⟨replica, hreplicated, hnone, hcell.trans (by decide +kernel)⟩

end LogOS.Terminal
