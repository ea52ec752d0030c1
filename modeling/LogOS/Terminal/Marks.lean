import LogOS.Terminal.Emulator

/-!
# Changed cells are marked

What is sent of a cell depends on the screen, the scrollback, the view and the cursor.  Each operation of the emulator marks
every shown cell that it would send differently afterwards, and unmarks none (`Marks`).

Bytes that are fed move the cursor without marking the cells it leaves and enters; `feed` marks the two cells at its end, where
the cursor was before the first byte and where it is after the last.  What single bytes keep is therefore weaker (`Writes`):
cells that are not marked keep their place in the screen.
-/

namespace LogOS.Terminal

open Function

namespace TerminalState

variable {t t' t'' : TerminalState}

/-! ## Cells and marks -/

/-- The cursor is drawn in the cell. -/
def CursorAt (t : TerminalState) (row column : ℕ) : Prop :=
  t.viewOffset = 0 ∧ t.cursorHidden = false ∧ row = t.cursorRow ∧ column = t.cursorColumn

instance (t : TerminalState) (row column : ℕ) : Decidable (t.CursorAt row column) := by
  unfold CursorAt
  infer_instance

lemma sentCell_eq (t : TerminalState) (row column : ℕ) :
    t.sentCell row column = if t.CursorAt row column then (t.visibleCell row column).inverted else t.visibleCell row column := by
  have hcursor : t.cursorIn row = some column ↔ t.CursorAt row column := by
    unfold cursorIn
    split
    · rename_i h
      rw [Option.some.injEq]
      exact ⟨fun hc => ⟨h.1, h.2.1, h.2.2, hc.symm⟩, fun hc => hc.2.2.2.symm⟩
    · rename_i h
      exact ⟨fun hc => (nomatch hc), fun hc => absurd ⟨hc.1, hc.2.1, hc.2.2.1⟩ h⟩
  unfold sentCell
  simp [hcursor]

lemma sentCell_congr {row column : ℕ} (hvisible : t'.visibleCell row column = t.visibleCell row column)
    (hcursor : t'.CursorAt row column ↔ t.CursorAt row column) : t'.sentCell row column = t.sentCell row column := by
  rw [sentCell_eq, sentCell_eq, hvisible]
  simp [hcursor]

/-- The grid fits its store. -/
def Fits (t : TerminalState) : Prop := t.columns ≤ defaultColumns

/-- Every shown cell is marked. -/
def AllDirty (t : TerminalState) : Prop := ∀ row < t.rows, ∀ column < t.columns, t.dirty (index column row) = true

lemma Fits.shows (h : t.Fits) {row column : ℕ} (hrow : row < t.rows) (hcolumn : column < t.columns) :
    t.shows (index column row) = true := by
  have hlt : column < defaultColumns := lt_of_lt_of_le hcolumn h
  unfold TerminalState.shows index defaultColumns at *
  rw [decide_eq_true_iff]
  constructor <;> omega

lemma Fits.allDirty_markAllDirty (h : t.Fits) : AllDirty t.markAllDirty := by
  intro row hrow column hcolumn
  show (t.shows (index column row) || t.dirty (index column row)) = true
  rw [h.shows hrow hcolumn, Bool.true_or]

/-! ## Operations that mark what they change -/

/-- **Changed cells are marked.** -/
structure Marks (t t' : TerminalState) : Prop where
  columns : t'.columns = t.columns
  rows : t'.rows = t.rows
  cells : ∀ row < t.rows, ∀ column < t.columns, t'.dirty (index column row) = false →
    t.dirty (index column row) = false ∧ t'.sentCell row column = t.sentCell row column

namespace Marks

lemma refl (t : TerminalState) : Marks t t := ⟨rfl, rfl, fun _ _ _ _ h => ⟨h, rfl⟩⟩

lemma trans (h : Marks t t') (h' : Marks t' t'') : Marks t t'' := by
  refine ⟨h'.columns.trans h.columns, h'.rows.trans h.rows, fun row hrow column hcolumn hclean => ?_⟩
  obtain ⟨hclean', hsent'⟩ := h'.cells row (by rw [h.rows]; exact hrow) column (by rw [h.columns]; exact hcolumn) hclean
  obtain ⟨hclean'', hsent⟩ := h.cells row hrow column hcolumn hclean'
  exact ⟨hclean'', hsent'.trans hsent⟩

/-- Neither a mark nor anything that is sent changes. -/
theorem of_same (hcolumns : t'.columns = t.columns) (hrows : t'.rows = t.rows) (hdirty : t'.dirty = t.dirty)
    (hsent : t'.sentCell = t.sentCell) : Marks t t' := by
  refine ⟨hcolumns, hrows, fun row _ column _ hclean => ?_⟩
  rw [hdirty] at hclean
  exact ⟨hclean, by rw [hsent]⟩

lemma of_allDirty (hcolumns : t'.columns = t.columns) (hrows : t'.rows = t.rows) (h : AllDirty t') : Marks t t' := by
  refine ⟨hcolumns, hrows, fun row hrow column hcolumn hclean => ?_⟩
  rw [h row (by rw [hrows]; exact hrow) column (by rw [hcolumns]; exact hcolumn)] at hclean
  cases hclean

lemma fits (h : Marks t t') (ht : t.Fits) : t'.Fits := by
  unfold Fits
  rw [h.columns]
  exact ht

end Marks

variable (t)

section

variable (column row : ℕ)
include column row

@[simp] lemma columns_markCellDirty : (t.markCellDirty column row).columns = t.columns := by
  unfold markCellDirty
  split <;> rfl

@[simp] lemma rows_markCellDirty : (t.markCellDirty column row).rows = t.rows := by
  unfold markCellDirty
  split <;> rfl

@[simp] lemma sentCell_markCellDirty : (t.markCellDirty column row).sentCell = t.sentCell := by
  unfold markCellDirty
  split <;> rfl

@[simp] lemma cursorColumn_markCellDirty : (t.markCellDirty column row).cursorColumn = t.cursorColumn := by
  unfold markCellDirty
  split <;> rfl

@[simp] lemma cursorRow_markCellDirty : (t.markCellDirty column row).cursorRow = t.cursorRow := by
  unfold markCellDirty
  split <;> rfl

end

variable {t}

/-- A shown cell that is clean after a mark was clean before, and is another one. -/
theorem clean_of_markCellDirty {column row c r : ℕ} (hr : r < t.rows) (hc : c < t.columns)
    (h : (t.markCellDirty column row).dirty (index c r) = false) :
    t.dirty (index c r) = false ∧ ¬ (c = column ∧ r = row) := by
  have hne : ¬ (c = column ∧ r = row) := by
    rintro ⟨rfl, rfl⟩
    rw [markCellDirty, if_pos ⟨hc, hr⟩] at h
    dsimp only at h
    rw [update_self] at h
    cases h
  refine ⟨?_, hne⟩
  unfold markCellDirty at h
  split at h
  · dsimp only at h
    rw [update_apply] at h
    split at h
    · cases h
    · exact h
  · exact h

variable (t)

/-- The cursor is shown or hidden. -/
theorem marks_setHidden (hidden : Bool) :
    Marks t ({ t with cursorHidden := hidden }.markCellDirty t.cursorColumn t.cursorRow) := by
  refine ⟨by simp, by simp, fun row hrow column hcolumn hclean => ?_⟩
  have hother := clean_of_markCellDirty (t := { t with cursorHidden := hidden }) hrow hcolumn hclean
  refine ⟨hother.1, ?_⟩
  rw [sentCell_markCellDirty]
  refine sentCell_congr rfl ?_
  constructor
  · rintro ⟨-, -, hr, hc⟩
    exact absurd ⟨hc, hr⟩ hother.2
  · rintro ⟨-, -, hr, hc⟩
    exact absurd ⟨hc, hr⟩ hother.2

lemma marks_restartBlink : Marks t t.restartBlink := by
  have hflag : Marks t { t with blinkRestart := true } := .of_same rfl rfl rfl rfl
  unfold restartBlink
  split
  · exact hflag.trans (marks_setHidden { t with blinkRestart := true } false)
  · exact hflag

lemma cursor_restartBlink : t.restartBlink.cursorColumn = t.cursorColumn ∧ t.restartBlink.cursorRow = t.cursorRow := by
  unfold restartBlink
  split <;> simp

lemma marks_setReducedMotion (reduced : Bool) : Marks t (t.setReducedMotion reduced) := by
  have hflag : Marks t { t with reducedMotion := reduced } := .of_same rfl rfl rfl rfl
  exact hflag.trans (marks_restartBlink _)

variable {t}

lemma marks_setLightTheme (ht : t.Fits) (light : Bool) : Marks t (t.setLightTheme light) := by
  unfold setLightTheme
  split
  · exact .refl t
  · exact .of_allDirty rfl rfl (Fits.allDirty_markAllDirty (by exact ht))

lemma marks_blink (t : TerminalState) (now : ℕ) : Marks t (t.blink now) := by
  have hstart : Marks t (if t.blinkRestart then { t with blinkRestart := false, blinkAnchor := now } else t) := by
    split
    · exact .of_same rfl rfl rfl rfl
    · exact .refl t
  unfold blink
  dsimp only
  generalize (if t.blinkRestart then { t with blinkRestart := false, blinkAnchor := now } else t) = started at hstart ⊢
  split
  · exact hstart.trans (marks_setHidden started _)
  · exact hstart

lemma marks_forceRedraw (ht : t.Fits) : Marks t t.forceRedraw := .of_allDirty rfl rfl ht.allDirty_markAllDirty

@[grind =] lemma fits_forceRedraw : t.forceRedraw.Fits ↔ t.Fits := Iff.rfl

@[grind =] lemma fits_reset : t.reset.Fits ↔ t.Fits := Iff.rfl

lemma allDirty_forceRedraw (ht : t.Fits) : AllDirty t.forceRedraw := ht.allDirty_markAllDirty

lemma marks_showLiveView (ht : t.Fits) : Marks t t.showLiveView := by
  unfold showLiveView
  split
  · exact .of_allDirty rfl rfl (Fits.allDirty_markAllDirty (by exact ht))
  · exact .refl t

lemma marks_scrollView (ht : t.Fits) (lines : ℤ) : Marks t (t.scrollView lines) := by
  unfold scrollView
  generalize (if 0 < lines then min (t.viewOffset + lines.toNat) t.scrollbackLen else t.viewOffset - lines.natAbs) = offset
  dsimp only
  split
  · exact .of_allDirty rfl rfl (Fits.allDirty_markAllDirty (by exact ht))
  · exact .refl t

lemma marks_input (ht : t.Fits) (event : InputMessage) : Marks t (t.input event).2 := by
  unfold TerminalState.input
  split
  · have hreduced := marks_setReducedMotion t
    exact (hreduced _).trans (marks_setLightTheme ((hreduced _).fits ht) _)
  have hblink : Marks t (if event.kind ≠ .pointer then t.restartBlink else t) := by
    split
    · exact marks_restartBlink t
    · exact .refl t
  dsimp only
  split
  · exact hblink.trans (marks_scrollView (hblink.fits ht) _)
  · split
    · exact hblink.trans (marks_scrollView (hblink.fits ht) _)
    · exact hblink

lemma fits_resize (t : TerminalState) (columns rows : ℕ) : (t.resize columns rows).Fits := by
  show clamp columns 1 defaultColumns ≤ defaultColumns
  unfold clamp defaultColumns
  omega

lemma allDirty_resize (t : TerminalState) (columns rows : ℕ) : AllDirty (t.resize columns rows) :=
  Fits.allDirty_markAllDirty (by exact fits_resize t columns rows)

/-! ## Bytes -/

/-- What a byte keeps while the view is not scrolled back. -/
structure Writes (t t' : TerminalState) : Prop where
  columns : t'.columns = t.columns
  rows : t'.rows = t.rows
  live : t.viewOffset = 0 → t'.viewOffset = 0
  cells : ∀ i, t.shows i = true → t'.dirty i = false → t.dirty i = false ∧ t'.screen i = t.screen i
  hidden : t'.cursorHidden = t.cursorHidden ∨ ∀ i, t.shows i = true → t'.dirty i = true

namespace Writes

/-- The byte changes neither the grid nor whether the cursor is shown. -/
theorem of_same (hcolumns : t'.columns = t.columns) (hrows : t'.rows = t.rows) (hoffset : t'.viewOffset = t.viewOffset)
    (hdirty : t'.dirty = t.dirty) (hscreen : t'.screen = t.screen) (hhidden : t'.cursorHidden = t.cursorHidden) :
    Writes t t' := by
  refine ⟨hcolumns, hrows, hoffset.trans, fun i _ hclean => ?_, .inl hhidden⟩
  rw [hdirty] at hclean
  exact ⟨hclean, by rw [hscreen]⟩

lemma refl (t : TerminalState) : Writes t t := .of_same rfl rfl rfl rfl rfl rfl

lemma shows (h : Writes t t') (i : ℕ) : t'.shows i = t.shows i := by
  unfold TerminalState.shows
  rw [h.columns, h.rows]

lemma trans (h : Writes t t') (h' : Writes t' t'') : Writes t t'' := by
  have hcells : ∀ i, t.shows i = true → t''.dirty i = false → t'.dirty i = false ∧ t''.screen i = t'.screen i :=
    fun i hi hclean => h'.cells i (by rw [h.shows]; exact hi) hclean
  refine ⟨h'.columns.trans h.columns, h'.rows.trans h.rows, h'.live ∘ h.live, fun i hi hclean => ?_, ?_⟩
  · obtain ⟨hclean', hscreen'⟩ := hcells i hi hclean
    obtain ⟨hclean'', hscreen⟩ := h.cells i hi hclean'
    exact ⟨hclean'', hscreen'.trans hscreen⟩
  rcases h'.hidden with hsame' | hall
  · rcases h.hidden with hsame | hall
    · exact .inl (hsame'.trans hsame)
    refine .inr fun i hi => ?_
    -- A cell that is marked stays so.
    by_contra hclean
    have hclean' := (hcells i hi (Bool.not_eq_true _ ▸ hclean)).1
    rw [hall i hi] at hclean'
    cases hclean'
  · exact .inr fun i hi => hall i (by rw [h.shows]; exact hi)

lemma ite {u : TerminalState} {p : Prop} [Decidable p] (h : Writes t t') (h' : Writes t u) :
    Writes t (if p then t' else u) := by
  split
  · exact h
  · exact h'

lemma foldl {α : Type} {f : TerminalState → α → TerminalState} (hf : ∀ t a, Writes t (f t a)) (as : List α)
    (t : TerminalState) : Writes t (as.foldl f t) := by
  induction as generalizing t with
  | nil => exact .refl t
  | cons a as ih => exact (hf t a).trans (ih _)

end Writes

variable (t)

lemma writes_blankCells (row start stop : ℕ) : Writes t (t.blankCells row start stop) := by
  refine ⟨rfl, rfl, id, fun i _ hclean => ?_, .inl rfl⟩
  have hsplit : (decide (index start row ≤ i ∧ i < index stop row) || t.dirty i) = false := hclean
  rw [Bool.or_eq_false_iff, decide_eq_false_iff_not] at hsplit
  exact ⟨hsplit.2, if_neg hsplit.1⟩

lemma writes_eraseLine (mode : ℕ) : Writes t (t.eraseLine mode) := by
  unfold eraseLine
  split
  · exact writes_blankCells t _ _ _
  · exact writes_blankCells t _ _ _
  · exact writes_blankCells t _ _ _
  · exact .of_same rfl rfl rfl rfl rfl rfl

lemma writes_eraseRows (first count : ℕ) : Writes t (t.eraseRows first count) :=
  .foldl (fun t row => writes_blankCells t row 0 t.columns) _ t

lemma writes_eraseDisplay (mode : ℕ) : Writes t (t.eraseDisplay mode) := by
  unfold eraseDisplay
  split
  · exact (writes_eraseLine t 0).trans (writes_eraseRows _ _ _)
  · exact (writes_eraseRows t _ _).trans (writes_eraseLine _ 1)
  · exact writes_eraseRows t _ _
  · exact writes_eraseRows t _ _
  · exact .of_same rfl rfl rfl rfl rfl rfl

lemma writes_scrollUp : Writes t t.scrollUp := by
  refine ⟨rfl, rfl, id, fun i hi hclean => ?_, .inl rfl⟩
  have hsplit : (t.shows i || t.dirty i) = false := hclean
  rw [hi] at hsplit
  cases hsplit

lemma writes_lineFeed : Writes t t.lineFeed := by
  have hstart : Writes t { t with wrapPending := false } := .of_same rfl rfl rfl rfl rfl rfl
  unfold lineFeed
  dsimp only
  split
  · exact hstart.trans (writes_scrollUp _)
  · exact .of_same rfl rfl rfl rfl rfl rfl

lemma writes_wrap : Writes t t.wrap := by
  unfold wrap
  split
  · exact (writes_lineFeed t).trans (.of_same rfl rfl rfl rfl rfl rfl)
  · exact .of_same rfl rfl rfl rfl rfl rfl

lemma writes_put (codepoint : UInt32) : Writes t (t.put codepoint) := by
  refine (writes_wrap t).trans ?_
  have hstore : ∀ (t : TerminalState) (i : ℕ) (cell : Cell),
      Writes t { t with screen := update t.screen i cell, dirty := update t.dirty i true } := by
    refine fun t i cell => ⟨rfl, rfl, id, fun j _ hclean => ?_, .inl rfl⟩
    dsimp only at hclean ⊢
    rw [update_apply] at hclean
    split at hclean
    · cases hclean
    · exact ⟨hclean, update_of_ne ‹_› _ _⟩
  unfold put
  dsimp only
  split
  · exact (hstore t.wrap _ _).trans (.of_same rfl rfl rfl rfl rfl rfl)
  · exact (hstore t.wrap _ _).trans (.of_same rfl rfl rfl rfl rfl rfl)

lemma writes_applySgrParam (param : ℕ) : Writes t (t.applySgrParam param) := by
  unfold applySgrParam
  repeat' with_reducible apply Writes.ite
  all_goals exact .of_same rfl rfl rfl rfl rfl rfl

lemma writes_applySgr : Writes t t.applySgr := by
  unfold applySgr
  split
  · exact .of_same rfl rfl rfl rfl rfl rfl
  · exact .foldl writes_applySgrParam _ t

lemma writes_dispatchCsi (final : UInt8) : Writes t (t.dispatchCsi final) := by
  have hstart : Writes t { t with wrapPending := false } := .of_same rfl rfl rfl rfl rfl rfl
  unfold dispatchCsi
  split
  case h_14 => exact hstart.trans (writes_eraseDisplay _ _)
  case h_15 => exact hstart.trans (writes_eraseLine _ _)
  case h_16 => exact hstart.trans (writes_applySgr _)
  all_goals exact .of_same rfl rfl rfl rfl rfl rfl

lemma writes_feedCsi (byte : UInt8) : Writes t (t.feedCsi byte) := by
  unfold feedCsi
  split
  · exact .of_same rfl rfl rfl rfl rfl rfl
  split
  · exact .of_same rfl rfl rfl rfl rfl rfl
  split
  · have hparams : Writes t (if t.parser.hasCurrent || !t.parser.params.isEmpty
        then { t with parser := t.parser.pushParam } else t) := by
      split <;> exact .of_same rfl rfl rfl rfl rfl rfl
    exact (hparams.trans (writes_dispatchCsi _ byte)).trans (.of_same rfl rfl rfl rfl rfl rfl)
  · exact .of_same rfl rfl rfl rfl rfl rfl

lemma writes_feedFirstByte (byte : UInt8) : Writes t (t.feedFirstByte byte) := by
  have hstart : Writes t { t with wrapPending := false } := .of_same rfl rfl rfl rfl rfl rfl
  unfold feedFirstByte
  repeat' with_reducible apply Writes.ite
  all_goals first
    | exact .of_same rfl rfl rfl rfl rfl rfl
    | exact writes_put t _
    | exact hstart.trans (writes_lineFeed _)

lemma writes_feedGroundByte (byte : UInt8) : Writes t (t.feedGroundByte byte) := by
  unfold feedGroundByte
  split
  · split
    · dsimp only
      split
      · have hdone : Writes t { t with utf8Codepoint := 0, utf8Remaining := t.utf8Remaining - 1, utf8Min := 0 } :=
          .of_same rfl rfl rfl rfl rfl rfl
        exact hdone.trans (writes_put _ _)
      · exact .of_same rfl rfl rfl rfl rfl rfl
    · have hdropped : Writes t { t with utf8Codepoint := 0, utf8Remaining := 0, utf8Min := 0 } :=
        .of_same rfl rfl rfl rfl rfl rfl
      exact (hdropped.trans (writes_put _ _)).trans (writes_feedFirstByte _ byte)
  · exact writes_feedFirstByte t byte

lemma writes_reset : Writes t t.reset := by
  have hdirty : ∀ i, t.shows i = true → t.reset.dirty i = true := by
    intro i hi
    show (t.shows i || t.dirty i) = true
    rw [hi, Bool.true_or]
  refine ⟨rfl, rfl, fun _ => rfl, fun i hi hclean => ?_, .inr hdirty⟩
  rw [hdirty i hi] at hclean
  cases hclean

lemma writes_feedByte (byte : UInt8) : Writes t (t.feedByte byte) := by
  unfold feedByte
  split
  · exact writes_feedGroundByte t byte
  · split
    · exact .of_same rfl rfl rfl rfl rfl rfl
    · split
      · exact writes_reset t
      · exact .of_same rfl rfl rfl rfl rfl rfl
  · exact writes_feedCsi t byte

variable {t}

lemma viewOffset_showLiveView (t : TerminalState) : t.showLiveView.viewOffset = 0 := by
  unfold showLiveView
  split
  · rfl
  · rename_i h
    exact not_not.mp h

/-- A cell that bytes did not mark is sent as before, unless the cursor is or was there. -/
theorem Writes.sentCell (h : Writes t t') (ht : t.Fits) (hlive : t.viewOffset = 0) {row column : ℕ} (hrow : row < t.rows)
    (hcolumn : column < t.columns) (hclean : t'.dirty (index column row) = false)
    (hcursor : (row = t'.cursorRow ∧ column = t'.cursorColumn) ↔ (row = t.cursorRow ∧ column = t.cursorColumn)) :
    t'.sentCell row column = t.sentCell row column := by
  have hshows := ht.shows hrow hcolumn
  refine sentCell_congr ?_ ?_
  · rw [visibleCell, visibleCell, if_pos hlive, if_pos (h.live hlive)]
    exact (h.cells _ hshows hclean).2
  · rcases h.hidden with hsame | hall
    · unfold CursorAt
      rw [hcursor, hsame, hlive, h.live hlive]
    · rw [hall _ hshows] at hclean
      cases hclean

lemma marks_feed (ht : t.Fits) (bytes : List UInt8) : Marks t (t.feed bytes) := by
  have hlive := marks_showLiveView ht
  have hcursor : t.showLiveView.cursorColumn = t.cursorColumn ∧ t.showLiveView.cursorRow = t.cursorRow := by
    unfold showLiveView
    split <;> exact ⟨rfl, rfl⟩
  have hwrites : Writes t.showLiveView (bytes.foldl feedByte t.showLiveView) := .foldl writes_feedByte bytes _
  have hfits := hlive.fits ht
  have hoffset := viewOffset_showLiveView t
  refine hlive.trans ?_
  unfold feed
  generalize t.showLiveView = live at *
  generalize bytes.foldl feedByte live = after at *
  dsimp only
  split
  · -- The cursor moved: both cells are marked, and elsewhere no cursor is drawn.
    have hblink := marks_restartBlink after
    have hstill := cursor_restartBlink after
    generalize after.restartBlink = restarted at hblink hstill ⊢
    have hcolumns : restarted.columns = live.columns := hblink.columns.trans hwrites.columns
    have hrows : restarted.rows = live.rows := hblink.rows.trans hwrites.rows
    refine ⟨by simp [hcolumns], by simp [hrows], fun row hrow column hcolumn hclean => ?_⟩
    obtain ⟨hclean, hnew⟩ := clean_of_markCellDirty (by simpa [hrows]) (by simpa [hcolumns]) hclean
    obtain ⟨hclean, hold⟩ := clean_of_markCellDirty (by rw [hrows]; exact hrow) (by rw [hcolumns]; exact hcolumn) hclean
    obtain ⟨hclean, hsent⟩ := hblink.cells row (by rw [hwrites.rows]; exact hrow) column (by rw [hwrites.columns]; exact hcolumn)
      hclean
    refine ⟨(hwrites.cells _ (hfits.shows hrow hcolumn) hclean).1, ?_⟩
    rw [sentCell_markCellDirty, sentCell_markCellDirty, hsent]
    refine hwrites.sentCell hfits hoffset hrow hcolumn hclean (iff_of_false ?_ ?_)
    · rw [cursorColumn_markCellDirty, cursorRow_markCellDirty, hstill.1, hstill.2] at hnew
      exact fun h => hnew ⟨h.2, h.1⟩
    · rw [hcursor.1, hcursor.2]
      exact fun h => hold ⟨h.2, h.1⟩
  · rename_i hsame
    have hsame' : t.cursorColumn = after.cursorColumn ∧ t.cursorRow = after.cursorRow := by simpa using hsame
    refine ⟨hwrites.columns, hwrites.rows, fun row hrow column hcolumn hclean => ?_⟩
    refine ⟨(hwrites.cells _ (hfits.shows hrow hcolumn) hclean).1, hwrites.sentCell hfits hoffset hrow hcolumn hclean ?_⟩
    rw [hcursor.1, hcursor.2, hsame'.1, hsame'.2]

end TerminalState

end LogOS.Terminal
