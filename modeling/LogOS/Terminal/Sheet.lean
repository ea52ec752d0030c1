import LogOS.Terminal.Marks

/-!
# The screen is the tail of a sheet

A sheet of paper has the columns of the terminal and as many lines as are typed on it.  While only printable characters,
carriage returns and line feeds are fed to a terminal that was reset, its screen shows the last lines of the sheet, and the
scrollback keeps those above them (`Shows`).
-/

namespace LogOS.Terminal

open Function

/-- Paper, with the place of the next character. -/
structure Sheet where
  cell : ℕ × ℕ → Cell
  row : ℕ
  column : ℕ
  wrapPending : Bool

namespace Sheet

def blank : Sheet := ⟨fun _ => blankCell, 0, 0, false⟩

variable (columns : ℕ) (s : Sheet)

/-- The next line, in the same column. -/
def lineFeed : Sheet := { s with row := s.row + 1, wrapPending := false }

def wrap : Sheet := if s.wrapPending then { s.lineFeed with column := 0 } else s

/-- Writes a character.  Behind the last column, the line only wraps for the next one. -/
def put (byte : UInt8) : Sheet :=
  let s := s.wrap
  let s := { s with cell := update s.cell (s.row, s.column) { blankCell with codepoint := byte.toUInt32 } }
  if columns ≤ s.column + 1 then { s with wrapPending := true } else { s with column := s.column + 1 }

def type (byte : UInt8) : Sheet :=
  if byte = 0x0a then s.lineFeed
  else if byte = 0x0d then { s with column := 0, wrapPending := false }
  else s.put columns byte

/-- The number of lines above the last `rows`. -/
def top (rows : ℕ) : ℕ := s.row + 1 - rows

end Sheet

/-- The byte is printable, or ends a line. -/
def Typed (byte : UInt8) : Prop := byte = 0x0a ∨ byte = 0x0d ∨ 0x20 ≤ byte ∧ byte ≤ 0x7e

namespace TerminalState

variable {columns rows : ℕ} {t : TerminalState} {s : Sheet}

lemma screen_scrollUp (ht : t.Fits) {row column : ℕ} (hrow : row < t.rows) (hcolumn : column < t.columns) :
    t.scrollUp.screen (index column row) = if row + 1 < t.rows then t.screen (index column (row + 1)) else blankCell := by
  have hdiv : index column row / defaultColumns = row := by
    unfold Fits index defaultColumns at *
    omega
  have hnext : index column row + defaultColumns = index column (row + 1) := by
    unfold index
    ring
  refine (if_pos (ht.shows hrow hcolumn)).trans ?_
  rw [hdiv, hnext]
  rfl

/-- The terminal shows the end of the sheet. -/
structure Shows (columns rows : ℕ) (t : TerminalState) (s : Sheet) : Prop where
  size : t.columns = columns ∧ t.rows = rows
  fits : columns ≤ defaultColumns ∧ 0 < rows
  ground : t.parser.state = .ground ∧ t.utf8Remaining = 0
  style : t.foreground = defaultForeground ∧ t.background = defaultBackground ∧ t.attributes = 0
  wrapPending : t.wrapPending = s.wrapPending
  column : t.cursorColumn = s.column ∧ s.column < columns
  row : s.row = s.top rows + t.cursorRow
  below : ∀ line column, s.row < line → s.cell (line, column) = blankCell
  screen : ∀ row < rows, ∀ column < columns, t.screen (index column row) = s.cell (s.top rows + row, column)
  len : t.scrollbackLen = min (s.top rows) scrollbackLines
  start : t.scrollbackStart = (s.top rows - scrollbackLines) % scrollbackLines
  lines : ∀ line < s.top rows, s.top rows ≤ line + scrollbackLines → ∀ column < columns,
    t.scrollback (index column (line % scrollbackLines)) = s.cell (line, column)

namespace Shows

/-! ## Operations -/

section

variable (h : Shows columns rows t s)
include h

lemma moveTo {column : ℕ} (hcolumn : column < columns) (pending : Bool) :
    Shows columns rows { t with cursorColumn := column, wrapPending := pending } { s with column, wrapPending := pending } :=
  { h with wrapPending := rfl, column := ⟨rfl, hcolumn⟩ }

/-- A line is stored in the slot of its number, whether the scrollback is full or not. -/
theorem stored {slot column : ℕ} (hcolumn : column < defaultColumns) :
    (t.storeScrollbackLine 0).scrollback (index column slot) =
      if slot = s.top rows % scrollbackLines then t.screen (index column 0) else t.scrollback (index column slot) := by
  have hslot : (if !decide (t.scrollbackLen < scrollbackLines) then t.scrollbackStart
      else (t.scrollbackStart + t.scrollbackLen) % scrollbackLines) = s.top rows % scrollbackLines := by
    rw [h.len, h.start]
    unfold scrollbackLines
    grind
  unfold storeScrollbackLine
  dsimp only
  rw [hslot]
  unfold index defaultColumns at *
  split
  · rw [if_pos (by omega)]
    congr 1
    omega
  · rw [if_neg (by omega)]

/-- On the last row, the first line of the screen goes to the scrollback. -/
theorem scrollUp (hlast : rows ≤ t.cursorRow + 1) : Shows columns rows t.scrollUp { s with row := s.row + 1 } := by
  obtain ⟨hcolumns, hsize⟩ := h.size
  obtain ⟨hfits, hrows⟩ := h.fits
  have hrow := h.row
  have hend : s.row + 1 = s.top rows + rows := by
    unfold Sheet.top at *
    omega
  have htop : { s with row := s.row + 1 }.top rows = s.top rows + 1 := by
    show s.row + 1 + 1 - rows = s.top rows + 1
    omega
  refine { h with
    row := ?_
    below := fun line column hline => h.below line column (Nat.lt_of_succ_lt hline)
    screen := fun row hrow column hcolumn => ?_
    len := ?_
    start := ?_
    lines := fun line hline hstored column hcolumn => ?_ }
  · rw [htop, Nat.add_right_comm]
    exact congrArg (· + 1) hrow
  · rw [screen_scrollUp (by rw [Fits, hcolumns]; exact hfits) (by omega) (by omega), hsize, htop]
    split
    · rw [h.screen (row + 1) ‹_› column hcolumn, Nat.add_assoc, Nat.add_comm 1]
    · exact (h.below _ _ (by omega)).symm
  · rw [htop]
    show min (t.scrollbackLen + 1) scrollbackLines = _
    rw [h.len]
    omega
  · rw [htop]
    show (t.storeScrollbackLine 0).scrollbackStart = _
    unfold storeScrollbackLine
    dsimp only
    rw [h.len, h.start]
    unfold scrollbackLines
    grind
  · rw [htop] at hline hstored
    refine (h.stored (hcolumn.trans_le hfits)).trans ?_
    rcases Nat.lt_succ_iff_lt_or_eq.mp hline with hline | rfl
    · rw [if_neg (by unfold scrollbackLines at *; omega)]
      exact h.lines line hline (by omega) column hcolumn
    · rw [if_pos rfl, h.screen 0 hrows column hcolumn, Nat.add_zero]

lemma lineFeed : Shows columns rows t.lineFeed s.lineFeed := by
  have h' : Shows columns rows { t with wrapPending := false } { s with wrapPending := false } :=
    { h with wrapPending := rfl }
  unfold TerminalState.lineFeed
  dsimp only
  split
  · exact h'.scrollUp (h.size.2 ▸ ‹_›)
  -- No line has left the screen yet.
  have hrow := h.row
  have hsize := h.size.2
  have htop : s.lineFeed.top rows = s.top rows := by
    unfold Sheet.top Sheet.lineFeed at *
    dsimp only
    omega
  refine { h' with
    row := ?_
    below := fun line column hline => h.below line column (Nat.lt_of_succ_lt hline)
    screen := htop ▸ h.screen
    len := htop ▸ h.len
    start := htop ▸ h.start
    lines := htop ▸ h.lines }
  rw [htop]
  exact congrArg (· + 1) hrow

lemma wrap : Shows columns rows t.wrap s.wrap := by
  unfold TerminalState.wrap Sheet.wrap
  rw [h.wrapPending]
  split
  · exact h.lineFeed.moveTo h.column.2.pos false
  · exact h

/-- The cell of the cursor is that of the next character. -/
theorem write (cell : Cell) (dirty : ℕ → Bool) :
    Shows columns rows { t with screen := update t.screen (index t.cursorColumn t.cursorRow) cell, dirty }
      { s with cell := update s.cell (s.row, s.column) cell } := by
  have hrow := h.row
  have helse : ∀ line column, line ≠ s.row → update s.cell (s.row, s.column) cell (line, column) = s.cell (line, column) :=
    fun line column hne => update_of_ne (fun heq => hne (congrArg Prod.fst heq)) _ _
  refine { h with
    below := fun line column hline => (helse line column (ne_of_gt hline)).trans (h.below line column hline)
    screen := fun row hin column hc => ?_
    lines := fun line hline hstored column hc => ?_ }
  · have hat : index column row = index t.cursorColumn t.cursorRow ↔ (s.top rows + row, column) = (s.row, s.column) := by
      have hfits := h.fits.1
      have hcolumn := h.column
      rw [Prod.mk.injEq]
      unfold index defaultColumns at *
      omega
    show update t.screen _ _ _ = update s.cell _ _ (s.top rows + row, column)
    rw [update_apply, update_apply, h.screen row hin column hc]
    simp [hat]
  · change line < s.top rows at hline
    exact (h.lines line hline hstored column hc).trans (helse line column (by omega)).symm

lemma put (byte : UInt8) : Shows columns rows (t.put byte.toUInt32) (s.put columns byte) := by
  have hwrap := h.wrap
  unfold TerminalState.put Sheet.put
  obtain ⟨hforeground, hbackground, hattributes⟩ := hwrap.style
  obtain ⟨hcursor, hcolumn⟩ := hwrap.column
  have hwrite := hwrap.write { blankCell with codepoint := byte.toUInt32 }
    (update t.dirty (index t.cursorColumn t.cursorRow) true)
  simp only [hforeground, hbackground, hattributes, hcursor, hwrap.size.1] at hwrite ⊢
  split
  · exact { hwrite with wrapPending := rfl, column := ⟨by dsimp only; omega, hcolumn⟩ }
  · exact { hwrite with column := ⟨rfl, by dsimp only; omega⟩ }

/-- **A byte is shown as it is typed.** -/
theorem feedByte {byte : UInt8} (hbyte : Typed byte) : Shows columns rows (t.feedByte byte) (s.type columns byte) := by
  unfold TerminalState.feedByte
  rw [h.ground.1]
  show Shows columns rows (t.feedGroundByte byte) _
  unfold feedGroundByte
  rw [if_neg (not_not.mpr h.ground.2)]
  rcases hbyte with rfl | rfl | hbyte
  · exact h.lineFeed
  · exact h.moveTo h.column.2.pos false
  · have hput := h.put byte
    unfold feedFirstByte Sheet.type
    grind

lemma scrollbackCell {line column : ℕ} (hline : line < t.scrollbackLen) (hcolumn : column < columns) :
    t.scrollback (index column ((t.scrollbackStart + line) % scrollbackLines)) =
      s.cell (s.top rows - t.scrollbackLen + line, column) := by
  have hlen := h.len
  have hslot : s.top rows - scrollbackLines + line = s.top rows - t.scrollbackLen + line := by omega
  rw [h.start, Nat.mod_add_mod, hslot]
  exact h.lines _ (by omega) (by omega) column hcolumn

/-- The view scrolled back by `offset` lines. -/
theorem visibleCell (offset : ℕ) {row column : ℕ} (hrow : row < rows) (hcolumn : column < columns) :
    { t with viewOffset := offset }.visibleCell row column =
      s.cell (s.top rows - min offset t.scrollbackLen + row, column) := by
  have hlen := h.len
  unfold TerminalState.visibleCell
  dsimp only
  split
  · subst offset
    exact h.screen row hrow column hcolumn
  split
  · rw [h.scrollbackCell ‹_› hcolumn]
    congr 2
    omega
  · rw [h.screen _ (by omega) column hcolumn]
    congr 2
    omega

end

/-! ## Runs -/

lemma foldl_feedByte (h : Shows columns rows t s) {bytes : List UInt8} (hbytes : ∀ byte ∈ bytes, Typed byte) :
    Shows columns rows (bytes.foldl TerminalState.feedByte t) (bytes.foldl (Sheet.type columns) s) := by
  induction bytes generalizing t s with
  | nil => exact h
  | cons byte bytes ih =>
    rw [List.forall_mem_cons] at hbytes
    exact ih (h.feedByte hbytes.1) hbytes.2

lemma feed (h : Shows columns rows t s) {bytes : List UInt8} (hbytes : ∀ byte ∈ bytes, Typed byte) :
    Shows columns rows (t.feed bytes) (bytes.foldl (Sheet.type columns) s) := by
  have hlive : Shows columns rows t.showLiveView s := by
    unfold showLiveView
    split
    · exact { h with }
    · exact h
  have hrun := hlive.foldl_feedByte hbytes
  -- Marks and blinking change nothing that `Shows` speaks of.
  unfold TerminalState.feed restartBlink markCellDirty
  dsimp only
  split_ifs <;> exact { hrun with }

lemma run (h : Shows columns rows t s) {calls : List (List UInt8)} (hbytes : ∀ bytes ∈ calls, ∀ byte ∈ bytes, Typed byte) :
    Shows columns rows (calls.foldl TerminalState.feed t) (calls.flatten.foldl (Sheet.type columns) s) := by
  induction calls generalizing t s with
  | nil => exact h
  | cons bytes calls ih =>
    rw [List.forall_mem_cons] at hbytes
    rw [List.flatten_cons, List.foldl_append]
    exact ih (h.feed hbytes.1) hbytes.2

lemma reset (hfits : t.Fits) (hcolumns : 0 < t.columns) (hrows : 0 < t.rows) : Shows t.columns t.rows t.reset .blank := by
  have htop : Sheet.blank.top t.rows = 0 := Nat.sub_eq_zero_of_le hrows
  exact ⟨⟨rfl, rfl⟩, ⟨hfits, hrows⟩, ⟨rfl, rfl⟩, ⟨rfl, rfl, rfl⟩, rfl, ⟨rfl, hcolumns⟩, htop.symm, fun _ _ _ => rfl,
    fun _ _ _ _ => rfl, by rw [htop]; rfl, by rw [htop]; rfl, by simp [htop]⟩

end Shows

/-- **The scrollback and the screen are the tail of the output.** -/
theorem shows_the_tail (hfits : t.Fits) (hcolumns : 0 < t.columns) (hrows : 0 < t.rows) (calls : List (List UInt8))
    (hbytes : ∀ bytes ∈ calls, ∀ byte ∈ bytes, Typed byte) :
    let t' := calls.foldl feed t.reset
    let s := calls.flatten.foldl (Sheet.type t.columns) .blank
    let top := s.top t.rows
    t'.scrollbackLen = min top scrollbackLines ∧
      (∀ line < t'.scrollbackLen, ∀ column < t.columns,
        t'.scrollback (index column ((t'.scrollbackStart + line) % scrollbackLines)) =
          s.cell (top - t'.scrollbackLen + line, column)) ∧
      (∀ row < t.rows, ∀ column < t.columns, t'.screen (index column row) = s.cell (top + row, column)) ∧
      ∀ offset, ∀ row < t.rows, ∀ column < t.columns,
        { t' with viewOffset := offset }.visibleCell row column =
          s.cell (top - min offset t'.scrollbackLen + row, column) := by
  have h := (Shows.reset hfits hcolumns hrows).run hbytes
  exact ⟨h.len, fun _ hline _ => h.scrollbackCell hline, h.screen, fun offset _ hrow _ => h.visibleCell offset hrow⟩

/-- Two characters on a terminal of one cell. -/
theorem shows_the_tail_of_two : ([[0x61], [0x62]].foldl feed (new.resize 1 1).reset).scrollbackLen = 1 :=
  (shows_the_tail (fits_resize new 1 1) (by decide) (by decide) [[0x61], [0x62]] (by simp [Typed])).1

end TerminalState

end LogOS.Terminal
