import LogOS.Terminal.Messages

/-!
# The terminal emulator

`TerminalState`: a grid of cells with a cursor, a parser for UTF-8 and escape sequences, scrollback, and a flag for every cell
that changed since it was last sent.  The cursor is not part of the grid: the colours of its cell are exchanged when a row is
sent.

The grid is stored with 160 cells a line, of which only the first `columns` of the first `rows` lines are shown.
-/

namespace LogOS.Terminal

open Abi

/-! ## Cells -/

structure Cell where
  codepoint : UInt32
  foreground : UInt32
  background : UInt32
  attributes : UInt16
  width : UInt8
  reserved : UInt8
  deriving DecidableEq, Repr, Inhabited

def cellAttrBold : UInt16 := 1
def cellAttrDim : UInt16 := 2
def cellAttrUnderline : UInt16 := 4

def defaultColumns : ℕ := 160
def defaultRows : ℕ := 48
def scrollbackLines : ℕ := 64
def maxParams : ℕ := 16
def replacementScalar : UInt32 := 0xfffd
def wheelLines : ℤ := 3
def cursorBlinkTicks : ℕ := 50
def cursorBlinkIdleTicks : ℕ := 1000
def defaultForegroundDark : UInt32 := 0x00d7e3f4
def defaultBackgroundDark : UInt32 := 0x000b1020
def defaultForegroundLight : UInt32 := 0x0014212c
def defaultBackgroundLight : UInt32 := 0x00f5f7fa
def defaultForeground : UInt32 := defaultForegroundDark
def defaultBackground : UInt32 := defaultBackgroundDark

def ansiColors : List UInt32 :=
  [0x000b1020, 0x00ff6b6b, 0x007ed787, 0x00ffd866, 0x0058a6ff, 0x00d2a8ff, 0x0056d4dd, defaultForeground]

def ansiBrightColors : List UInt32 :=
  [0x00303845, 0x00ff7b72, 0x00a5d6a7, 0x00f2cc60, 0x0079c0ff, 0x00d2a8ff, 0x00a5d6ff, 0x00ffffff]

def blankCell : Cell := ⟨0x20, defaultForeground, defaultBackground, 0, 1, 0⟩

/-- The cell under the cursor. -/
def Cell.inverted (cell : Cell) : Cell := { cell with foreground := cell.background, background := cell.foreground }

/-! ## State -/

inductive ParserState where
  | ground
  | escape
  | csi
  deriving DecidableEq, Repr

/-- The parameters that were pushed, and the one that is being read. -/
structure Parser where
  state : ParserState
  params : List ℕ
  current : ℕ
  hasCurrent : Bool
  deriving DecidableEq, Repr

namespace Parser

def new : Parser := ⟨.ground, [], 0, false⟩

def resetCsi (p : Parser) : Parser := { p with params := [], current := 0, hasCurrent := false }

def pushParam (p : Parser) : Parser :=
  { p with
    params := if p.params.length < maxParams then p.params ++ [if p.hasCurrent then p.current else 0] else p.params
    current := 0
    hasCurrent := false }

/-- A missing parameter and a zero are the default. -/
def param (p : Parser) (index default : ℕ) : ℕ :=
  match p.params[index]? with
  | none => default
  | some 0 => default
  | some value => value

end Parser

structure TerminalState where
  columns : ℕ
  rows : ℕ
  cursorColumn : ℕ
  cursorRow : ℕ
  savedCursorColumn : ℕ
  savedCursorRow : ℕ
  wrapPending : Bool
  screen : ℕ → Cell
  dirty : ℕ → Bool
  parser : Parser
  foreground : UInt32
  background : UInt32
  attributes : UInt16
  utf8Codepoint : UInt32
  utf8Remaining : ℕ
  utf8Min : UInt32
  scrollback : ℕ → Cell
  scrollbackStart : ℕ
  scrollbackLen : ℕ
  viewOffset : ℕ
  reducedMotion : Bool
  lightTheme : Bool
  cursorHidden : Bool
  blinkRestart : Bool
  blinkAnchor : ℕ

/-- A row of the grid as it is sent to Display. -/
structure GridRow where
  row : ℕ
  cells : List Cell
  deriving DecidableEq, Repr

/-- The place of a cell in the grid. -/
def index (column row : ℕ) : ℕ := row * defaultColumns + column

namespace TerminalState

variable (t : TerminalState)

def new : TerminalState where
  columns := defaultColumns
  rows := defaultRows
  cursorColumn := 0
  cursorRow := 0
  savedCursorColumn := 0
  savedCursorRow := 0
  wrapPending := false
  screen := fun _ => blankCell
  dirty := fun _ => true
  parser := .new
  foreground := defaultForeground
  background := defaultBackground
  attributes := 0
  utf8Codepoint := 0
  utf8Remaining := 0
  utf8Min := 0
  scrollback := fun _ => blankCell
  scrollbackStart := 0
  scrollbackLen := 0
  viewOffset := 0
  reducedMotion := false
  lightTheme := false
  cursorHidden := false
  blinkRestart := true
  blinkAnchor := 0

/-! ### Changed cells -/

/-- The place is shown. -/
def shows (i : ℕ) : Bool := i / defaultColumns < t.rows ∧ i % defaultColumns < t.columns

def markAllDirty : TerminalState := { t with dirty := fun i => t.shows i || t.dirty i }

def markCellDirty (column row : ℕ) : TerminalState :=
  if column < t.columns ∧ row < t.rows then { t with dirty := Function.update t.dirty (index column row) true } else t

/-- Blanks the cells of a row from `start` up to `stop`. -/
def blankCells (row start stop : ℕ) : TerminalState :=
  { t with
    screen := fun i => if index start row ≤ i ∧ i < index stop row then blankCell else t.screen i
    dirty := fun i => decide (index start row ≤ i ∧ i < index stop row) || t.dirty i }

/-! ### Appearance and blinking -/

def defaultColors : UInt32 × UInt32 :=
  if t.lightTheme then (defaultForegroundLight, defaultBackgroundLight) else (defaultForegroundDark, defaultBackgroundDark)

def restartBlink : TerminalState :=
  if t.cursorHidden then
    { t with blinkRestart := true, cursorHidden := false }.markCellDirty t.cursorColumn t.cursorRow
  else { t with blinkRestart := true }

def setReducedMotion (reduced : Bool) : TerminalState := { t with reducedMotion := reduced }.restartBlink

/-- The default colours of one theme become those of the other. -/
def recolor (old new : UInt32 × UInt32) (cell : Cell) : Cell :=
  { cell with
    foreground := if cell.foreground = old.1 then new.1 else cell.foreground
    background := if cell.background = old.2 then new.2 else cell.background }

def setLightTheme (light : Bool) : TerminalState :=
  if t.lightTheme = light then t
  else
    let old := t.defaultColors
    let new := { t with lightTheme := light }.defaultColors
    { t with
      lightTheme := light
      screen := fun i => recolor old new (t.screen i)
      scrollback := fun i => recolor old new (t.scrollback i)
      foreground := if t.foreground = old.1 then new.1 else t.foreground
      background := if t.background = old.2 then new.2 else t.background }.markAllDirty

def blink (now : ℕ) : TerminalState :=
  let t := if t.blinkRestart then { t with blinkRestart := false, blinkAnchor := now } else t
  let elapsed := now - t.blinkAnchor
  let hidden := !t.reducedMotion && t.viewOffset == 0 && decide (elapsed < cursorBlinkIdleTicks) &&
    (elapsed / cursorBlinkTicks) % 2 == 1
  if hidden ≠ t.cursorHidden then { t with cursorHidden := hidden }.markCellDirty t.cursorColumn t.cursorRow else t

/-! ### Reset and resize -/

def reset : TerminalState :=
  { t with
    cursorColumn := 0
    cursorRow := 0
    savedCursorColumn := 0
    savedCursorRow := 0
    wrapPending := false
    parser := .new
    foreground := defaultForeground
    background := defaultBackground
    attributes := 0
    utf8Codepoint := 0
    utf8Remaining := 0
    utf8Min := 0
    scrollbackStart := 0
    scrollbackLen := 0
    viewOffset := 0
    cursorHidden := false
    blinkRestart := true
    screen := fun _ => blankCell }.markAllDirty

def forceRedraw : TerminalState := t.markAllDirty

def clamp (value low high : ℕ) : ℕ := max low (min value high)

def resize (columns rows : ℕ) : TerminalState :=
  let columns := clamp columns 1 defaultColumns
  let rows := clamp rows 1 defaultRows
  { t with
    columns := columns
    rows := rows
    cursorColumn := min t.cursorColumn (columns - 1)
    cursorRow := min t.cursorRow (rows - 1)
    savedCursorColumn := min t.savedCursorColumn (columns - 1)
    savedCursorRow := min t.savedCursorRow (rows - 1)
    wrapPending := false }.markAllDirty

/-! ### Writing -/

def storeScrollbackLine (row : ℕ) : TerminalState :=
  let full := !decide (t.scrollbackLen < scrollbackLines)
  let slot := if full then t.scrollbackStart else (t.scrollbackStart + t.scrollbackLen) % scrollbackLines
  { t with
    scrollbackStart := if full then (t.scrollbackStart + 1) % scrollbackLines else t.scrollbackStart
    scrollback := fun i =>
      if index 0 slot ≤ i ∧ i < index defaultColumns slot then t.screen (index 0 row + (i - index 0 slot)) else t.scrollback i
    scrollbackLen := min (t.scrollbackLen + 1) scrollbackLines }

/-- Every shown line moves up by one, and the last one is blank. -/
def scrollUp : TerminalState :=
  let t := t.storeScrollbackLine 0
  { t with
    screen := fun i =>
      if t.shows i then if i / defaultColumns + 1 < t.rows then t.screen (i + defaultColumns) else blankCell else t.screen i
    dirty := fun i => t.shows i || t.dirty i }

def lineFeed : TerminalState :=
  let t := { t with wrapPending := false }
  if t.rows ≤ t.cursorRow + 1 then t.scrollUp else { t with cursorRow := t.cursorRow + 1 }

/-- The line feed that was put off when the last column was written. -/
def wrap : TerminalState := if t.wrapPending then { t.lineFeed with cursorColumn := 0, wrapPending := false } else t

def put (codepoint : UInt32) : TerminalState :=
  let t := t.wrap
  let i := index t.cursorColumn t.cursorRow
  let t := { t with
    screen := Function.update t.screen i
      { blankCell with
        codepoint := codepoint, foreground := t.foreground, background := t.background, attributes := t.attributes }
    dirty := Function.update t.dirty i true }
  if t.columns ≤ t.cursorColumn + 1 then { t with cursorColumn := t.columns - 1, wrapPending := true }
  else { t with cursorColumn := t.cursorColumn + 1 }

def eraseRow (row : ℕ) : TerminalState := t.blankCells row 0 t.columns

def eraseLine (mode : ℕ) : TerminalState :=
  match mode with
  | 0 => t.blankCells t.cursorRow t.cursorColumn t.columns
  | 1 => t.blankCells t.cursorRow 0 (min (t.cursorColumn + 1) t.columns)
  | 2 => t.blankCells t.cursorRow 0 t.columns
  | _ => t

/-- Erases `count` rows from `first` on. -/
def eraseRows (first count : ℕ) : TerminalState := (List.range' first count).foldl eraseRow t

def eraseDisplay (mode : ℕ) : TerminalState :=
  match mode with
  | 0 => (t.eraseLine 0).eraseRows (t.cursorRow + 1) (t.rows - (t.cursorRow + 1))
  | 1 => (t.eraseRows 0 t.cursorRow).eraseLine 1
  | 2 => t.eraseRows 0 t.rows
  | 3 => t.eraseRows 0 t.rows
  | _ => t

/-! ### Escape sequences -/

def resetStyle : TerminalState :=
  { t with foreground := defaultForeground, background := defaultBackground, attributes := 0 }

/-- One parameter of `SGR`. -/
def applySgrParam (param : ℕ) : TerminalState :=
  if param = 0 then t.resetStyle
  else if param = 1 then { t with attributes := t.attributes ||| cellAttrBold }
  else if param = 2 then { t with attributes := t.attributes ||| cellAttrDim }
  else if param = 4 then { t with attributes := t.attributes ||| cellAttrUnderline }
  else if param = 22 then { t with attributes := t.attributes &&& ~~~(cellAttrBold ||| cellAttrDim) }
  else if param = 24 then { t with attributes := t.attributes &&& ~~~cellAttrUnderline }
  else if 30 ≤ param ∧ param ≤ 37 then { t with foreground := ansiColors.getD (param - 30) 0 }
  else if param = 39 then { t with foreground := defaultForeground }
  else if 40 ≤ param ∧ param ≤ 47 then { t with background := ansiColors.getD (param - 40) 0 }
  else if param = 49 then { t with background := defaultBackground }
  else if 90 ≤ param ∧ param ≤ 97 then { t with foreground := ansiBrightColors.getD (param - 90) 0 }
  else if 100 ≤ param ∧ param ≤ 107 then { t with background := ansiBrightColors.getD (param - 100) 0 }
  else t

def applySgr : TerminalState := if t.parser.params = [] then t.resetStyle else t.parser.params.foldl applySgrParam t

/-- The cursor goes to a column and a row, within the grid. -/
def moveTo (column row : ℕ) : TerminalState :=
  { t with cursorColumn := min column (t.columns - 1), cursorRow := min row (t.rows - 1) }

def dispatchCsi (final : UInt8) : TerminalState :=
  let t := { t with wrapPending := false }
  let p := t.parser
  match final with
  | 0x43 => { t with cursorColumn := min (t.cursorColumn + p.param 0 1) (t.columns - 1) } -- C
  | 0x44 => { t with cursorColumn := t.cursorColumn - p.param 0 1 } -- D
  | 0x41 => { t with cursorRow := t.cursorRow - p.param 0 1 } -- A
  | 0x42 => { t with cursorRow := min (t.cursorRow + p.param 0 1) (t.rows - 1) } -- B
  | 0x48 => t.moveTo (p.param 1 1 - 1) (p.param 0 1 - 1) -- H
  | 0x66 => t.moveTo (p.param 1 1 - 1) (p.param 0 1 - 1) -- f
  | 0x47 => { t with cursorColumn := min (p.param 0 1 - 1) (t.columns - 1) } -- G
  | 0x60 => { t with cursorColumn := min (p.param 0 1 - 1) (t.columns - 1) } -- backquote
  | 0x64 => { t with cursorRow := min (p.param 0 1 - 1) (t.rows - 1) } -- d
  | 0x45 => { t with cursorRow := min (t.cursorRow + p.param 0 1) (t.rows - 1), cursorColumn := 0 } -- E
  | 0x46 => { t with cursorRow := t.cursorRow - p.param 0 1, cursorColumn := 0 } -- F
  | 0x73 => { t with savedCursorColumn := t.cursorColumn, savedCursorRow := t.cursorRow } -- s
  | 0x75 => t.moveTo t.savedCursorColumn t.savedCursorRow -- u
  | 0x4a => t.eraseDisplay (p.param 0 0) -- J
  | 0x4b => t.eraseLine (p.param 0 0) -- K
  | 0x6d => t.applySgr -- m
  | _ => t

def feedCsi (byte : UInt8) : TerminalState :=
  if 0x30 ≤ byte ∧ byte ≤ 0x39 then
    { t with parser := { t.parser with
        current := min (min (t.parser.current * 10) 65535 + (byte - 0x30).toNat) 65535, hasCurrent := true } }
  else if byte = 0x3b then { t with parser := t.parser.pushParam }
  else if 0x40 ≤ byte ∧ byte ≤ 0x7e then
    let t := if t.parser.hasCurrent || !t.parser.params.isEmpty then { t with parser := t.parser.pushParam } else t
    let t := t.dispatchCsi byte
    { t with parser := { t.parser with state := .ground } }
  else { t with parser := { t.parser with state := .ground } }

/-! ### Bytes -/

/-- The first byte of a character, or a control byte. -/
def feedFirstByte (byte : UInt8) : TerminalState :=
  if byte = 0x1b then { t with wrapPending := false, parser := { t.parser with state := .escape } }
  else if byte = 0x08 ∨ byte = 0x7f then { t with wrapPending := false, cursorColumn := t.cursorColumn - 1 }
  else if byte = 0x09 then
    { t with wrapPending := false, cursorColumn := min ((t.cursorColumn / 8 + 1) * 8) (t.columns - 1) }
  else if 0x0a ≤ byte ∧ byte ≤ 0x0c then { t with wrapPending := false }.lineFeed
  else if byte = 0x0d then { t with wrapPending := false, cursorColumn := 0 }
  else if 0x20 ≤ byte ∧ byte ≤ 0x7e then t.put byte.toUInt32
  else if 0xc2 ≤ byte ∧ byte ≤ 0xdf then
    { t with utf8Codepoint := (byte &&& 0x1f).toUInt32, utf8Remaining := 1, utf8Min := 0x80 }
  else if 0xe0 ≤ byte ∧ byte ≤ 0xef then
    { t with utf8Codepoint := (byte &&& 0x0f).toUInt32, utf8Remaining := 2, utf8Min := 0x800 }
  else if 0xf0 ≤ byte ∧ byte ≤ 0xf4 then
    { t with utf8Codepoint := (byte &&& 0x07).toUInt32, utf8Remaining := 3, utf8Min := 0x10000 }
  else if 0x80 ≤ byte then t.put replacementScalar
  else t

/-- A byte that continues a character, or does not. -/
def feedGroundByte (byte : UInt8) : TerminalState :=
  if t.utf8Remaining ≠ 0 then
    if byte &&& 0xc0 = 0x80 then
      let t := { t with
        utf8Codepoint := (t.utf8Codepoint <<< 6) ||| (byte &&& 0x3f).toUInt32, utf8Remaining := t.utf8Remaining - 1 }
      if t.utf8Remaining = 0 then
        let scalar := t.utf8Codepoint
        let valid := decide (t.utf8Min ≤ scalar) && decide (scalar ≤ 0x10ffff) && !decide (0xd800 ≤ scalar ∧ scalar ≤ 0xdfff)
        { t with utf8Codepoint := 0, utf8Min := 0 }.put (if valid then scalar else replacementScalar)
      else t
    else
      ({ t with utf8Codepoint := 0, utf8Remaining := 0, utf8Min := 0 }.put replacementScalar).feedFirstByte byte
  else t.feedFirstByte byte

def feedByte (byte : UInt8) : TerminalState :=
  match t.parser.state with
  | .ground => t.feedGroundByte byte
  | .escape =>
    if byte = 0x5b then { t with parser := { t.parser.resetCsi with state := .csi } }
    else if byte = 0x63 then t.reset
    else { t with parser := { t.parser with state := .ground } }
  | .csi => t.feedCsi byte

def showLiveView : TerminalState := if t.viewOffset ≠ 0 then { t with viewOffset := 0 }.markAllDirty else t

def feed (bytes : List UInt8) : TerminalState :=
  let after := bytes.foldl feedByte t.showLiveView
  if (t.cursorColumn, t.cursorRow) ≠ (after.cursorColumn, after.cursorRow) then
    let after := after.restartBlink.markCellDirty t.cursorColumn t.cursorRow
    after.markCellDirty after.cursorColumn after.cursorRow
  else after

/-! ### Scrolling back -/

def scrollView (lines : ℤ) : TerminalState :=
  let offset := if 0 < lines then min (t.viewOffset + lines.toNat) t.scrollbackLen else t.viewOffset - lines.natAbs
  if t.viewOffset ≠ offset then { t with viewOffset := offset }.markAllDirty else t

def visibleCell (row column : ℕ) : Cell :=
  if t.viewOffset = 0 then t.screen (index column row)
  else
    let line := t.scrollbackLen - t.viewOffset + row
    if line < t.scrollbackLen then t.scrollback (index column ((t.scrollbackStart + line) % scrollbackLines))
    else t.screen (index column (line - t.scrollbackLen))

/-! ### Sending rows -/

/-- The column of the cursor, if the row shows it. -/
def cursorIn (row : ℕ) : Option ℕ :=
  if t.viewOffset = 0 ∧ t.cursorHidden = false ∧ row = t.cursorRow then some t.cursorColumn else none

/-- The cell as it is sent. -/
def sentCell (row column : ℕ) : Cell :=
  if t.cursorIn row = some column then (t.visibleCell row column).inverted else t.visibleCell row column

def rowDirty (row : ℕ) : Bool := (List.range t.columns).any fun column => t.dirty (index column row)

def nextGridRow : Option (GridRow × TerminalState) :=
  ((List.range t.rows).find? t.rowDirty).map fun row =>
    (⟨row, (List.range t.columns).map (t.sentCell row)⟩,
      { t with dirty := fun i => !decide (index 0 row ≤ i ∧ i < index t.columns row) && t.dirty i })

/-! ### Input -/

end TerminalState

def isAsciiAlphabetic (byte : UInt8) : Bool := (0x41 ≤ byte ∧ byte ≤ 0x5a) ∨ (0x61 ≤ byte ∧ byte ≤ 0x7a)

def toAsciiUppercase (byte : UInt8) : UInt8 := if 0x61 ≤ byte ∧ byte ≤ 0x7a then byte - 0x20 else byte

def toAsciiLowercase (byte : UInt8) : UInt8 := if 0x41 ≤ byte ∧ byte ≤ 0x5a then byte + 0x20 else byte

def shiftedAscii : UInt8 → UInt8
  | 0x31 => 0x21
  | 0x32 => 0x40
  | 0x33 => 0x23
  | 0x34 => 0x24
  | 0x35 => 0x25
  | 0x36 => 0x5e
  | 0x37 => 0x26
  | 0x38 => 0x2a
  | 0x39 => 0x28
  | 0x30 => 0x29
  | 0x2d => 0x5f
  | 0x3d => 0x2b
  | 0x5b => 0x7b
  | 0x5d => 0x7d
  | 0x3b => 0x3a
  | 0x27 => 0x22
  | 0x2c => 0x3c
  | 0x2e => 0x3e
  | 0x2f => 0x3f
  | 0x60 => 0x7e
  | 0x5c => 0x7c
  | byte => byte

def modifiedCharacter (byte : UInt8) (modifiers : UInt16) : UInt8 :=
  if isAsciiAlphabetic byte then
    if hasFlag modifiers modShift != hasFlag modifiers modCapsLock then toAsciiUppercase byte else toAsciiLowercase byte
  else if hasFlag modifiers modShift then shiftedAscii byte
  else byte

def controlByte (byte : UInt8) : Option UInt8 :=
  if byte = 0x3f then some 0x7f
  else if isAsciiAlphabetic byte then some (toAsciiUppercase byte &&& 0x1f)
  else if 0x20 ≤ byte ∧ byte ≤ 0x5f then some (byte &&& 0x1f)
  else none

/-- The bytes of a key that is not a character. -/
def keyBytes (code modifiers : UInt16) : Option (List UInt8) :=
  let ctrl := hasFlag modifiers modCtrl
  if code = KeyCode.escape then some [0x1b]
  else if code = KeyCode.enter then some (if ctrl then [0x17] else [0x0d])
  else if code = KeyCode.backspace then some (if ctrl then [0x17] else [0x7f])
  else if code = KeyCode.tab then some [0x09]
  else if code = KeyCode.up then some [0x1b, 0x5b, 0x41]
  else if code = KeyCode.down then some [0x1b, 0x5b, 0x42]
  else if code = KeyCode.left then some (if ctrl then [0x1b, 0x5b, 0x31, 0x3b, 0x35, 0x44] else [0x1b, 0x5b, 0x44])
  else if code = KeyCode.right then some (if ctrl then [0x1b, 0x5b, 0x31, 0x3b, 0x35, 0x43] else [0x1b, 0x5b, 0x43])
  else if code = KeyCode.home then some [0x1b, 0x5b, 0x48]
  else if code = KeyCode.endKey then some [0x1b, 0x5b, 0x46]
  else if code = KeyCode.delete then some (if ctrl then [0x1b, 0x5b, 0x33, 0x3b, 0x35, 0x7e] else [0x1b, 0x5b, 0x33, 0x7e])
  else none

/-- What Session is sent for an event. -/
def sessionBytes (event : InputMessage) : Option (List UInt8) :=
  if event.kind = .text ∨ event.kind = .paste then event.textBytes
  else if event.kind ≠ .key ∨ event.state = .released then none
  else match KeyCode.characterByte event.code with
    | some byte =>
      let byte := modifiedCharacter byte event.modifiers
      if hasFlag event.modifiers modCtrl then (controlByte byte).map fun control => [control]
      else if hasFlag event.modifiers modAlt then some [0x1b, byte]
      else keyBytes event.code event.modifiers
    | none => keyBytes event.code event.modifiers

namespace TerminalState

variable (t : TerminalState)

/-- The lines that an event with the shift key scrolls. -/
def pageLines (event : InputMessage) : Option ℤ :=
  if event.isKeyDown ∧ hasFlag event.modifiers modShift then
    if event.code = KeyCode.pageUp then some ((t.rows - 1 : ℕ) : ℤ)
    else if event.code = KeyCode.pageDown then some (-((t.rows - 1 : ℕ) : ℤ))
    else none
  else none

def input (event : InputMessage) : Option IpcBytes × TerminalState :=
  match event.appearanceFlags with
  | some flags =>
    (none, (t.setReducedMotion (hasFlag flags appearanceReducedMotion)).setLightTheme (hasFlag flags appearanceLightTheme))
  | none =>
    let t := if event.kind ≠ .pointer then t.restartBlink else t
    match event.pointerWheel with
    | some wheel => (none, t.scrollView (wheel.toInt * wheelLines))
    | none =>
      match t.pageLines event with
      | some lines => (none, t.scrollView lines)
      | none => ((sessionBytes event).bind (IpcBytes.fromBytes .sessionInput), t)

end TerminalState

end LogOS.Terminal
