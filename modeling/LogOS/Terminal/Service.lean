import LogOS.Graphics.Rect
import LogOS.Terminal.Emulator

/-!
# Panes and tabs

`TerminalService`: up to four sessions, each the tab of one pane, and up to four panes, each shown on one surface.  A pane
whose surface is closed while it is the last one is kept without a surface, so that the next surface finds its sessions.
-/

namespace LogOS.Terminal

open Graphics

abbrev maxTerminalSessions : ℕ := 4
abbrev maxTerminalPanes : ℕ := 4

structure TabHandle where
  slot : UInt8
  generation : UInt8
  deriving DecidableEq, Repr

namespace TabHandle

def isValid (handle : TabHandle) : Bool := handle.slot != 0xff && handle.generation != 0

end TabHandle

structure Session where
  terminal : TerminalState
  isOpen : Bool
  generation : UInt8
  owner : Fin maxTerminalPanes

/-- The generation after the slot was opened or closed. -/
def nextGeneration (generation : UInt8) : UInt8 := max (generation + 1) 1

structure Pane where
  inUse : Bool
  surface : SurfaceHandle
  bounds : GuiRect
  active : Fin maxTerminalSessions

def Pane.empty : Pane := ⟨false, .empty, .empty, 0⟩

/-- The pane is shown on a surface. -/
def Pane.isBound (pane : Pane) : Bool := pane.inUse && pane.surface.isValid

structure TerminalService where
  sessions : Fin maxTerminalSessions → Session
  panes : Fin maxTerminalPanes → Pane
  current : Fin maxTerminalPanes
  renderCursor : Fin maxTerminalPanes
  appearance : UInt16

/-- A row of the grid for a surface. -/
structure SurfaceRow where
  surface : SurfaceHandle
  row : GridRow
  deriving DecidableEq, Repr

def terminalContentPadding : ℕ := 8
def terminalChromeHeight : ℕ := 32
def terminalTabBarHeight : ℕ := 28
def displayCellWidth : ℕ := 8
def displayCellHeight : ℕ := 16

/-- `terminal_grid_metrics`: the columns and rows of the grid on a surface. -/
def terminalGridMetrics (bounds : GuiRect) : ℕ × ℕ :=
  let contentWidth := bounds.width.toNat - terminalContentPadding * 2
  let contentHeight := bounds.height.toNat - (terminalChromeHeight + terminalTabBarHeight) - terminalContentPadding * 2
  (TerminalState.clamp (contentWidth / displayCellWidth) 1 defaultColumns,
    TerminalState.clamp (contentHeight / displayCellHeight) 1 defaultRows)

namespace TerminalService

variable (s : TerminalService)

def new : TerminalService where
  sessions := Function.update (fun _ => ⟨.new, false, 0, 0⟩) 0 ⟨.new, true, 1, 0⟩
  panes := Function.update (fun _ => .empty) 0 { Pane.empty with inUse := true }
  current := 0
  renderCursor := 0
  appearance := 0

/-! ## Sessions and panes -/

def setSession (slot : Fin maxTerminalSessions) (session : Session) : TerminalService :=
  { s with sessions := Function.update s.sessions slot session }

/-- Changes the emulator of a session. -/
def onTerminal (slot : Fin maxTerminalSessions) (f : TerminalState → TerminalState) : TerminalService :=
  s.setSession slot { s.sessions slot with terminal := f (s.sessions slot).terminal }

/-- Changes a pane. -/
def onPane (pane : Fin maxTerminalPanes) (f : Pane → Pane) : TerminalService :=
  { s with panes := Function.update s.panes pane (f (s.panes pane)) }

/-- `active_slot`. -/
def activeSlot : Fin maxTerminalSessions := (s.panes s.current).active

/-- `active_session`, changed. -/
def onActive (f : TerminalState → TerminalState) : TerminalService := s.onTerminal s.activeSlot f

def owns (pane : Fin maxTerminalPanes) (slot : Fin maxTerminalSessions) : Bool :=
  (s.sessions slot).isOpen && (s.sessions slot).owner == pane

def handle (slot : Fin maxTerminalSessions) : TabHandle := ⟨UInt8.ofNat slot.val, (s.sessions slot).generation⟩

def tabCount : ℕ := ((List.finRange maxTerminalSessions).filter (s.owns s.current)).length

def freeSession? : Option (Fin maxTerminalSessions) :=
  (List.finRange maxTerminalSessions).find? fun slot => !(s.sessions slot).isOpen

def paneIndex (surface : SurfaceHandle) : Option (Fin maxTerminalPanes) :=
  if surface.isValid then
    (List.finRange maxTerminalPanes).find? fun pane => (s.panes pane).inUse && (s.panes pane).surface == surface
  else none

def boundPaneCount : ℕ := ((List.finRange maxTerminalPanes).filter fun pane => (s.panes pane).isBound).length

def select (surface : SurfaceHandle) : Bool × TerminalService :=
  match s.paneIndex surface with
  | some pane => (true, { s with current := pane })
  | none => (false, s)

/-- Every session of the current pane takes the size of its surface. -/
def resizeToSurface (bounds : GuiRect) : TerminalService :=
  let (columns, rows) := terminalGridMetrics bounds
  let s := s.onPane s.current fun pane => { pane with bounds := bounds }
  { s with sessions := fun slot =>
      if s.owns s.current slot then { s.sessions slot with terminal := (s.sessions slot).terminal.resize columns rows }
      else s.sessions slot }

/-- The emulator of a session that is opened. -/
def freshTerminal : TerminalState :=
  (TerminalState.new.setReducedMotion (hasFlag s.appearance appearanceReducedMotion)).setLightTheme
    (hasFlag s.appearance appearanceLightTheme)

/-- The slot is opened for a pane. -/
def openSlot (slot : Fin maxTerminalSessions) (pane : Fin maxTerminalPanes) (terminal : TerminalState) : TerminalService :=
  s.setSession slot ⟨terminal, true, nextGeneration (s.sessions slot).generation, pane⟩

/-- The slot is closed. -/
def closeSlot (slot : Fin maxTerminalSessions) : TerminalService :=
  s.setSession slot { s.sessions slot with isOpen := false, generation := nextGeneration (s.sessions slot).generation }

def closeMessage (slot : Fin maxTerminalSessions) : IpcBytes := (IpcBytes.empty .sessionClose).withSession slot

def bindSurface (surface : SurfaceHandle) (bounds : GuiRect) : Bool × TerminalService :=
  if !surface.isValid then (false, s)
  else match s.paneIndex surface with
    | some pane =>
      let s := { s with current := pane }
      (true, if (s.panes pane).bounds ≠ bounds then s.resizeToSurface bounds else s)
    | none =>
      match (List.finRange maxTerminalPanes).find? fun pane => (s.panes pane).inUse && !(s.panes pane).surface.isValid with
      | some pane =>
        let s := { s.onPane pane (fun p => { p with surface := surface }) with current := pane }
        let s := s.onActive .reset
        let s := s.resizeToSurface bounds
        (true, s.onActive .forceRedraw)
      | none =>
        match (List.finRange maxTerminalPanes).find? fun pane => !(s.panes pane).inUse with
        | none => (false, s)
        | some pane =>
          match s.freeSession? with
          | none => (false, s)
          | some slot =>
            let s := s.openSlot slot pane s.freshTerminal
            let s := { s.onPane pane (fun _ => ⟨true, surface, .empty, slot⟩) with current := pane }
            let s := s.resizeToSurface bounds
            (true, s.onActive .forceRedraw)

/-- The slot is closed if the pane owns it, with a message. -/
def closeOwned (pane : Fin maxTerminalPanes) (closed : List IpcBytes × TerminalService) (slot : Fin maxTerminalSessions) :
    List IpcBytes × TerminalService :=
  if closed.2.owns pane slot then (closed.1 ++ [closeMessage slot], closed.2.closeSlot slot) else closed

/-- The sessions of a pane are closed, with a message for each. -/
def closeSessionsOf (pane : Fin maxTerminalPanes) (slots : List (Fin maxTerminalSessions)) : List IpcBytes × TerminalService :=
  slots.foldl (closeOwned pane) ([], s)

def unbindSurface (surface : SurfaceHandle) : List IpcBytes × TerminalService :=
  match s.paneIndex surface with
  | none => ([], s)
  | some pane =>
    if s.boundPaneCount ≤ 1 then ([], s.onPane pane fun p => { p with surface := .empty })
    else
      let (closes, s) := s.closeSessionsOf pane (List.finRange maxTerminalSessions)
      let s := s.onPane pane fun _ => .empty
      let current := if s.current = pane then
          ((List.finRange maxTerminalPanes).find? fun pane => (s.panes pane).isBound).getD 0
        else s.current
      (closes, { s with current := current })

/-! ## Tabs -/

def openTab : Option TabHandle × TerminalService :=
  let active := (s.sessions s.activeSlot).terminal
  match s.freeSession? with
  | none => (none, s)
  | some slot =>
    let s := s.openSlot slot s.current (s.freshTerminal.resize active.columns active.rows)
    let s := s.onPane s.current fun pane => { pane with active := slot }
    let s := s.onTerminal slot .forceRedraw
    (some (s.handle slot), s)

/-- `is_valid`: the slot of a handle to an open tab of the current pane. -/
def slotOf (handle : TabHandle) : Option (Fin maxTerminalSessions) :=
  if h : handle.slot.toNat < maxTerminalSessions then
    let slot : Fin maxTerminalSessions := ⟨handle.slot.toNat, h⟩
    if handle.isValid ∧ s.owns s.current slot ∧ (s.sessions slot).generation = handle.generation then some slot else none
  else none

def closeTab (handle : TabHandle) : Option IpcBytes × TerminalService :=
  match s.slotOf handle with
  | none => (none, s)
  | some slot =>
    if s.tabCount ≤ 1 then (none, s)
    else
      let s := s.closeSlot slot
      let s := if s.activeSlot = slot then
          let next := ((List.finRange maxTerminalSessions).find? (s.owns s.current)).getD 0
          (s.onPane s.current fun pane => { pane with active := next }).onActive .forceRedraw
        else s
      (some (closeMessage slot), s)

def switchTab (handle : TabHandle) : Bool × TerminalService :=
  match s.slotOf handle with
  | none => (false, s)
  | some slot =>
    if s.activeSlot ≠ slot then
      (true, (s.onPane s.current fun pane => { pane with active := slot }).onActive .forceRedraw)
    else (true, s)

/-- The loop of `next_tab`, with the rounds that it may take. -/
def searchTab : ℕ → Fin maxTerminalSessions → Option (Fin maxTerminalSessions)
  | 0, _ => none
  | n + 1, slot => if s.owns s.current slot then some slot else searchTab n (slot + 1)

/-- `next_tab`.  After four rounds the loop has seen every slot, and goes on for ever if none was found. -/
def nextTab : Option TerminalService :=
  (s.searchTab maxTerminalSessions (s.activeSlot + 1)).map fun slot =>
    (s.onPane s.current fun pane => { pane with active := slot }).onActive .forceRedraw

/-! ## Input, output and rows -/

def isNextTab (event : InputMessage) : Bool :=
  event.isKeyDown && hasFlag event.modifiers modCtrl && event.code == KeyCode.tab

def isOpenTab (event : InputMessage) : Bool :=
  event.isKeyDown && hasFlag event.modifiers modCtrl && event.state == .pressed && hasFlag event.modifiers modShift &&
    event.code == KeyCode.character 0x74

/-- `input`; there is no result when `next_tab` does not return. -/
def input (event : InputMessage) : Option (Option IpcBytes × TerminalService) :=
  match event.appearanceFlags with
  | some flags =>
    some (none, { s with
      appearance := flags
      sessions := fun slot => { s.sessions slot with
        terminal := ((s.sessions slot).terminal.setReducedMotion (hasFlag flags appearanceReducedMotion)).setLightTheme
          (hasFlag flags appearanceLightTheme) } })
  | none =>
    if isNextTab event then s.nextTab.map fun s => (none, s)
    else if isOpenTab event then some (none, s.openTab.2)
    else
      let slot := s.activeSlot
      let (message, terminal) := (s.sessions slot).terminal.input event
      some (message.map fun message => message.withSession slot, s.onTerminal slot fun _ => terminal)

def sessionOutput (session : Fin maxTerminalSessions) (bytes : List UInt8) : TerminalService :=
  if (s.sessions session).isOpen then s.onTerminal session fun t => t.feed bytes else s

/-- The next row of a pane, if it is bound and its active session has one. -/
def paneRow (pane : Fin maxTerminalPanes) : Option (SurfaceRow × TerminalService) :=
  if (s.panes pane).isBound then
    match (s.sessions (s.panes pane).active).terminal.nextGridRow with
    | none => none
    | some (row, terminal) =>
      some (⟨(s.panes pane).surface, row⟩,
        { s.onTerminal (s.panes pane).active (fun _ => terminal) with renderCursor := pane + 1 })
  else none

/-- The panes take turns. -/
def nextGridRow : Option (SurfaceRow × TerminalService) :=
  (List.finRange maxTerminalPanes).findSome? fun step => s.paneRow (s.renderCursor + step)

/-- Every session that is shown blinks. -/
def blink (now : ℕ) : TerminalService :=
  (List.finRange maxTerminalPanes).foldl
    (fun s' pane => if (s.panes pane).isBound then s'.onTerminal (s.panes pane).active fun t => t.blink now else s') s

end TerminalService

end LogOS.Terminal
