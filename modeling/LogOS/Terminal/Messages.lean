import Mathlib
import LogOS.Abi

/-!
# Input events and byte messages

The messages of the ABI that Terminal and Session exchange with each other and with their clients, in decoded form.
-/

namespace LogOS.Terminal

open Abi

inductive MessageKind where
  | key | text | paste | sessionInput | sessionOutput | renderCells | fullRedraw | storageRequest | storageResponse
  | networkRequest | networkResponse | completionRequest | completionResponse | fetchRequest | fetchControl | fetchResponse
  | flowProgress | flowControl | fetchBodyChunk | deviceRequest | deviceResponse | userRequest | userResponse
  | userStorageRequest | userStorageResponse | guiSurface | guiDraw | guiHook | guiSession | pointer | appearance
  | sessionClose
  deriving DecidableEq, Repr

/-! ## Byte messages -/

abbrev maxShellSessions : ℕ := 4

instance : NeZero maxShellSessions := ⟨Nat.succ_ne_zero 3⟩

/-- `IpcBytes`, with the two parts of its flags apart and only the bytes in use. -/
structure IpcBytes where
  kind : MessageKind
  more : Bool
  session : Fin maxShellSessions
  bytes : List UInt8
  deriving DecidableEq, Repr

namespace IpcBytes

def empty (kind : MessageKind) : IpcBytes := ⟨kind, false, 0, []⟩

def fromBytes (kind : MessageKind) (bytes : List UInt8) : Option IpcBytes :=
  if maxIpcBytes < bytes.length then none else some ⟨kind, false, 0, bytes⟩

def withSession (message : IpcBytes) (session : Fin maxShellSessions) : IpcBytes := { message with session := session }

end IpcBytes

/-! ## Input events -/

inductive KeyState where
  | pressed | released | repeat
  deriving DecidableEq, Repr

abbrev maxTextBytes : ℕ := 64

def appearanceReducedMotion : UInt16 := 1
def appearanceLightTheme : UInt16 := 2
def appearanceFlagsMask : UInt16 := appearanceReducedMotion ||| appearanceLightTheme

def modShift : UInt16 := 1
def modCtrl : UInt16 := 2
def modAlt : UInt16 := 4
def modCapsLock : UInt16 := 16

def pointerButtonsMask : UInt16 := 7

/-- The flag is set. -/
def hasFlag (flags flag : UInt16) : Bool := flags &&& flag != 0

structure InputMessage where
  kind : MessageKind
  state : KeyState
  code : UInt16
  modifiers : UInt16
  len : UInt16
  text : Vector UInt8 maxTextBytes
  deriving DecidableEq, Repr

namespace InputMessage

/-- The flags of a well-formed appearance message. -/
def appearanceFlags (event : InputMessage) : Option UInt16 :=
  if event.kind ≠ .appearance ∨ event.state ≠ .pressed ∨ event.code ≠ 0 ∨ event.len ≠ 0 ∨
      event.modifiers &&& ~~~appearanceFlagsMask ≠ 0 then none
  else some event.modifiers

/-- The wheel notches of a pointer event. -/
def pointerWheel (event : InputMessage) : Option Int8 :=
  if event.kind ≠ .pointer ∨ pointerButtonsMask < event.len then none else some (event.text.get ⟨0, by decide⟩).toInt8

def textBytes (event : InputMessage) : Option (List UInt8) :=
  if (event.kind = .text ∨ event.kind = .paste) ∧ event.len.toNat ≤ maxTextBytes then
    some (event.text.toList.take event.len.toNat)
  else none

/-- A key was pressed, or is repeated. -/
def isKeyDown (event : InputMessage) : Bool := event.kind = .key ∧ (event.state = .pressed ∨ event.state = .repeat)

end InputMessage

namespace KeyCode

def escape : UInt16 := 1
def enter : UInt16 := 2
def backspace : UInt16 := 3
def tab : UInt16 := 4
def delete : UInt16 := 7
def home : UInt16 := 8
def endKey : UInt16 := 9
def pageUp : UInt16 := 10
def pageDown : UInt16 := 11
def up : UInt16 := 12
def down : UInt16 := 13
def left : UInt16 := 14
def right : UInt16 := 15

def character (byte : UInt8) : UInt16 := 0x200 + byte.toUInt16

def characterByte (code : UInt16) : Option UInt8 :=
  if 0x200 ≤ code ∧ code ≤ 0x2ff then some (code - 0x200).toUInt8 else none

end KeyCode

end LogOS.Terminal
