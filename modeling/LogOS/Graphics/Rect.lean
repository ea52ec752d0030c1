import Mathlib

/-!
# Surfaces and rectangles

`SurfaceHandle` and `GuiRect` of the ABI, with the operations of Display on rectangles.
-/

namespace LogOS.Graphics

structure SurfaceHandle where
  slot : UInt16
  generation : UInt16
  owner : UInt32
  deriving DecidableEq, Repr, Inhabited

namespace SurfaceHandle

/-- `SurfaceHandle::EMPTY`. -/
def empty : SurfaceHandle := ⟨0xffff, 0, 0⟩

def isValid (h : SurfaceHandle) : Bool := h.slot != 0xffff && h.generation != 0 && h.owner != 0

end SurfaceHandle

structure GuiRect where
  x : Int32
  y : Int32
  width : UInt32
  height : UInt32
  deriving DecidableEq, Repr, Inhabited

namespace GuiRect

/-- `GuiRect::EMPTY`. -/
def empty : GuiRect := ⟨0, 0, 0, 0⟩

def isEmpty (r : GuiRect) : Bool := r.width == 0 || r.height == 0

end GuiRect

end LogOS.Graphics
