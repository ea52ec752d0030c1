import LogOS.Lib.Op

/-!
# Flow programs

The types of the Flow language, and the tables in which a parsed program is kept: expressions refer to each other by their index in
one table, and the statements of a callback's body are a range of the one table of statements.
-/

namespace LogOS.Flow

/-- The bytes of a text. -/
def ascii (text : String) : List UInt8 := text.toUTF8.data.toList

def maxSourceBytes : ℕ := 256
def maxExprNodes : ℕ := 64
def maxStatements : ℕ := 16
def maxVariables : ℕ := 8
def maxArguments : ℕ := 3
def maxVariableNameBytes : ℕ := 24
def maxFilePathBytes : ℕ := 256
def maxPromises : ℕ := 4
def maxCallbackDepth : ℕ := 4
def maxValueBytes : ℕ := 8192

structure Span where
  start : ℕ
  stop : ℕ
  deriving DecidableEq, Repr

def Span.empty : Span := ⟨0, 0⟩

/-! ## Types -/

inductive NamespaceKind where
  | filesystem | network | system | supervisor | package | program | device | user
  deriving DecidableEq, Repr

inductive PromiseType where
  | void | bool | number | string | bytes | response | fileHandle
  deriving DecidableEq, Repr

inductive FlowType where
  | void | bool | number | string | bytes
  | namespace (kind : NamespaceKind)
  | service | fileHandle | response
  | promise (kind : PromiseType)
  | callback
  deriving DecidableEq, Repr

def PromiseType.valueType : PromiseType → FlowType
  | .void => .void
  | .bool => .bool
  | .number => .number
  | .string => .string
  | .bytes => .bytes
  | .response => .response
  | .fileHandle => .fileHandle

/-! ## Tables -/

/-- The kinds of expressions.  An `ℕ` of the source is an index of the table of expressions. -/
inductive ExprKind where
  | empty
  | string (value : List UInt8)
  | number (value : ℕ)
  | bool (value : Bool)
  | name (name : List UInt8)
  | member (base : ℕ) (name : List UInt8)
  | index (base key : ℕ)
  | call (callee : ℕ) (args : List ℕ)
  | await (expression : ℕ)
  | arrow (parameter : List UInt8) (expression : Option ℕ) (bodyStart bodyLen : ℕ)
  deriving DecidableEq, Repr

structure ExprNode where
  kind : ExprKind
  span : Span
  deriving DecidableEq, Repr

def ExprNode.empty : ExprNode := ⟨.empty, .empty⟩

inductive StmtKind where
  | empty
  | var (init : ℕ)
  | assign (init : ℕ)
  | expression (id : ℕ)
  | return (id : ℕ)
  deriving DecidableEq, Repr

structure Statement where
  kind : StmtKind
  name : Option (List UInt8)
  span : Span
  callback : Bool
  deriving DecidableEq, Repr

/-- A program; the tables are the parts in use of the arrays of the source. -/
structure Program where
  source : List UInt8
  expressions : List ExprNode
  statements : List Statement
  deriving DecidableEq, Repr

namespace Program

def expression (program : Program) (id : ℕ) : ExprNode := program.expressions.getD id .empty

/-- The statements `start .. start + count`. -/
def body (program : Program) (start count : ℕ) : List Statement := (program.statements.drop start).take count

end Program

/-- The expression of a statement. -/
def StmtKind.id? : StmtKind → Option ℕ
  | .empty => none
  | .var id | .assign id | .expression id | .return id => some id

/-- How a computation of bounded depth can end badly: with an error of the program that is modelled, or because the bound was too
small. -/
inductive Fault (ε : Type) where
  | error (error : ε)
  | stuck
  deriving DecidableEq, Repr

end LogOS.Flow
