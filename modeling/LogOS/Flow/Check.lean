import LogOS.Flow.Syntax

/-!
# The type checker of Flow

The checker goes down the table of expressions from a parent to its children, so that its depth is bounded by the index of the
expression that it starts from.
-/

namespace LogOS.Flow

inductive FlowTypeError where
  | unknownVariable (span : Span)
  | unknownMember (span : Span)
  | invalidCall (span : Span)
  | wrongArity (span : Span)
  | expected (span : Span) (expected actual : FlowType)
  | expectedPromise (span : Span)
  | invalidReturn (span : Span)
  | variableLimit (span : Span)
  deriving DecidableEq, Repr

/-! ## Operations -/

structure OperationSignature where
  «namespace» : NamespaceKind
  name : List UInt8
  arguments : List FlowType
  minimumArgumentCount : ℕ
  argumentCount : ℕ
  result : FlowType
  deriving DecidableEq, Repr

def OperationSignature.new (kind : NamespaceKind) (name : String) (arguments : List FlowType) (argumentCount : ℕ) (result : FlowType) :
    OperationSignature := ⟨kind, ascii name, arguments, argumentCount, argumentCount, result⟩

/-- The entries of `OperationRegistry::lookup`. -/
def operationRegistry : List OperationSignature :=
  [.new .filesystem "open" [.string, .void, .void] 1 .fileHandle,
    .new .filesystem "touch" [.string, .void, .void] 1 .fileHandle,
    .new .filesystem "list" [.void, .void, .void] 0 (.promise .string),
    .new .filesystem "remove" [.string, .void, .void] 1 (.promise .void),
    .new .device "list" [.void, .void, .void] 0 (.promise .string),
    .new .user "claim" [.string, .string, .void] 2 (.promise .string),
    .new .user "create" [.string, .string, .void] 2 (.promise .string),
    .new .user "login" [.string, .string, .void] 2 (.promise .string),
    .new .user "logout" [.void, .void, .void] 0 (.promise .string),
    .new .user "rename" [.string, .void, .void] 1 (.promise .string),
    .new .user "password" [.string, .void, .void] 1 (.promise .string),
    .new .user "derive" [.string, .void, .void] 1 (.promise .string),
    .new .user "revoke" [.void, .void, .void] 0 (.promise .string),
    .new .filesystem "move" [.string, .string, .void] 2 (.promise .void),
    { OperationSignature.new .network "fetch" [.string, .string, .void] 2 (.promise .response) with minimumArgumentCount := 1 },
    .new .network "status" [.void, .void, .void] 0 (.promise .string),
    .new .network "ping" [.string, .void, .void] 1 (.promise .string),
    .new .network "tcp-probe" [.string, .number, .void] 2 (.promise .string),
    .new .system "version" [.void, .void, .void] 0 (.promise .string),
    .new .system "uname" [.void, .void, .void] 0 (.promise .string),
    .new .system "shutdown" [.void, .void, .void] 0 (.promise .void),
    .new .system "reboot" [.void, .void, .void] 0 (.promise .void),
    .new .supervisor "status" [.void, .void, .void] 0 (.promise .string),
    .new .supervisor "name" [.void, .void, .void] 0 (.promise .string),
    .new .supervisor "version" [.void, .void, .void] 0 (.promise .string),
    .new .supervisor "start" [.void, .void, .void] 0 (.promise .void),
    .new .supervisor "stop" [.void, .void, .void] 0 (.promise .void),
    .new .supervisor "restart" [.void, .void, .void] 0 (.promise .void),
    .new .package "list" [.void, .void, .void] 0 (.promise .string),
    .new .package "info" [.string, .void, .void] 1 (.promise .string),
    .new .package "install" [.string, .void, .void] 1 (.promise .string),
    .new .program "start" [.string, .void, .void] 1 (.promise .string),
    .new .program "status" [.string, .void, .void] 1 (.promise .string),
    .new .program "stop" [.string, .void, .void] 1 (.promise .string)]

/-- `OperationRegistry::lookup` -/
def lookup (kind : NamespaceKind) (name : List UInt8) : Option OperationSignature :=
  operationRegistry.find? fun entry => entry.namespace == kind && entry.name == name

/-! ## Variables -/

structure Variable where
  name : List UInt8
  kind : FlowType
  deriving DecidableEq, Repr

/-- The variables in use, in the order of their declaration. -/
abbrev Variables := List Variable

namespace Variables

def find (vars : Variables) (name : List UInt8) : Option FlowType :=
  (List.find? (fun entry => entry.name == name) vars).map (·.kind)

def slot (vars : Variables) (name : List UInt8) : Option ℕ := List.findIdx? (fun entry => entry.name == name) vars

def assign (vars : Variables) (name : List UInt8) (kind : FlowType) (span : Span) : Except FlowTypeError Variables :=
  match vars.find name with
  | none => .error (.unknownVariable span)
  | some declared => if declared = kind then .ok vars else .error (.expected span declared kind)

def declare (vars : Variables) (name : List UInt8) (kind : FlowType) (span : Span) : Except FlowTypeError Variables :=
  if name = [] ∨ name.length > maxVariableNameBytes then .error (.variableLimit span)
  else if (vars.find name).isSome then vars.assign name kind span
  else if vars.length = maxVariables then .error (.variableLimit span)
  else .ok (vars ++ [⟨name, kind⟩])

end Variables

/-! ## Checking -/

abbrev Checked (α : Type) := Except (Fault FlowTypeError) α

/-- A failure with an error of the checker. -/
def mistyped {α : Type} (error : FlowTypeError) : Checked α := .error (.error error)

/-- A step of the checker that cannot run out of depth. -/
def checked {α : Type} (result : Except FlowTypeError α) : Checked α := result.mapError .error

/-- The namespace that a name without a variable stands for. -/
def namespaceOf (name : List UInt8) : Option NamespaceKind :=
  if name = ascii "fs" then some .filesystem
  else if name = ascii "net" then some .network
  else if name = ascii "sys" then some .system
  else if name = ascii "service" then some .supervisor
  else if name = ascii "pkg" then some .package
  else if name = ascii "program" then some .program
  else if name = ascii "device" then some .device
  else if name = ascii "user" then some .user
  else none

def nameType (vars : Variables) (name : List UInt8) (span : Span) : Except FlowTypeError FlowType :=
  match vars.find name with
  | some kind => .ok kind
  | none =>
    match namespaceOf name with
    | some kind => .ok (.namespace kind)
    | none => .error (.unknownVariable span)

def memberType (base : FlowType) (name : List UInt8) (span : Span) : Except FlowTypeError FlowType :=
  match base with
  | .response =>
    if name = ascii "body" then .ok .bytes
    else if name = ascii "status" then .ok .number
    else .error (.unknownMember span)
  | .namespace .network => if name = ascii "status" then .ok .callback else .error (.unknownMember span)
  | .promise _ => if name = ascii "then" ∨ name = ascii "cancel" then .ok .callback else .error (.unknownMember span)
  | .fileHandle =>
    if name = ascii "create" ∨ name = ascii "read" ∨ name = ascii "write" then .ok .callback else .error (.unknownMember span)
  | .service => if (lookup .supervisor name).isSome then .ok .callback else .error (.unknownMember span)
  | _ => .error (.unknownMember span)

/-- What a call takes and returns: between `minimum` and all of the `arguments`, where an argument may have one of several types, the
last of which a message names. -/
structure CallShape where
  minimum : ℕ
  arguments : List (List FlowType)
  result : FlowType

/-- A call with as many arguments as there are types. -/
def CallShape.fixed (arguments : List FlowType) (result : FlowType) : CallShape :=
  ⟨arguments.length, arguments.map fun kind => [kind], result⟩

/-- The calls on a namespace. -/
def namespaceShape (kind : NamespaceKind) (name : List UInt8) : Option CallShape :=
  match kind with
  | .filesystem =>
    if name = ascii "open" ∨ name = ascii "touch" then some (.fixed [.string] .fileHandle)
    else if name = ascii "list" then some ⟨0, [[.string]], .promise .string⟩
    else if name = ascii "remove" then some (.fixed [.string] (.promise .void))
    else if name = ascii "move" then some (.fixed [.string, .string] (.promise .void))
    else none
  | .network =>
    if name = ascii "fetch" then some ⟨1, [[.string], [.string]], .promise .response⟩
    else if name = ascii "status" then some (.fixed [] (.promise .string))
    else if name = ascii "ping" then some (.fixed [.string] (.promise .string))
    else if name = ascii "tcp-probe" then some (.fixed [.string, .number] (.promise .string))
    else none
  | .system =>
    if name = ascii "version" ∨ name = ascii "uname" then some (.fixed [] (.promise .string))
    else if name = ascii "shutdown" ∨ name = ascii "reboot" then some (.fixed [] (.promise .void))
    else none
  | .package =>
    if name = ascii "list" then some (.fixed [] (.promise .string))
    else if name = ascii "info" then some (.fixed [.string] (.promise .string))
    else if name = ascii "install" then some (.fixed [.string] (.promise .string))
    else none
  | .program =>
    if name = ascii "start" ∨ name = ascii "status" ∨ name = ascii "stop" then some (.fixed [.string] (.promise .string)) else none
  | .device => if name = ascii "list" then some (.fixed [] (.promise .string)) else none
  | .user =>
    (lookup .user name).map fun signature =>
      ⟨signature.minimumArgumentCount, (signature.arguments.take signature.argumentCount).map fun kind => [kind], signature.result⟩
  | .supervisor => none

def fileHandleShape (name : List UInt8) : Option CallShape :=
  if name = ascii "create" then some (.fixed [] (.promise .void))
  else if name = ascii "read" then some (.fixed [] (.promise .bytes))
  else if name = ascii "write" then some ⟨1, [[.string, .bytes]], .promise .void⟩
  else none

def serviceShape (name : List UInt8) : Option CallShape :=
  if name = ascii "status" ∨ name = ascii "name" ∨ name = ascii "version" then some (.fixed [] (.promise .string))
  else if name = ascii "start" ∨ name = ascii "stop" ∨ name = ascii "restart" then some (.fixed [] (.promise .void))
  else none

/-- The calls on a value of the type, those on a promise apart. -/
def callShape (base : FlowType) (name : List UInt8) : Option CallShape :=
  match base with
  | .namespace kind => namespaceShape kind name
  | .fileHandle => fileHandleShape name
  | .service => serviceShape name
  | _ => none

/-- The calls of a name. -/
def functionShape (name : List UInt8) : Option CallShape :=
  if name = ascii "clear" then some (.fixed [] .void)
  else if name = ascii "echo" then some (.fixed [.string] .string)
  else if name = ascii "help" then some ⟨0, [[.string]], .string⟩
  else none

/-- The promise of a callback that returns a value of the type. -/
def thenType (callback : FlowType) (span : Span) : Except FlowTypeError FlowType :=
  match callback with
  | .promise kind => .ok (.promise kind)
  | .void => .ok (.promise .void)
  | .bool => .ok (.promise .bool)
  | .number => .ok (.promise .number)
  | .string => .ok (.promise .string)
  | .bytes => .ok (.promise .bytes)
  | .response => .ok (.promise .response)
  | .fileHandle => .ok (.promise .fileHandle)
  | _ => .error (.invalidCall span)

section Checker

variable (program : Program)

section Inner

variable (exprType : Variables → ℕ → Checked FlowType)

/-- The arguments have the types, in order. -/
def checkArguments (vars : Variables) (span : Span) : List (List FlowType) → List ℕ → Checked Unit
  | expected :: rest, arg :: args => do
    let actual ← exprType vars arg
    if actual ∈ expected then checkArguments vars span rest args
    else mistyped (.expected span (expected.getLastD .void) actual)
  | _, _ => .ok ()

def checkShape (vars : Variables) (shape : CallShape) (args : List ℕ) (span : Span) : Checked FlowType :=
  if args.length < shape.minimum ∨ args.length > shape.arguments.length then mistyped (.wrongArity span)
  else do
    checkArguments exprType vars span shape.arguments args
    return shape.result

/-- A round of the loop of `check_statements`, for a statement that is not skipped. -/
def checkStatement (vars : Variables) (callback : Bool) (statement : Statement) : Checked (FlowType × Variables) :=
  match statement.kind with
  | .empty => .ok (.void, vars)
  | .var init => do
    let kind ← exprType vars init
    let vars ← checked (vars.declare (statement.name.getD []) kind statement.span)
    return (.void, vars)
  | .assign init => do
    let kind ← exprType vars init
    let vars ← checked (vars.assign (statement.name.getD []) kind statement.span)
    return (.void, vars)
  | .expression id => do
    let kind ← exprType vars id
    return (kind, vars)
  | .return id =>
    if callback then do
      let kind ← exprType vars id
      return (kind, vars)
    else mistyped (.invalidReturn statement.span)

/-- `check_statements`, with the type and the variables so far. -/
def checkStatements (callback : Bool) : List Statement → FlowType × Variables → Checked (FlowType × Variables)
  | [], state => .ok state
  | statement :: rest, state =>
    if statement.callback = callback then do
      let state ← checkStatement exprType state.2 callback statement
      checkStatements callback rest state
    else checkStatements callback rest state

/-- The type of the body of a callback. -/
def bodyType (vars : Variables) (expression : Option ℕ) (bodyStart bodyLen : ℕ) : Checked FlowType :=
  match expression with
  | some expression => exprType vars expression
  | none => do
    let state ← checkStatements exprType true (program.body bodyStart bodyLen) (.void, vars)
    return state.1

/-- The call of `then` on a promise. -/
def thenCall (vars : Variables) (result : PromiseType) (args : List ℕ) (span : Span) : Checked FlowType :=
  match args with
  | [arg] =>
    let callback := program.expression arg
    match callback.kind with
    | .arrow parameter expression bodyStart bodyLen => do
      let inside ← checked (vars.declare parameter result.valueType callback.span)
      let kind ← bodyType program exprType inside expression bodyStart bodyLen
      checked (thenType kind span)
    | _ => do
      let actual ← exprType vars arg
      mistyped (.expected span .callback actual)
  | _ => mistyped (.wrongArity span)

/-- The call of a member of a value. -/
def memberCall (vars : Variables) (base : FlowType) (name : List UInt8) (args : List ℕ) (span : Span) : Checked FlowType :=
  match base with
  | .promise result =>
    if name = ascii "cancel" then checkShape exprType vars (.fixed [] (.promise .void)) args span
    else if name = ascii "then" then thenCall program exprType vars result args span
    else mistyped (.invalidCall span)
  | .namespace kind =>
    if (lookup kind name).isNone then mistyped (.unknownMember span)
    else
      match callShape base name with
      | some shape => checkShape exprType vars shape args span
      | none => mistyped (.invalidCall span)
  | .service =>
    if (lookup .supervisor name).isNone then mistyped (.unknownMember span)
    else
      match callShape base name with
      | some shape => checkShape exprType vars shape args span
      | none => mistyped (.invalidCall span)
  | base =>
    match callShape base name with
    | some shape => checkShape exprType vars shape args span
    | none => mistyped (.invalidCall span)

def callType (vars : Variables) (callee : ℕ) (args : List ℕ) (span : Span) : Checked FlowType :=
  match (program.expression callee).kind with
  | .member base name => do
    let base ← exprType vars base
    memberCall program exprType vars base name args span
  | .name name =>
    match functionShape name with
    | some shape => checkShape exprType vars shape args span
    | none => mistyped (.invalidCall span)
  | _ => mistyped (.invalidCall span)

/-- The end of the check of an index: the base is looked up. -/
def indexType (vars : Variables) (base : ℕ) (key : FlowType) (span : Span) : Checked FlowType := do
  let kind ← exprType vars base
  if (kind = .namespace .supervisor ∨ kind = .service) ∧ key = .string then return .service
  else mistyped (.unknownMember span)

/-- A step of `expr_type`. -/
def nodeType (vars : Variables) (node : ExprNode) : Checked FlowType :=
  match node.kind with
  | .empty => mistyped (.invalidCall node.span)
  | .string _ => .ok .string
  | .number _ => .ok .number
  | .bool _ => .ok .bool
  | .name name => checked (nameType vars name node.span)
  | .index base key => do
    let key ← exprType vars key
    match (program.expression base).kind with
    | .member inner name =>
      if name = ascii "interface" then do
        let kind ← exprType vars inner
        if kind = .namespace .network ∧ key = .string then return .service
        else indexType exprType vars base key node.span
      else indexType exprType vars base key node.span
    | _ => indexType exprType vars base key node.span
  | .member base name => do
    let base ← exprType vars base
    checked (memberType base name node.span)
  | .call callee args => callType program exprType vars callee args node.span
  | .await expression => do
    let kind ← exprType vars expression
    match kind with
    | .promise kind => return kind.valueType
    | _ => mistyped (.expectedPromise node.span)
  | .arrow _ _ _ _ => .ok .callback

end Inner

/-- `expr_type`, of depth `n` at most. -/
def exprType : ℕ → Variables → ℕ → Checked FlowType
  | 0, _, _ => .error .stuck
  | n + 1, vars, id => nodeType program (exprType n) vars (program.expression id)

/-- `type_check`: the type of the program, and the variables after it. -/
def typeCheck (vars : Variables) : Checked (FlowType × Variables) :=
  checkStatements (exprType program maxExprNodes) false program.statements (.void, vars)

end Checker

end LogOS.Flow
