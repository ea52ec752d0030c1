import LogOS.Flow.Lexer

/-!
# The parser of Flow

A parser by recursive descent, which fills the tables of a program.  Its depth is bounded by the length of the source: an expression
or a statement is parsed inside another one only after a token has been taken.
-/

namespace LogOS.Flow

open Lib Op

structure ParserState where
  cursor : ℕ
  lookahead : Option Token
  expressions : List ExprNode
  statements : List Statement
  callbackDepth : ℕ

def ParserState.new : ParserState := ⟨0, none, [], [], 0⟩

abbrev ParseOp := Op ParserState (Fault FlowParseError)

/-- A failure with an error of the parser. -/
def reject {α : Type} (error : FlowParseError) : ParseOp α := Op.fail (.error error)

section Parser

variable (source : List UInt8)

def peek : ParseOp Token := do
  let s ← Op.get
  match s.lookahead with
  | some token => pure token
  | none => do
    let next ← Op.lift ((lexNext source s.cursor).mapError Fault.error)
    Op.modify fun s => { s with cursor := next.2, lookahead := some next.1 }
    return next.1

def take : ParseOp Token := do
  let token ← peek source
  Op.modify fun s => { s with lookahead := none }
  return token

/-- `expect`; the kinds that are expected carry no data, so that equality is that of the discriminants. -/
def expect (expected : TokenKind) : ParseOp Token := do
  let token ← take source
  if token.kind = expected then pure token else reject (.unexpectedToken token.span)

def add (kind : ExprKind) (span : Span) : ParseOp ℕ := do
  let s ← Op.get
  if s.expressions.length = maxExprNodes then reject .tooManyExpressions
  else do
    Op.modify fun s => { s with expressions := s.expressions ++ [⟨kind, span⟩] }
    return s.expressions.length

/-- The parsers of what is inside an expression or a statement. -/
structure Inner where
  expression : ParseOp ℕ
  statement : ParseOp Unit

variable (inner : Inner)

/-- A round of the loop over the arguments of a call, with the arguments so far. -/
def parseArgument (args : List ℕ) : ParseOp (List ℕ ⊕ List ℕ) := do
  if args.length = maxArguments then do
    let token ← peek source
    reject (.tooManyArguments token.span)
  else do
    let argument ← inner.expression
    let token ← peek source
    if token.kind = .comma then do
      let _ ← take source
      return .inl (args ++ [argument])
    else return .inr (args ++ [argument])

def parseArguments : ParseOp (List ℕ) := do
  let token ← peek source
  if token.kind = .rightParen then pure [] else Op.iterate (parseArgument source inner) .stuck (source.length + 1) []

/-- A round of the loop of `parse_postfix`. -/
def parsePostfixStep (expression : ℕ) : ParseOp (ℕ ⊕ ℕ) := do
  let token ← peek source
  match token.kind with
  | .dot => do
    let _ ← take source
    let member ← take source
    match member.kind with
    | .identifier name => do
      let id ← add (.member expression name) member.span
      return .inl id
    | _ => reject (.unexpectedToken member.span)
  | .leftBracket => do
    let _ ← take source
    let key ← inner.expression
    let close ← expect source .rightBracket
    let id ← add (.index expression key) close.span
    return .inl id
  | .leftParen => do
    let _ ← take source
    let args ← parseArguments source inner
    let close ← expect source .rightParen
    let id ← add (.call expression args) close.span
    return .inl id
  | _ => return .inr expression

def parsePostfix (expression : ℕ) : ParseOp ℕ :=
  Op.iterate (parsePostfixStep source inner) .stuck (source.length + 1) expression

/-- A round of the loop over the statements of a body. -/
def parseBodyStep (_ : Unit) : ParseOp (Unit ⊕ Unit) := do
  let token ← peek source
  if token.kind = .rightBrace ∨ token.kind = .eof then return .inr ()
  else do
    inner.statement
    let token ← peek source
    if token.kind = .semicolon then do
      let _ ← take source
      return .inl ()
    else if token.kind = .rightBrace then return .inl ()
    else reject (.unexpectedToken token.span)

def parseBlock (parameter : List UInt8) (span : Span) : ParseOp ℕ := do
  let _ ← take source
  let s ← Op.get
  let bodyStart := s.statements.length
  Op.iterate (parseBodyStep source inner) .stuck (source.length + 1) ()
  Op.modify fun s => { s with callbackDepth := s.callbackDepth - 1 }
  let _ ← expect source .rightBrace
  let s ← Op.get
  add (.arrow parameter none bodyStart (s.statements.length - bodyStart)) span

def parseArrow (parameter : List UInt8) (span : Span) : ParseOp ℕ := do
  let s ← Op.get
  if s.callbackDepth ≥ maxCallbackDepth then reject (.callbackLimit span)
  else do
    Op.modify fun s => { s with callbackDepth := s.callbackDepth + 1 }
    let token ← peek source
    if token.kind = .leftBrace then parseBlock source inner parameter span
    else do
      let expression ← inner.expression
      Op.modify fun s => { s with callbackDepth := s.callbackDepth - 1 }
      add (.arrow parameter (some expression) 0 0) span

/-- `restore_state`, and the expression in parentheses. -/
def parseGrouped (save : ParserState) : ParseOp ℕ := do
  Op.modify fun s =>
    { s with
      cursor := save.cursor, lookahead := save.lookahead, expressions := s.expressions.take save.expressions.length,
      statements := s.statements.take save.statements.length }
  let expression ← inner.expression
  let _ ← expect source .rightParen
  return expression

def parseParenthesized (span : Span) : ParseOp ℕ := do
  let save ← Op.get
  let token ← peek source
  match token.kind with
  | .identifier parameter => do
    let _ ← take source
    let close ← peek source
    if close.kind = .rightParen then do
      let _ ← take source
      let arrow ← peek source
      if arrow.kind = .arrow then do
        let _ ← take source
        parseArrow source inner parameter span
      else parseGrouped source inner save
    else parseGrouped source inner save
  | _ => parseGrouped source inner save

def parsePrimary : ParseOp ℕ := do
  let token ← take source
  match token.kind with
  | .string value => add (.string value) token.span
  | .number value => add (.number value) token.span
  | .true => add (.bool true) token.span
  | .false => add (.bool false) token.span
  | .identifier name => add (.name name) token.span
  | .leftParen => parseParenthesized source inner token.span
  | _ => reject (.missingExpression token.span)

def parseExpression : ParseOp ℕ := do
  let token ← peek source
  if token.kind = .await then do
    let token ← take source
    let expression ← inner.expression
    add (.await expression) token.span
  else do
    let primary ← parsePrimary source inner
    parsePostfix source inner primary

/-- The kind of a statement that begins with the token, and the name that it declares or assigns. -/
def parseStatementKind (token : Token) : ParseOp (StmtKind × Option (List UInt8)) :=
  match token.kind with
  | .var => do
    let _ ← take source
    let nameToken ← take source
    match nameToken.kind with
    | .identifier name => do
      let _ ← expect source .equals
      let init ← parseExpression source inner
      return (.var init, some name)
    | _ => reject (.unexpectedToken nameToken.span)
  | .return => do
    let _ ← take source
    let expression ← parseExpression source inner
    return (.return expression, none)
  | .identifier name => do
    let _ ← take source
    let next ← peek source
    if next.kind = .equals then do
      let _ ← take source
      let init ← parseExpression source inner
      return (.assign init, some name)
    else do
      let id ← add (.name name) token.span
      let id ← parsePostfix source inner id
      return (.expression id, none)
  | _ => do
    let expression ← parseExpression source inner
    return (.expression expression, none)

def parseStatement : ParseOp Unit := do
  let token ← peek source
  let kind ← parseStatementKind source inner token
  let s ← Op.get
  if s.statements.length = maxStatements then reject .tooManyStatements
  else
    Op.modify fun s =>
      { s with statements := s.statements ++ [⟨kind.1, kind.2, token.span, s.callbackDepth != 0⟩] }

/-- The parsers of expressions and statements, of depth `n` at most. -/
def parsers : ℕ → Inner
  | 0 => ⟨Op.fail .stuck, Op.fail .stuck⟩
  | n + 1 => ⟨parseExpression source (parsers n), parseStatement source (parsers n)⟩

/-- A round of the loop of `parse`. -/
def parseStep (_ : Unit) : ParseOp (Unit ⊕ Unit) := do
  let token ← peek source
  if token.kind = .eof then return .inr ()
  else do
    (parsers source (source.length + 1)).statement
    let token ← peek source
    if token.kind = .semicolon then do
      let _ ← take source
      return .inl ()
    else if token.kind = .eof ∨ token.kind = .rightBrace then return .inl ()
    else reject (.unexpectedToken token.span)

def parseProgram : ParseOp Unit := Op.iterate (parseStep source) .stuck (source.length + 1) ()

end Parser

/-- `Program::parse` -/
def Program.parse (source : List UInt8) : Except (Fault FlowParseError) Program :=
  if source.length > maxSourceBytes then .error (.error .tooLong)
  else
    match parseProgram source .new with
    | (.error fault, _) => .error fault
    | (.ok (), s) => .ok ⟨source, s.expressions, s.statements⟩

end LogOS.Flow
