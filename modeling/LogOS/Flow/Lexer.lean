import LogOS.Flow.Syntax
import LogOS.Lib.Bytes

/-!
# The lexer of Flow

Tokens are cut from the source one at a time.  A token that is not the end of the source takes at least one byte of it.
-/

namespace LogOS.Flow

open Lib List

inductive FlowParseError where
  | tooLong
  | invalidToken (span : Span)
  | unexpectedToken (span : Span)
  | unterminatedString (span : Span)
  | tooManyExpressions
  | tooManyStatements
  | tooManyArguments (span : Span)
  | callbackLimit (span : Span)
  | missingExpression (span : Span)
  deriving DecidableEq, Repr

inductive TokenKind where
  | identifier (name : List UInt8)
  | string (value : List UInt8)
  | number (value : ℕ)
  | var | await | return | true | false
  | dot | comma | semicolon | equals | arrow
  | leftParen | rightParen | leftBracket | rightBracket | leftBrace | rightBrace
  | eof
  deriving DecidableEq, Repr

structure Token where
  kind : TokenKind
  span : Span
  deriving DecidableEq, Repr

/-! ## Bytes -/

def isAsciiWhitespace (byte : UInt8) : Bool := byte == 0x20 || byte == 0x09 || byte == 0x0a || byte == 0x0c || byte == 0x0d
def isAsciiDigit (byte : UInt8) : Bool := decide (0x30 ≤ byte ∧ byte ≤ 0x39)
def isAsciiAlphabetic (byte : UInt8) : Bool := decide (0x41 ≤ byte ∧ byte ≤ 0x5a) || decide (0x61 ≤ byte ∧ byte ≤ 0x7a)
def isAsciiAlphanumeric (byte : UInt8) : Bool := isAsciiAlphabetic byte || isAsciiDigit byte

/-- A byte that goes on with an identifier: alphanumeric, `_` or `-`. -/
def isNameByte (byte : UInt8) : Bool := isAsciiAlphanumeric byte || byte == 0x5f || byte == 0x2d

/-! ## Tokens -/

/-- The digits after the first one: the value, and the number of digits read.  The error is at the digit that makes the value too
large for 16 bits. -/
def lexDigits : List UInt8 → ℕ → ℕ → Except ℕ (ℕ × ℕ)
  | [], value, count => .ok (value, count)
  | byte :: rest, value, count =>
    if isAsciiDigit byte then
      let next := value * 10 + (byte.toNat - 0x30)
      if next < 2 ^ 16 then lexDigits rest next (count + 1) else .error count
    else .ok (value, count)

def keyword (value : List UInt8) : TokenKind :=
  if value = ascii "var" then .var
  else if value = ascii "await" then .await
  else if value = ascii "return" then .return
  else if value = ascii "true" then .true
  else if value = ascii "false" then .false
  else .identifier value

/-- The punctuation that is one byte. -/
def punctuation (byte : UInt8) : Option TokenKind :=
  if byte = 0x2e then some .dot
  else if byte = 0x2c then some .comma
  else if byte = 0x3b then some .semicolon
  else if byte = 0x28 then some .leftParen
  else if byte = 0x29 then some .rightParen
  else if byte = 0x5b then some .leftBracket
  else if byte = 0x5d then some .rightBracket
  else if byte = 0x7b then some .leftBrace
  else if byte = 0x7d then some .rightBrace
  else none

/-- The token that begins with `byte`, where `rest` follows: its kind and the number of bytes of `rest` that belong to it. -/
def lexToken (start : ℕ) (byte : UInt8) (rest : List UInt8) : Except FlowParseError (TokenKind × ℕ) :=
  match punctuation byte with
  | some kind => .ok (kind, 0)
  | none =>
    if byte = 0x3d then if rest.head? = some 0x3e then .ok (.arrow, 1) else .ok (.equals, 0)
    else if byte = 0x22 then
      let value := rest.takeWhile fun byte => byte != 0x22 && !decide (byte < 0x20)
      match rest.drop value.length with
      | [] => .error (.unterminatedString ⟨start, start + 1 + value.length⟩)
      | stop :: _ =>
        if stop = 0x22 then .ok (.string value, value.length + 1) else .error (.invalidToken ⟨start, start + 1 + value.length⟩)
    else if isAsciiDigit byte then
      match lexDigits rest (byte.toNat - 0x30) 0 with
      | .error count => .error (.invalidToken ⟨start, start + 1 + count⟩)
      | .ok (value, count) => .ok (.number value, count)
    else if isAsciiAlphabetic byte || byte == 0x5f then
      let tail := rest.takeWhile isNameByte
      .ok (keyword (byte :: tail), tail.length)
    else .error (.invalidToken ⟨start, start + 1⟩)

/-- `Lexer::next`: the next token from the cursor on, and the cursor after it. -/
def lexNext (source : List UInt8) (cursor : ℕ) : Except FlowParseError (Token × ℕ) :=
  let start := cursor + ((source.drop cursor).takeWhile isAsciiWhitespace).length
  match source.drop start with
  | [] => .ok (⟨.eof, ⟨start, start⟩⟩, start)
  | byte :: rest =>
    match lexToken start byte rest with
    | .error error => .error error
    | .ok (kind, count) => .ok (⟨kind, ⟨start, start + 1 + count⟩⟩, start + 1 + count)

/-! ## What a token takes -/

lemma lexDigits_count_le : ∀ {rest : List UInt8} {value count value' count' : ℕ},
    lexDigits rest value count = .ok (value', count') → count' ≤ count + rest.length
  | [], _, _, _, _, h => by
    cases h
    simp
  | byte :: rest, value, count, _, _, h => by
    unfold lexDigits at h
    dsimp only at h
    split at h
    · split at h
      · have := lexDigits_count_le h
        simp only [length_cons]
        omega
      · cases h
    · cases h
      omega

lemma punctuation_ne_eof {byte : UInt8} {kind : TokenKind} (h : punctuation byte = some kind) : kind ≠ .eof := by
  unfold punctuation at h
  rintro rfl
  split_ifs at h <;> cases h

lemma keyword_ne_eof (value : List UInt8) : keyword value ≠ .eof := by
  unfold keyword
  split_ifs <;> exact TokenKind.noConfusion

lemma lexToken_spec {start : ℕ} {byte : UInt8} {rest : List UInt8} {kind : TokenKind} {count : ℕ}
    (h : lexToken start byte rest = .ok (kind, count)) : kind ≠ .eof ∧ count ≤ rest.length := by
  unfold lexToken at h
  split at h
  · rename_i hpunctuation
    cases h
    exact ⟨punctuation_ne_eof hpunctuation, Nat.zero_le _⟩
  split at h
  · split at h
    · rename_i hnext
      cases h
      cases rest with
      | nil => cases hnext
      | cons next rest => simp
    · cases h
      exact ⟨TokenKind.noConfusion, Nat.zero_le _⟩
  · split at h
    · dsimp only at h
      split at h
      · cases h
      rename_i stop tail hdrop
      split at h
      · cases h
        have hlen := congrArg length hdrop
        rw [length_drop, length_cons] at hlen
        exact ⟨TokenKind.noConfusion, by omega⟩
      · cases h
    · split at h
      · split at h
        · cases h
        · rename_i hdigits
          cases h
          have := lexDigits_count_le hdigits
          exact ⟨TokenKind.noConfusion, by omega⟩
      · split at h
        · cases h
          exact ⟨keyword_ne_eof _, ( takeWhile_prefix _).length_le⟩
        · cases h

/-- What the lexer returns: the token begins at or after the cursor, and takes a byte of the source unless it is the end. -/
structure Lexed (source : List UInt8) (cursor : ℕ) (token : Token) (cursor' : ℕ) : Prop where
  start_ge : cursor ≤ token.span.start
  start_le : token.span.start ≤ cursor'
  stop_le : cursor' ≤ max cursor source.length
  progress : token.kind ≠ .eof → token.span.start < cursor'

lemma lexNext_spec {source : List UInt8} {cursor : ℕ} {token : Token} {cursor' : ℕ}
    (h : lexNext source cursor = .ok (token, cursor')) : Lexed source cursor token cursor' := by
  have hspaces : ((source.drop cursor).takeWhile isAsciiWhitespace).length ≤ source.length - cursor := by
    have := ( takeWhile_prefix (l := source.drop cursor) isAsciiWhitespace).length_le
    rwa [length_drop] at this
  unfold lexNext at h
  dsimp only at h
  split at h
  · cases h
    exact ⟨by dsimp only; omega, le_refl _, by omega, fun hne => absurd rfl hne⟩
  rename_i byte rest hdrop
  have hlen := congrArg length hdrop
  rw [length_drop, length_cons] at hlen
  split at h
  · cases h
  · rename_i kind count htoken
    cases h
    have hcount := (lexToken_spec htoken).2
    exact ⟨by dsimp only; omega, by dsimp only; omega, by omega, fun _ => by dsimp only; omega⟩

end LogOS.Flow
