import LogOS.Flow.Parser

/-!
# Parsed programs are well founded

In the tables that the parser fills, an expression refers only to expressions before it, and the body of a callback is a range of
statements whose expressions come before the callback.  Every call of the parser takes a token before it goes deeper, so that the
bound on its depth is never reached.
-/

namespace LogOS.Flow

open Lib Op ParserState List Nat

/-! ## Tables -/

variable {statements : List Statement}

/-- The statements have expressions below the bound. -/
def StatementsBelow (statements : List Statement) (bound : ℕ) : Prop :=
  ∀ statement ∈ statements, ∀ id, statement.kind.id? = some id → id < bound

/-- What the expression `id` may refer to. -/
def ExprKind.Refers (statements : List Statement) (id : ℕ) : ExprKind → Prop
  | .member base _ => base < id
  | .index base key => base < id ∧ key < id
  | .call callee args => callee < id ∧ ∀ arg ∈ args, arg < id
  | .await expression => expression < id
  | .arrow _ expression bodyStart bodyLen =>
    (∀ e, expression = some e → e < id) ∧ bodyStart + bodyLen ≤ statements.length ∧
      StatementsBelow ((statements.drop bodyStart).take bodyLen) id ∧
      ∀ statement ∈ (statements.drop bodyStart).take bodyLen, statement.callback = true
  | _ => True

/-- The tables of a program are well founded. -/
structure Tables (expressions : List ExprNode) (statements : List Statement) : Prop where
  refers : ∀ (id : ℕ) (node : ExprNode), expressions[id]? = some node → node.kind.Refers statements id
  below : StatementsBelow statements expressions.length
  expressions_le : expressions.length ≤ maxExprNodes
  statements_le : statements.length ≤ maxStatements

lemma body_append {more : List Statement} {start count : ℕ} (h : start + count ≤ statements.length) :
    ((statements ++ more).drop start).take count = (statements.drop start).take count := by
  rw [drop_append_of_le_length (by omega), take_append_of_le_length (by rw [length_drop]; omega)]

lemma ExprKind.Refers.append {id : ℕ} {kind : ExprKind} (h : kind.Refers statements id)
    (more : List Statement) : kind.Refers (statements ++ more) id := by
  cases kind with
  | arrow parameter expression bodyStart bodyLen =>
    obtain ⟨hexpression, hrange, hbelow, hcallback⟩ := h
    refine ⟨hexpression, by rw [length_append]; omega, ?_, ?_⟩ <;> rwa [body_append hrange]
  | _ => exact h

lemma Tables.addExpression {expressions : List ExprNode} (h : Tables expressions statements)
    {node : ExprNode} (hnode : node.kind.Refers statements expressions.length) (hlen : expressions.length ≠ maxExprNodes) :
    Tables (expressions ++ [node]) statements := by
  refine ⟨fun id node' hid => ?_, fun statement hs id hid => ?_, ?_, h.statements_le⟩
  · rcases lt_or_ge id expressions.length with hlt | hge
    · rw [getElem?_append_left hlt] at hid
      exact h.refers id node' hid
    · rw [getElem?_append_right hge, getElem?_singleton] at hid
      split at hid
      · cases hid
        rwa [show id = expressions.length by omega]
      · cases hid
  · have := h.below statement hs id hid
    rw [length_append]
    omega
  · have := h.expressions_le
    rw [length_append, length_singleton]
    omega

lemma Tables.addStatement {expressions : List ExprNode} (h : Tables expressions statements)
    {statement : Statement} (hstatement : ∀ id, statement.kind.id? = some id → id < expressions.length)
    (hlen : statements.length ≠ maxStatements) : Tables expressions (statements ++ [statement]) := by
  refine ⟨fun id node hid => (h.refers id node hid).append _, fun s hs => ?_, h.expressions_le, ?_⟩
  · rcases mem_append.mp hs with hs | hs
    · exact h.below s hs
    · rw [mem_singleton.mp hs]
      exact hstatement
  · have := h.statements_le
    rw [length_append, length_singleton]
    omega

/-! ## What a call of the parser does -/

variable {source : List UInt8} {s : ParserState}

/-- Where the next token begins, as far as is known. -/
def ParserState.position (s : ParserState) : ℕ :=
  match s.lookahead with
  | some token => token.span.start
  | none => s.cursor

/-- The states of the parser. -/
structure ParserState.Ok (source : List UInt8) (s : ParserState) : Prop where
  cursor_le : s.cursor ≤ source.length
  lookahead_le : ∀ token, s.lookahead = some token → token.span.start ≤ s.cursor
  lookahead_lt : ∀ token, s.lookahead = some token → token.kind ≠ .eof → token.span.start < s.cursor
  tables : Tables s.expressions s.statements

/-- The part of the source that is left. -/
def ParserState.left (source : List UInt8) (s : ParserState) : ℕ := source.length - s.position

lemma ParserState.Ok.position_le (h : s.Ok source) : s.position ≤ source.length := by
  unfold position
  split
  · rename_i token htoken
    exact le_trans (h.lookahead_le token htoken) h.cursor_le
  · exact h.cursor_le

/-- The parser has moved on by `k` bytes at least, and has only added to the tables.  Statements that are added inside a callback are
marked so. -/
structure Moves (source : List UInt8) (k : ℕ) (s s' : ParserState) : Prop where
  ok : s'.Ok source
  position : s.position + k ≤ s'.position
  depth : s'.callbackDepth = s.callbackDepth
  expressions : s.expressions <+: s'.expressions
  statements : ∃ more, s'.statements = s.statements ++ more ∧ (s.callbackDepth ≠ 0 → ∀ statement ∈ more, statement.callback = true)

/-- The parser has moved on and made an expression. -/
abbrev Makes (source : List UInt8) (k : ℕ) (s : ParserState) (id : ℕ) (s' : ParserState) : Prop :=
  Moves source k s s' ∧ id < s'.expressions.length

namespace Moves

variable {k k' : ℕ} {s s' s'' : ParserState}

lemma refl (h : s.Ok source) : Moves source 0 s s :=
  ⟨h, le_refl _, rfl, prefix_refl _, [], by simp, fun _ _ h => absurd h not_mem_nil⟩

lemma trans (h : Moves source k s s') (h' : Moves source k' s' s'') : Moves source (k + k') s s'' := by
  obtain ⟨more, hmore, hcallback⟩ := h.statements
  obtain ⟨more', hmore', hcallback'⟩ := h'.statements
  refine ⟨h'.ok, ?_, h'.depth.trans h.depth, h.expressions.trans h'.expressions, more ++ more', ?_, fun hdepth st hst => ?_⟩
  · have := h.position
    have := h'.position
    omega
  · rw [hmore', hmore, append_assoc]
  · rcases mem_append.mp hst with hst | hst
    · exact hcallback hdepth st hst
    · exact hcallback' (by rw [h.depth]; exact hdepth) st hst

lemma mono (h : Moves source k s s') (hk : k' ≤ k) : Moves source k' s s' :=
  ⟨h.ok, by have := h.position; omega, h.depth, h.expressions, h.statements⟩

/-- A callback is parsed one level deeper. -/
theorem leave (h : Moves source k { s with callbackDepth := s.callbackDepth + 1 } s') :
    Moves source k s { s' with callbackDepth := s'.callbackDepth - 1 } := by
  obtain ⟨more, hmore, hcallback⟩ := h.statements
  refine ⟨⟨h.ok.cursor_le, h.ok.lookahead_le, h.ok.lookahead_lt, h.ok.tables⟩, h.position, ?_, h.expressions, more, hmore,
    fun _ => hcallback (Nat.succ_ne_zero _)⟩
  show s'.callbackDepth - 1 = s.callbackDepth
  rw [h.depth]
  exact Nat.add_sub_cancel _ _

lemma length_le (h : Moves source k s s') : s.expressions.length ≤ s'.expressions.length := h.expressions.length_le

lemma left_lt (h : Moves source 1 s s') : s'.left source < s.left source := by
  have := h.ok.position_le
  have := h.position
  unfold left
  omega

lemma left_le (h : Moves source 0 s s') : s'.left source ≤ s.left source := by
  have := h.position
  unfold left
  omega

end Moves

lemma left_lt_length (source : List UInt8) (s : ParserState) : s.left source < source.length + 1 := by
  unfold left
  omega

/-- The operation never exceeds its depth, and ends in `Q` when it returns. -/
abbrev Parses {α : Type} (m : ParseOp α) (Q : α → ParserState → Prop) (s : ParserState) : Prop :=
  wp m Q (fun fault _ => fault ≠ .stuck) s

variable {α : Type}

lemma Parses.bind {β : Type} {m : ParseOp α} {f : α → ParseOp β} {Q : α → ParserState → Prop} {R : β → ParserState → Prop}
    (h : Parses m Q s) (hf : ∀ a s', Q a s' → Parses (f a) R s') : Parses (m >>= f) R s :=
  wp_step h hf fun _ _ h => h

lemma Parses.mono {m : ParseOp α} {Q R : α → ParserState → Prop} (h : Parses m Q s)
    (hQ : ∀ a s', Q a s' → R a s') : Parses m R s := wp_mono h hQ fun _ _ h => h

lemma parses_reject {Q : α → ParserState → Prop} (error : FlowParseError) : Parses (reject error) Q s := nofun

variable {token : Token}

/-- What a look at the next token does: the tables stay. -/
structure Sees (source : List UInt8) (s : ParserState) (token : Token) (s' : ParserState) : Prop where
  moves : Moves source 0 s s'
  lookahead : s'.lookahead = some token
  expressions : s'.expressions = s.expressions
  statements : s'.statements = s.statements

lemma peek_spec (h : s.Ok source) : Parses (peek source) (Sees source s) s := by
  rw [peek, Parses, wp_bind, wp_get]
  split
  · rename_i token htoken
    exact ⟨.refl h, htoken, rfl, rfl⟩
  rename_i hnone
  rw [wp_bind, wp_lift]
  refine ⟨fun next hnext => ?_, fun fault hfault => ?_⟩
  · cases hlex : lexNext source s.cursor with
    | error error =>
      rw [hlex] at hnext
      cases hnext
    | ok lexed =>
      rw [hlex] at hnext
      cases hnext
      have hspec : Lexed source s.cursor next.1 next.2 := lexNext_spec hlex
      have hcursor : next.2 ≤ source.length := Nat.le_trans hspec.stop_le (Nat.max_le.mpr ⟨h.cursor_le, Nat.le_refl _⟩)
      have hposition : s.position = s.cursor := by
        unfold position
        rw [hnone]
      refine ⟨⟨⟨hcursor, ?_, ?_, h.tables⟩, ?_, rfl, prefix_refl _, [], by simp, fun _ _ h => absurd h not_mem_nil⟩,
        rfl, rfl, rfl⟩
      · rintro token ⟨⟩
        exact hspec.start_le
      · rintro token ⟨⟩
        exact hspec.progress
      · rw [hposition]
        exact hspec.start_ge
  · cases hlex : lexNext source s.cursor with
    | error error =>
      rw [hlex] at hfault
      cases hfault
      exact nofun
    | ok lexed =>
      rw [hlex] at hfault
      cases hfault

/-- What taking a token does. -/
structure Takes (source : List UInt8) (s : ParserState) (token : Token) (s' : ParserState) : Prop where
  moves : Moves source 0 s s'
  progress : token.kind ≠ .eof → Moves source 1 s s'
  lookahead : ∀ token', s.lookahead = some token' → token' = token
  expressions : s'.expressions = s.expressions
  statements : s'.statements = s.statements

lemma take_spec (h : s.Ok source) : Parses (take source) (Takes source s) s := by
  rw [take, Parses, wp_bind]
  refine wp_of_eq (fun token s1 hpeek => ?_) fun fault s1 hpeek => by
    have hfault := wp_error (peek_spec h) hpeek
    exact hfault
  have hsees := wp_ok (peek_spec h) hpeek
  have hok := hsees.moves.ok
  have hposition : s.position ≤ token.span.start := by
    have := hsees.moves.position
    rwa [position.eq_def s1, hsees.lookahead] at this
  have hcursor := hok.lookahead_le token hsees.lookahead
  have hok' : Ok source { s1 with lookahead := none } := by
    refine ⟨hok.cursor_le, ?_, ?_, hok.tables⟩ <;> exact nofun
  obtain ⟨-, -, hdepth, hexpressions, hstatements⟩ := hsees.moves
  refine ⟨⟨hok', le_trans hposition hcursor, hdepth, hexpressions, hstatements⟩, fun hkind => ?_, fun token' htoken' => ?_,
    hsees.expressions, hsees.statements⟩
  · exact ⟨hok', lt_of_le_of_lt hposition (hok.lookahead_lt token hsees.lookahead hkind), hdepth, hexpressions, hstatements⟩
  · rw [peek, get_bind, htoken'] at hpeek
    cases hpeek
    rfl

/-- Taking a token that has been seen. -/
theorem take_seen {s0 : ParserState} {kind : TokenKind} (h : Sees source s0 token s) (hkind : token.kind = kind)
    (hne : kind ≠ .eof) :
    Parses (take source) (fun _ s' => Moves source 1 s0 s' ∧ s'.expressions = s0.expressions ∧ s'.statements = s0.statements) s := by
  refine wp_mono (take_spec h.moves.ok) (fun token' s' htakes => ?_) (fun _ _ h => h)
  obtain rfl := htakes.lookahead token h.lookahead
  refine ⟨h.moves.trans (htakes.progress (hkind ▸ hne)), ?_, ?_⟩
  · rw [htakes.expressions, h.expressions]
  · rw [htakes.statements, h.statements]

lemma expect_spec (h : s.Ok source) (expected : TokenKind) (hexpected : expected ≠ .eof) :
    Parses (expect source expected)
      (fun _ s' => Moves source 1 s s' ∧ s'.expressions = s.expressions ∧ s'.statements = s.statements) s := by
  refine wp_seq (take_spec h) (fun token s' htakes => ?_)
  split
  · rename_i hkind
    exact ⟨htakes.progress (by rw [hkind]; exact hexpected), htakes.expressions, htakes.statements⟩
  · exact parses_reject _

lemma add_spec (h : s.Ok source) {kind : ExprKind} (hkind : kind.Refers s.statements s.expressions.length) (span : Span) :
    Parses (add kind span) (Makes source 0 s) s := by
  rw [add, Parses, wp_bind, wp_get]
  split
  · exact parses_reject _
  · rename_i hlen
    refine ⟨⟨⟨h.cursor_le, h.lookahead_le, h.lookahead_lt, h.tables.addExpression hkind hlen⟩, le_refl _, rfl,
      prefix_append _ _, [], by simp, fun _ _ h => absurd h not_mem_nil⟩, by simp⟩

/-- What a step of a loop over statements does. -/
abbrev Steps (source : List UInt8) (s : ParserState) (next : Unit ⊕ Unit) (s' : ParserState) : Prop :=
  match next with
  | .inl _ => Moves source 0 s s' ∧ s'.left source < s.left source
  | .inr _ => Moves source 0 s s'

/-- Behind a statement there is a semicolon, or a token at which the statements end. -/
theorem separator_spec {s1 : ParserState} (hmoves : Moves source 1 s s1) (ends : TokenKind → Prop) [DecidablePred ends] :
    Parses (do
        let token ← peek source
        if token.kind = .semicolon then do
          let _ ← take source
          return .inl ()
        else if ends token.kind then return .inl ()
        else reject (.unexpectedToken token.span) : ParseOp (Unit ⊕ Unit)) (Steps source s) s1 := by
  refine (peek_spec hmoves.ok).bind fun token s2 hsees => ?_
  split
  · rename_i hkind
    refine (take_seen hsees hkind nofun).bind fun _ s3 hs3 => ?_
    have hall := hmoves.trans hs3.1
    exact ⟨hall.mono (by omega), (hall.mono (by omega)).left_lt⟩
  · split
    · have hall := hmoves.trans hsees.moves
      exact ⟨hall.mono (by omega), hall.left_lt⟩
    · exact parses_reject _

/-! ## Expressions and statements -/

/-- The parsers of what is inside parse every state with less than `n` bytes left. -/
structure Inner.Sound (source : List UInt8) (n : ℕ) (inner : Inner) : Prop where
  expression : ∀ s : ParserState, s.Ok source → s.left source < n →
    Parses inner.expression (Makes source 1 s) s
  statement : ∀ s : ParserState, s.Ok source → s.left source < n → Parses inner.statement (fun _ s' => Moves source 1 s s') s

section Inner

variable {inner : Inner} {n : ℕ} (hinner : inner.Sound source n)

include hinner

lemma parseArgument_spec (h : s.Ok source) (hn : s.left source < n) {args : List ℕ}
    (hargs : ∀ arg ∈ args, arg < s.expressions.length) :
    Parses (parseArgument source inner args) (fun next s' =>
      match next with
      | .inl args => (Moves source 0 s s' ∧ ∀ arg ∈ args, arg < s'.expressions.length) ∧ s'.left source < s.left source
      | .inr args => Moves source 0 s s' ∧ ∀ arg ∈ args, arg < s'.expressions.length) s := by
  rw [parseArgument]
  split
  · exact (peek_spec h).bind fun _ _ _ => parses_reject _
  refine (hinner.expression s h hn).bind fun argument s1 hs1 => (peek_spec hs1.1.ok).bind fun token s2 hs2 => ?_
  have hall : ∀ arg ∈ args ++ [argument], arg < s1.expressions.length := by
    intro arg harg
    have hlen := hs1.1.length_le
    rcases mem_append.mp harg with harg | harg
    · have := hargs arg harg
      omega
    · rw [mem_singleton.mp harg]
      exact hs1.2
  split
  · rename_i hcomma
    refine (take_seen hs2 hcomma nofun).bind fun _ s3 hs3 => ?_
    have hmoves := hs1.1.trans hs3.1
    rw [Parses, wp_pure, hs3.2.1]
    exact ⟨⟨hmoves.mono (by omega), hall⟩, (hmoves.mono (by omega)).left_lt⟩
  · rw [Parses, wp_pure, hs2.expressions]
    exact ⟨(hs1.1.trans hs2.moves).mono (by omega), hall⟩

lemma parseArguments_spec (h : s.Ok source) (hn : s.left source < n) :
    Parses (parseArguments source inner) (fun args s' => Moves source 0 s s' ∧ ∀ arg ∈ args, arg < s'.expressions.length) s := by
  refine (peek_spec h).bind fun token s1 hsees => ?_
  split
  · exact ⟨hsees.moves, fun arg harg => absurd harg not_mem_nil⟩
  refine wp_iterate (fun args s' => Moves source 0 s s' ∧ ∀ arg ∈ args, arg < s'.expressions.length) (·.left source)
    (fun args s2 hs2 => ?_) _ _ _ ⟨hsees.moves, fun arg harg => absurd harg not_mem_nil⟩ (left_lt_length source s1)
  refine (parseArgument_spec hinner hs2.1.ok (lt_of_le_of_lt hs2.1.left_le hn) hs2.2).mono fun next s3 hs3 => ?_
  cases next with
  | inl args => exact ⟨⟨hs2.1.trans hs3.1.1, hs3.1.2⟩, hs3.2⟩
  | inr args => exact ⟨hs2.1.trans hs3.1, hs3.2⟩

lemma parsePostfixStep_spec (h : s.Ok source) (hn : s.left source ≤ n) {expression : ℕ}
    (hexpression : expression < s.expressions.length) :
    Parses (parsePostfixStep source inner expression) (fun next s' =>
      match next with
      | .inl id => Makes source 0 s id s' ∧ s'.left source < s.left source
      | .inr id => Makes source 0 s id s') s := by
  -- after the token that begins the postfix, less is left than at the start
  have hnext : ∀ {s' : ParserState}, Moves source 1 s s' → s'.left source < n :=
    fun hmoves => lt_of_lt_of_le hmoves.left_lt hn
  have hadd : ∀ {s' : ParserState} {kind : ExprKind} (span : Span), Moves source 1 s s' →
      kind.Refers s'.statements s'.expressions.length → Parses (add kind span)
        (fun id s' => Makes source 0 s id s' ∧ s'.left source < s.left source) s' := by
    intro s' kind span hmoves hkind
    refine (add_spec hmoves.ok hkind span).mono fun id s'' hs'' => ?_
    have hall := hmoves.trans hs''.1
    exact ⟨⟨hall.mono (by omega), hs''.2⟩, hall.left_lt⟩
  refine (peek_spec h).bind fun token s1 hsees => ?_
  split
  · rename_i hkind
    refine (take_seen hsees hkind nofun).bind fun _ s2 hs2 => ?_
    refine (take_spec hs2.1.ok).bind fun member s3 hs3 => ?_
    split
    · refine (hadd _ ((hs2.1.trans hs3.moves).mono (by omega)) ?_).bind fun _ _ hadded => hadded
      show expression < s3.expressions.length
      rw [hs3.expressions, hs2.2.1]
      exact hexpression
    · exact parses_reject _
  · rename_i hkind
    refine (take_seen hsees hkind nofun).bind fun _ s2 hs2 => ?_
    refine (hinner.expression s2 hs2.1.ok (hnext hs2.1)).bind fun key s3 hs3 => ?_
    refine (expect_spec hs3.1.ok .rightBracket nofun).bind fun close s4 hs4 => ?_
    have hlen2 := hs2.1.length_le
    have hlen3 := hs3.1.length_le
    have hlen4 := hs4.1.length_le
    refine (hadd _ ((hs2.1.trans (hs3.1.trans hs4.1)).mono (by omega)) ?_).bind fun _ _ hadded => hadded
    exact ⟨by omega, by omega⟩
  · rename_i hkind
    refine (take_seen hsees hkind nofun).bind fun _ s2 hs2 => ?_
    refine (parseArguments_spec hinner hs2.1.ok (hnext hs2.1)).bind fun args s3 hs3 => ?_
    refine (expect_spec hs3.1.ok .rightParen nofun).bind fun close s4 hs4 => ?_
    have hlen2 := hs2.1.length_le
    have hlen3 := hs3.1.length_le
    have hlen4 := hs4.1.length_le
    refine (hadd _ ((hs2.1.trans (hs3.1.trans hs4.1)).mono (by omega)) ?_).bind fun _ _ hadded => hadded
    exact ⟨by omega, fun arg harg => by have := hs3.2 arg harg; omega⟩
  · have hlen := hsees.moves.length_le
    exact ⟨hsees.moves, by omega⟩

lemma parsePostfix_spec (h : s.Ok source) (hn : s.left source ≤ n) {expression : ℕ}
    (hexpression : expression < s.expressions.length) :
    Parses (parsePostfix source inner expression) (Makes source 0 s) s := by
  refine wp_iterate (Makes source 0 s) (·.left source) (fun id s1 hs1 => ?_) _ _ _
    ⟨.refl h, hexpression⟩ (left_lt_length source s)
  refine (parsePostfixStep_spec hinner hs1.1.ok (le_trans hs1.1.left_le hn) hs1.2).mono fun next s2 hs2 => ?_
  cases next with
  | inl id => exact ⟨⟨hs1.1.trans hs2.1.1, hs2.1.2⟩, hs2.2⟩
  | inr id => exact ⟨hs1.1.trans hs2.1, hs2.2⟩

lemma parseBodyStep_spec (h : s.Ok source) (hn : s.left source < n) :
    Parses (parseBodyStep source inner ()) (Steps source s) s := by
  refine (peek_spec h).bind fun token s1 hsees => ?_
  split
  · exact hsees.moves
  · refine (hinner.statement s1 hsees.moves.ok (lt_of_le_of_lt hsees.moves.left_le hn)).bind fun _ s2 hs2 => ?_
    exact separator_spec (hsees.moves.trans hs2) (· = .rightBrace)

lemma parseBlock_spec {s1 : ParserState} (hn : s.left source < n) (hkind : token.kind = .leftBrace)
    (hsees : Sees source { s with callbackDepth := s.callbackDepth + 1 } token s1) (parameter : List UInt8) (span : Span) :
    Parses (parseBlock source inner parameter span) (Makes source 0 s) s1 := by
  refine (take_seen hsees hkind nofun).bind fun _ s2 hs2 => ?_
  have hbody : Parses (Op.iterate (parseBodyStep source inner) .stuck (source.length + 1) ()) (fun _ s' => Moves source 0 s2 s') s2 := by
    refine wp_iterate (fun _ s' => Moves source 0 s2 s') (·.left source) (fun _ s3 hs3 => ?_) _ _ _ (.refl hs2.1.ok)
      (left_lt_length source s2)
    have hleft : s3.left source < n := by
      have := hs3.left_le
      have := hs2.1.left_lt
      have : left source { s with callbackDepth := s.callbackDepth + 1 } = s.left source := rfl
      omega
    refine (parseBodyStep_spec hinner hs3.ok hleft).mono fun next s4 hs4 => ?_
    cases next with
    | inl _ => exact ⟨hs3.trans hs4.1, hs4.2⟩
    | inr _ => exact hs3.trans hs4
  refine hbody.bind fun _ s3 hs3 => ?_
  have hleave := (hs2.1.trans hs3).leave
  refine (expect_spec hleave.ok .rightBrace nofun).bind fun _ s5 hs5 => ?_
  obtain ⟨more, hmore, hcallback⟩ := hs3.statements
  have hstatements : s5.statements = s2.statements ++ more := hs5.2.2.trans hmore
  have hrange : (s5.statements.drop s2.statements.length).take (s5.statements.length - s2.statements.length) = more := by
    rw [hstatements, drop_left, length_append, Nat.add_sub_cancel_left, take_length]
  refine (add_spec hs5.1.ok ?_ span).mono fun id s6 hs6 => ⟨((hleave.trans hs5.1).trans hs6.1).mono (Nat.zero_le _), hs6.2⟩
  refine ⟨nofun, ?_, fun statement h => hs5.1.ok.tables.below statement (mem_of_mem_drop (mem_of_mem_take h)), ?_⟩
  · rw [hstatements, length_append]
    omega
  · rw [hrange]
    refine hcallback ?_
    rw [hs2.1.depth]
    exact Nat.succ_ne_zero _

lemma parseArrow_spec (h : s.Ok source) (hn : s.left source < n) (parameter : List UInt8) (span : Span) :
    Parses (parseArrow source inner parameter span) (Makes source 0 s) s := by
  rw [parseArrow, Parses, wp_bind, wp_get]
  split
  · exact parses_reject _
  have hdeeper : Ok source { s with callbackDepth := s.callbackDepth + 1 } :=
    ⟨h.cursor_le, h.lookahead_le, h.lookahead_lt, h.tables⟩
  refine (peek_spec hdeeper).bind fun token s1 hsees => ?_
  split
  · rename_i hkind
    exact parseBlock_spec hinner hn hkind hsees parameter span
  have hleft : s1.left source < n := lt_of_le_of_lt hsees.moves.left_le hn
  refine (hinner.expression s1 hsees.moves.ok hleft).bind fun expression s2 hs2 => ?_
  have hleave := (hsees.moves.trans hs2.1).leave
  refine (add_spec hleave.ok ?_ span).mono fun id s3 hs3 => ⟨(hleave.trans hs3.1).mono (zero_le _), hs3.2⟩
  refine ⟨fun e he => ?_, zero_le _, fun statement hstatement => ?_, fun statement hstatement => ?_⟩
  · cases he
    exact hs2.2
  · cases hstatement
  · cases hstatement

lemma parseGrouped_spec {save : ParserState} (h : save.Ok source) (hn : save.left source < n)
    (hexpressions : s.expressions = save.expressions) (hstatements : s.statements = save.statements)
    (hdepth : s.callbackDepth = save.callbackDepth) : Parses (parseGrouped source inner save) (Makes source 0 save) s := by
  rw [parseGrouped, Parses, wp_bind, wp_modify]
  have hrestored : { s with
      cursor := save.cursor, lookahead := save.lookahead, expressions := s.expressions.take save.expressions.length,
      statements := s.statements.take save.statements.length } = save := by
    rw [hexpressions, hstatements, hdepth, take_length, take_length]
  rw [hrestored]
  refine (hinner.expression save h hn).bind fun id s1 hs1 => ?_
  refine (expect_spec hs1.1.ok .rightParen nofun).bind fun _ s2 hs2 => ?_
  rw [Parses, wp_pure, Makes, hs2.2.1]
  exact ⟨(hs1.1.trans hs2.1).mono (zero_le _), hs1.2⟩

lemma parseParenthesized_spec (h : s.Ok source) (hn : s.left source < n) (span : Span) :
    Parses (parseParenthesized source inner span) (Makes source 0 s) s := by
  refine (peek_spec h).bind fun token s1 hs1 => ?_
  split
  · rename_i parameter hkind
    refine (take_seen hs1 hkind nofun).bind fun _ s2 hs2 => ?_
    refine (peek_spec hs2.1.ok).bind fun close s3 hs3 => ?_
    split
    · rename_i hclose
      refine (take_seen hs3 hclose nofun).bind fun _ s4 hs4 => ?_
      refine (peek_spec hs4.1.ok).bind fun arrow s5 hs5 => ?_
      have hmoves := hs2.1.trans hs4.1
      split
      · rename_i harrow
        refine (take_seen hs5 harrow nofun).bind fun _ s6 hs6 => ?_
        have hall := (hmoves.trans hs6.1).mono (zero_le _)
        refine (parseArrow_spec hinner hall.ok (lt_of_le_of_lt hall.left_le hn) parameter span).mono fun id s7 hs7 => ?_
        exact ⟨hall.trans hs7.1, hs7.2⟩
      · refine parseGrouped_spec hinner h hn ?_ ?_ (hmoves.trans hs5.moves).depth
        · rw [hs5.expressions, hs4.2.1, hs2.2.1]
        · rw [hs5.statements, hs4.2.2, hs2.2.2]
    · refine parseGrouped_spec hinner h hn ?_ ?_ (hs2.1.trans hs3.moves).depth
      · rw [hs3.expressions, hs2.2.1]
      · rw [hs3.statements, hs2.2.2]
  · exact parseGrouped_spec hinner h hn hs1.expressions hs1.statements hs1.moves.depth

lemma parsePrimary_spec (h : s.Ok source) (hn : s.left source ≤ n) :
    Parses (parsePrimary source inner) (Makes source 1 s) s := by
  refine (take_spec h).bind fun token s1 hs1 => ?_
  have hadd : ∀ {kind : ExprKind} {k : TokenKind}, token.kind = k → k ≠ .eof → kind.Refers s1.statements s1.expressions.length →
      Parses (add kind token.span) (Makes source 1 s) s1 :=
    fun htoken hk hkind => (add_spec hs1.moves.ok hkind token.span).mono fun id s2 hs2 =>
      ⟨(hs1.progress (htoken ▸ hk)).trans hs2.1, hs2.2⟩
  split
  case _ hkind => exact hadd hkind nofun trivial
  case _ hkind => exact hadd hkind nofun trivial
  case _ hkind => exact hadd hkind nofun trivial
  case _ hkind => exact hadd hkind nofun trivial
  case _ hkind => exact hadd hkind nofun trivial
  case _ hkind =>
    have hmoves := hs1.progress (hkind ▸ nofun)
    refine (parseParenthesized_spec hinner hmoves.ok (lt_of_lt_of_le hmoves.left_lt hn) token.span).mono fun id s2 hs2 => ?_
    exact ⟨hmoves.trans hs2.1, hs2.2⟩
  case _ => exact parses_reject _

lemma parseExpression_spec (h : s.Ok source) (hn : s.left source ≤ n) :
    Parses (parseExpression source inner) (Makes source 1 s) s := by
  refine (peek_spec h).bind fun token s1 hs1 => ?_
  split
  · rename_i hkind
    refine (take_seen hs1 hkind nofun).bind fun token s2 hs2 => ?_
    refine (hinner.expression s2 hs2.1.ok (lt_of_lt_of_le hs2.1.left_lt hn)).bind fun id s3 hs3 => ?_
    refine (add_spec hs3.1.ok (show ExprKind.Refers _ _ (.await id) from hs3.2) token.span).mono fun id' s4 hs4 => ?_
    exact ⟨((hs2.1.trans hs3.1).trans hs4.1).mono (by omega), hs4.2⟩
  · refine (parsePrimary_spec hinner hs1.moves.ok (le_trans hs1.moves.left_le hn)).bind fun id s2 hs2 => ?_
    have hmoves := hs1.moves.trans hs2.1
    have hleft : s2.left source ≤ n := le_trans (hmoves.mono (zero_le _)).left_le hn
    refine (parsePostfix_spec hinner hmoves.ok hleft hs2.2).mono fun id' s3 hs3 => ?_
    exact ⟨hmoves.trans hs3.1, hs3.2⟩

lemma parseStatementKind_spec {s1 : ParserState} (hn : s.left source ≤ n) (hsees : Sees source s token s1) :
    Parses (parseStatementKind source inner token)
      (fun kind s' => Moves source 1 s s' ∧ ∀ id, kind.1.id? = some id → id < s'.expressions.length) s1 := by
  have hexpression : ∀ {s' : ParserState} (f : ℕ → StmtKind) (name : Option (List UInt8)), (∀ id, (f id).id? = some id) →
      Moves source 0 s s' → Parses (parseExpression source inner >>= fun id => return (f id, name))
        (fun kind s' => Moves source 1 s s' ∧ ∀ id, kind.1.id? = some id → id < s'.expressions.length) s' := by
    intro s' f name hf hmoves
    refine (parseExpression_spec hinner hmoves.ok (le_trans hmoves.left_le hn)).bind fun id s'' hs'' => ?_
    refine ⟨(hmoves.trans hs''.1).mono (by omega), fun id' hid' => ?_⟩
    rw [hf id] at hid'
    cases hid'
    exact hs''.2
  unfold parseStatementKind
  split
  case _ hkind =>
    refine (take_seen hsees hkind nofun).bind fun _ s2 hs2 => ?_
    refine (take_spec hs2.1.ok).bind fun nameToken s3 hs3 => ?_
    split
    · refine (expect_spec hs3.moves.ok .equals nofun).bind fun _ s4 hs4 => ?_
      exact hexpression .var _ (fun _ => rfl) (((hs2.1.trans hs3.moves).trans hs4.1).mono (zero_le _))
    · exact parses_reject _
  case _ hkind =>
    refine (take_seen hsees hkind nofun).bind fun _ s2 hs2 => ?_
    exact hexpression .return _ (fun _ => rfl) (hs2.1.mono (zero_le _))
  case _ name hkind =>
    refine (take_seen hsees hkind nofun).bind fun _ s2 hs2 => ?_
    refine (peek_spec hs2.1.ok).bind fun next s3 hs3 => ?_
    split
    · rename_i hnext
      refine (take_seen hs3 hnext nofun).bind fun _ s4 hs4 => ?_
      exact hexpression .assign _ (fun _ => rfl) ((hs2.1.trans hs4.1).mono (zero_le _))
    refine (add_spec hs3.moves.ok (show ExprKind.Refers _ _ (.name name) from trivial) token.span).bind fun id s4 hs4 => ?_
    have hmoves := (hs2.1.trans hs3.moves).trans hs4.1
    have hleft : s4.left source ≤ n := le_trans (hmoves.mono (zero_le _)).left_le hn
    refine (parsePostfix_spec hinner hmoves.ok hleft hs4.2).bind fun id s5 hs5 => ?_
    refine ⟨hmoves.trans hs5.1, fun id' hid' => ?_⟩
    cases hid'
    exact hs5.2
  case _ => exact hexpression .expression _ (fun _ => rfl) hsees.moves

lemma parseStatement_spec (h : s.Ok source) (hn : s.left source ≤ n) :
    Parses (parseStatement source inner) (fun _ s' => Moves source 1 s s') s := by
  refine (peek_spec h).bind fun token s1 hs1 => ?_
  refine (parseStatementKind_spec hinner hn hs1).bind fun kind s2 hs2 => ?_
  rw [Parses, wp_bind, wp_get]
  split
  · exact parses_reject _
  rename_i hlen
  have hok := hs2.1.ok
  obtain ⟨more, hmore, hcallback⟩ := hs2.1.statements
  refine ⟨⟨hok.cursor_le, hok.lookahead_le, hok.lookahead_lt, hok.tables.addStatement hs2.2 hlen⟩, hs2.1.position, hs2.1.depth,
    hs2.1.expressions, more ++ [⟨kind.1, kind.2, token.span, s2.callbackDepth != 0⟩], ?_, fun hdepth statement hstatement => ?_⟩
  · rw [← append_assoc, ← hmore]
  · rcases mem_append.mp hstatement with hstatement | hstatement
    · exact hcallback hdepth statement hstatement
    · rw [mem_singleton.mp hstatement, hs2.1.depth]
      exact bne_iff_ne.mpr hdepth

end Inner

/-! ## Programs -/

lemma parsers_sound (source : List UInt8) : ∀ n : ℕ, (parsers source n).Sound source n
  | 0 => ⟨fun _ _ h => absurd h (not_lt_zero _), fun _ _ h => absurd h (not_lt_zero _)⟩
  | n + 1 =>
    ⟨fun _ h hn => parseExpression_spec (parsers_sound source n) h (le_of_lt_succ hn),
      fun _ h hn => parseStatement_spec (parsers_sound source n) h (le_of_lt_succ hn)⟩

lemma parseStep_spec (h : s.Ok source) : Parses (parseStep source ()) (Steps source s) s := by
  refine (peek_spec h).bind fun token s1 hsees => ?_
  split
  · exact hsees.moves
  · refine ((parsers_sound source _).statement s1 hsees.moves.ok (left_lt_length source s1)).bind fun _ s2 hs2 => ?_
    exact separator_spec (hsees.moves.trans hs2) (fun kind => kind = .eof ∨ kind = .rightBrace)

lemma new_ok (source : List UInt8) : new.Ok source := by
  refine ⟨zero_le _, nofun, nofun, ⟨fun id node h => ?_, ?_, zero_le _, zero_le _⟩⟩
  · cases h
  · exact fun statement h => absurd h not_mem_nil

lemma parseProgram_spec (source : List UInt8) : Parses (parseProgram source) (fun _ s => s.Ok source) new := by
  refine wp_iterate (fun _ s => s.Ok source) (·.left source) (fun _ s hs => ?_) _ _ _ (new_ok source) (left_lt_length source _)
  refine (parseStep_spec hs).mono fun next s' hs' => ?_
  cases next with
  | inl _ => exact ⟨hs'.1.ok, hs'.2⟩
  | inr _ => exact hs'.ok

/-- The tables of the program are well founded. -/
def Program.WellFounded (program : Program) : Prop := Tables program.expressions program.statements

/-- **The depth of the parser is enough.** -/
theorem parse_ne_stuck (source : List UInt8) : Program.parse source ≠ .error .stuck := by
  unfold Program.parse
  split
  · exact nofun
  split
  · rename_i fault s hresult
    have hfault := wp_error (parseProgram_spec source) hresult
    rintro ⟨⟩
    exact hfault rfl
  · exact nofun

/-- **A parsed program is well founded.** -/
theorem parse_wellFounded {program : Program} (h : Program.parse source = .ok program) : program.WellFounded := by
  unfold Program.parse at h
  split at h
  · cases h
  split at h
  · cases h
  · rename_i s hresult
    cases h
    have hok := wp_ok (parseProgram_spec source) hresult
    exact hok.tables

theorem parse_wellFounded_member :
    Program.WellFounded ⟨[97, 46, 98], [⟨.name [97], ⟨0, 1⟩⟩, ⟨.member 0 [98], ⟨2, 3⟩⟩], [⟨.expression 1, none, ⟨0, 1⟩, false⟩]⟩ :=
  parse_wellFounded (show Program.parse [97, 46, 98] = _ by decide +kernel)

end LogOS.Flow
