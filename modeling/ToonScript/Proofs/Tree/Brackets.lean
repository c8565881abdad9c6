import ToonScript.Proofs.Balance
import ToonScript.Proofs.Evaluation
import ToonScript.Proofs.Tree.Program

/-!
# The brackets of a tree

The only brackets of an expression are those of its groups, and they are balanced. So a scan for
the closer of a group that holds an expression ends right behind the expression, and a scan for
the closer of a block passes over expressions without taking notice. The brackets of the blocks
of a program are balanced too, so a scan for the closer of a block that holds statements ends
right behind the statements.
-/

set_option autoImplicit false

namespace ToonScript

open Token (Kind)

/-- Whether a symbol can stand in an expression. -/
def Symbol.inExpression : Symbol → Bool
  | literal _ | name _ => true
  | sign kind =>
      (Tier.chain .logic).continues kind || (kind == .groupOpen || kind == .groupClose)

theorem Sign.inExpression {level : Level} (sign : Sign level) :
    Symbol.inExpression (.sign sign.kind) = true := by
  cases sign <;> rfl

theorem ComparisonOp.inExpression (op : ComparisonOp) :
    Symbol.inExpression (.sign op.kind) = true := by
  cases op <;> rfl

namespace Expr

theorem symbols_inExpression :
    ∀ {tier : Tier} (expr : Expr tier), ∀ symbol ∈ expr.symbols, symbol.inExpression = true
  | _, literal _, symbol, member => by
      rw [List.mem_singleton.mp member]
      rfl
  | _, var _, symbol, member => by
      rw [List.mem_singleton.mp member]
      rfl
  | _, group body, symbol, member => by
      simp only [symbols, List.mem_cons, List.mem_append, List.not_mem_nil, or_false] at member
      rcases member with rfl | inner | rfl
      · rfl
      · exact symbols_inExpression body symbol inner
      · rfl
  | _, single operand, symbol, member => symbols_inExpression operand symbol member
  | _, extend init sign operand, symbol, member => by
      simp only [symbols, List.mem_cons, List.mem_append] at member
      rcases member with front | rfl | back
      · exact symbols_inExpression init symbol front
      · exact sign.inExpression
      · exact symbols_inExpression operand symbol back
  | _, uncompared sum, symbol, member => symbols_inExpression sum symbol member
  | _, compare left op right, symbol, member => by
      simp only [symbols, List.mem_cons, List.mem_append] at member
      rcases member with front | rfl | back
      · exact symbols_inExpression left symbol front
      · exact op.inExpression
      · exact symbols_inExpression right symbol back

variable {tier : Tier} {expr : Expr tier} {tokens : List Token}

/-- A kind that no expression holds is the kind of none of its tokens. -/
theorem kind_ne_of_spelled {kind : Kind} (spelled : Spells tokens expr.symbols)
    (plain : kind.isLiteral = false) (other : kind ≠ .identifier)
    (foreign : Symbol.inExpression (.sign kind) = false) :
    ∀ token ∈ tokens, token.kind ≠ kind := by
  rintro token member rfl
  have within : token.symbol ∈ expr.symbols := by
    rw [← show tokens.map Token.symbol = expr.symbols from spelled]
    exact List.mem_map_of_mem member
  have holds := symbols_inExpression expr _ within
  rw [Token.symbol_of_sign plain other, foreign] at holds
  cases holds

/-- An expression holds no bracket of a block. -/
theorem neutral_of_spelled (spelled : Spells tokens expr.symbols) :
    Neutral .blockOpen .blockClose tokens := fun token member =>
  ⟨kind_ne_of_spelled spelled rfl (by decide) rfl token member,
    kind_ne_of_spelled spelled rfl (by decide) rfl token member⟩

end Expr

/-- A token of another kind than the brackets is balanced by itself. -/
theorem Balanced.sign {opener closer kind : Kind} {token : Token}
    (spelled : token.symbol = .sign kind) (notOpener : kind ≠ opener)
    (notCloser : kind ≠ closer) : Balanced opener closer [token] := by
  obtain ⟨-, rfl⟩ := Token.of_symbol_sign spelled
  exact .single notOpener notCloser

/-- The groups of an expression are balanced. -/
theorem Expr.groups_balanced :
    ∀ {tier : Tier} (expr : Expr tier) {tokens : List Token}, Spells tokens expr.symbols →
      Balanced .groupOpen .groupClose tokens
  | _, literal _, tokens, spelled => by
      obtain ⟨token, rest, rfl, literal, nothing⟩ := Spells.cons_iff.mp spelled
      obtain rfl := Spells.nil_iff.mp nothing
      have carried := Token.literal_of_symbol literal
      have isLiteral : token.kind.isLiteral = true := by
        rw [← token.literal_isSome, carried]
        rfl
      refine .single ?_ ?_
      · intro opens
        rw [opens] at isLiteral
        cases isLiteral
      · intro closes
        rw [closes] at isLiteral
        cases isLiteral
  | _, var _, tokens, spelled => by
      obtain ⟨token, rest, rfl, named, nothing⟩ := Spells.cons_iff.mp spelled
      obtain rfl := Spells.nil_iff.mp nothing
      obtain ⟨-, identifier, -⟩ := Token.of_symbol_name named
      refine .single ?_ ?_
      · rw [identifier]
        decide
      · rw [identifier]
        decide
  | _, group body, tokens, spelled => by
      obtain ⟨opening, inner, rfl, openSymbol, spelledInner⟩ := Spells.cons_iff.mp spelled
      obtain ⟨within, behind, rfl, spelledBody, spelledClose⟩ :=
        Spells.append_iff.mp spelledInner
      obtain ⟨closing, rest, rfl, closeSymbol, nothing⟩ := Spells.cons_iff.mp spelledClose
      obtain rfl := Spells.nil_iff.mp nothing
      exact .wrap (by decide) (Token.of_symbol_sign openSymbol).2
        (Token.of_symbol_sign closeSymbol).2 (groups_balanced body spelledBody)
  | _, single operand, _, spelled => groups_balanced operand spelled
  | _, extend init sign operand, tokens, spelled => by
      obtain ⟨front, behind, rfl, spelledInit, spelledBehind⟩ := Spells.append_iff.mp spelled
      obtain ⟨token, back, rfl, signSymbol, spelledOperand⟩ := Spells.cons_iff.mp spelledBehind
      have between : Balanced .groupOpen .groupClose [token] :=
        .sign signSymbol (by cases sign <;> decide) (by cases sign <;> decide)
      exact (groups_balanced init spelledInit).append
        (between.append (groups_balanced operand spelledOperand))
  | _, uncompared sum, _, spelled => groups_balanced sum spelled
  | _, compare left op right, tokens, spelled => by
      obtain ⟨front, behind, rfl, spelledLeft, spelledBehind⟩ := Spells.append_iff.mp spelled
      obtain ⟨token, back, rfl, opSymbol, spelledRight⟩ := Spells.cons_iff.mp spelledBehind
      have between : Balanced .groupOpen .groupClose [token] :=
        .sign opSymbol (by cases op <;> decide) (by cases op <;> decide)
      exact (groups_balanced left spelledLeft).append
        (between.append (groups_balanced right spelledRight))

/-! ## The blocks of a program -/

/-- Whether tokens of a kind carry neither a value nor a name nor open or close a block. -/
def Token.Kind.isPlain (kind : Kind) : Bool :=
  !kind.isLiteral && kind != .identifier && kind != .blockOpen && kind != .blockClose

/-- A property of symbols that pieces of a program hand on to the whole. -/
structure Symbol.Inherited (property : List Symbol → Prop) : Prop where
  nil : property []
  append {symbols rest : List Symbol} : property symbols → property rest →
    property (symbols ++ rest)
  sign {kind : Kind} : kind.isPlain = true → property [.sign kind]
  name {text : Text} : property [.name text]
  expr {tier : Tier} (expr : Expr tier) : property expr.symbols
  enclosed {inner : List Symbol} : property inner →
    property (.sign .blockOpen :: (inner ++ [.sign .blockClose]))

namespace Symbol.Inherited

variable {property : List Symbol → Prop} {symbols inner rest : List Symbol}

theorem signed {kind : Kind} (inherited : Inherited property) (holdsRest : property rest)
    (plain : kind.isPlain = true := by rfl) : property (.sign kind :: rest) :=
  inherited.append (inherited.sign plain) holdsRest

theorem named {text : Text} (inherited : Inherited property) (holdsRest : property rest) :
    property (.name text :: rest) :=
  inherited.append inherited.name holdsRest

theorem bracketed {tier : Tier} (inherited : Inherited property) (expr : Expr tier) :
    property expr.bracketed :=
  inherited.signed (inherited.append (inherited.expr expr) (inherited.sign rfl))

theorem block (inherited : Inherited property) (holdsInner : property inner)
    (holdsRest : property rest) :
    property (.sign .blockOpen :: (inner ++ .sign .blockClose :: rest)) := by
  have whole := inherited.append (inherited.enclosed holdsInner) holdsRest
  simpa only [List.cons_append, List.append_assoc, List.nil_append] using whole

theorem action (inherited : Inherited property) (action : Action) :
    property action.symbols := by
  cases action with
  | print value => exact inherited.signed (inherited.bracketed value)
  | declare name value =>
      exact inherited.signed (inherited.named (inherited.signed (inherited.expr value)))
  | assign name update value =>
      exact inherited.named (inherited.signed (inherited.expr value) (by cases update <;> rfl))
  | discard value named => exact inherited.expr value
  | input name =>
      exact inherited.signed (inherited.signed (inherited.named (inherited.sign rfl)))
  | giveBack value => exact inherited.signed (inherited.expr value)
  | breakOff => exact inherited.sign rfl
  | goOn => exact inherited.sign rfl

mutual

theorem stmt (inherited : Inherited property) : ∀ stmt : Stmt, property stmt.symbols
  | .act action => inherited.action action
  | .choose condition yes no =>
      inherited.signed (inherited.append (inherited.bracketed condition)
        (inherited.block (inherited.stmts yes)
          (inherited.append (inherited.otherwise no) (inherited.sign rfl))))
  | .loop condition body =>
      inherited.signed (inherited.append (inherited.bracketed condition)
        (inherited.block (inherited.stmts body) (inherited.sign rfl)))

/-- What pieces hand on reaches every block. -/
theorem stmts (inherited : Inherited property) :
    ∀ stmts : List Stmt, property (Stmt.blockSymbols stmts)
  | [] => inherited.nil
  | stmt :: stmts =>
      inherited.signed
        (inherited.append (inherited.stmt stmt) (inherited.signed (inherited.stmts stmts)))

theorem otherwise (inherited : Inherited property) :
    ∀ no : Option (List Stmt), property (Stmt.elseSymbols no)
  | none => inherited.nil
  | some block => inherited.signed (inherited.block (inherited.stmts block) inherited.nil)

end

end Symbol.Inherited

/-- Symbols whose tokens are balanced in the brackets of blocks. -/
def Symbol.Paired (symbols : List Symbol) : Prop :=
  ∀ tokens, Spells tokens symbols → Balanced .blockOpen .blockClose tokens

theorem Symbol.paired_inherited : Inherited Paired where
  nil := by
    intro tokens spelled
    obtain rfl := Spells.nil_iff.mp spelled
    exact .nil
  append := by
    intro symbols rest paired pairedRest tokens spelled
    obtain ⟨front, back, rfl, spelledFront, spelledBack⟩ := Spells.append_iff.mp spelled
    exact (paired front spelledFront).append (pairedRest back spelledBack)
  sign := by
    intro kind plain tokens spelled
    obtain ⟨token, back, rfl, spelledToken, spelledBack⟩ := Spells.cons_iff.mp spelled
    obtain rfl := Spells.nil_iff.mp spelledBack
    refine .sign spelledToken ?_ ?_
    · rintro rfl
      cases plain
    · rintro rfl
      cases plain
  name := by
    intro text tokens spelled
    obtain ⟨token, back, rfl, spelledToken, spelledBack⟩ := Spells.cons_iff.mp spelled
    obtain rfl := Spells.nil_iff.mp spelledBack
    obtain ⟨-, identifier, -⟩ := Token.of_symbol_name spelledToken
    exact .single (by rw [identifier]; decide) (by rw [identifier]; decide)
  expr expr _ spelled := .of_neutral (Expr.neutral_of_spelled spelled)
  enclosed := by
    intro inner paired tokens spelled
    obtain ⟨opening, behind, rfl, spelledOpening, spelledBehind⟩ := Spells.cons_iff.mp spelled
    obtain ⟨within, closed, rfl, spelledWithin, spelledClosed⟩ :=
      Spells.append_iff.mp spelledBehind
    obtain ⟨closing, back, rfl, spelledClosing, spelledBack⟩ := Spells.cons_iff.mp spelledClosed
    obtain rfl := Spells.nil_iff.mp spelledBack
    exact .wrap (by decide) (Token.of_symbol_sign spelledOpening).2
      (Token.of_symbol_sign spelledClosing).2 (paired within spelledWithin)

end ToonScript
