import ToonScript.Proofs.Tree.Brackets
import ToonScript.Token.Vocabulary

/-!
# Tokens of trees

Every symbol of a tree is the symbol of a token, with the spelling that the vocabulary has for
it. So there are tokens for every program: `Stmt.tokens` prints it, and what is printed spells
it (`Stmt.spells_tokens`).
-/

set_option autoImplicit false

namespace ToonScript

open Token (Kind)

/-- The kind of the tokens of a value. -/
def Value.tokenKind : Value → Kind
  | boolean true => .trueLit
  | boolean false => .falseLit
  | int _ | float _ => .number
  | string _ | char _ | void | unknown => .stringLit

namespace Symbol

/-- The kind of the tokens of a symbol. -/
def kind : Symbol → Kind
  | literal value => value.tokenKind
  | name _ => .identifier
  | sign kind => kind

/-- The text of the tokens of a symbol. -/
def text : Symbol → Text
  | literal value => value.text
  | name text => text
  | sign kind => kind.spelling?.getD ""

/-- The value that the tokens of a symbol carry. No tree has a sign of a literal kind; its
tokens get a value all the same. -/
def value? : Symbol → Option Value
  | literal value => some value
  | name _ => none
  | sign kind => if kind.isLiteral then some .unknown else none

theorem value?_isSome (symbol : Symbol) : symbol.value?.isSome = symbol.kind.isLiteral := by
  cases symbol with
  | literal value =>
      cases value with
      | boolean holds => cases holds <;> rfl
      | _ => rfl
  | name text => rfl
  | sign kind => cases kind <;> rfl

/-- The token of a symbol. -/
def token (symbol : Symbol) : Token :=
  ⟨symbol.kind, symbol.text, symbol.value?, 0, symbol.value?_isSome⟩

end Symbol

/-- Symbols that printing keeps. -/
def Symbol.Printable (symbols : List Symbol) : Prop :=
  ∀ symbol ∈ symbols, symbol.token.symbol = symbol

theorem Symbol.printable_sign (kind : Kind) (plain : kind.isLiteral = false)
    (other : kind ≠ .identifier) :
    Printable [.sign kind] := by
  intro symbol member
  rw [List.mem_singleton.mp member]
  exact Token.symbol_of_sign plain other

theorem Symbol.printable_inherited : Inherited Printable where
  nil := nofun
  append printable printableRest := List.forall_mem_append.mpr ⟨printable, printableRest⟩
  sign := by
    intro kind plain
    simp only [Kind.isPlain, Bool.and_eq_true, Bool.not_eq_true', bne_iff_ne] at plain
    exact printable_sign kind plain.1.1.1 plain.1.1.2
  name := List.forall_mem_singleton.mpr rfl
  expr := by
    intro tier expr symbol member
    have within := expr.symbols_inExpression symbol member
    cases symbol with
    | literal value => rfl
    | name text => rfl
    | sign kind => cases kind <;> first | rfl | cases within
  enclosed := by
    intro inner printable
    refine List.forall_mem_append.mpr
      ⟨printable_sign .blockOpen rfl (by decide), List.forall_mem_append.mpr ⟨printable, ?_⟩⟩
    exact printable_sign .blockClose rfl (by decide)

/-- The tokens of a program. -/
def Stmt.tokens (program : List Stmt) : List Token := (blockSymbols program).map Symbol.token

/-- **Printed programs are spelled.** -/
theorem Stmt.spells_tokens (program : List Stmt) :
    Spells (tokens program) (blockSymbols program) := by
  rw [Spells, tokens, List.map_map]
  exact (List.map_congr_left (Symbol.printable_inherited.stmts program)).trans (List.map_id' _)

end ToonScript
