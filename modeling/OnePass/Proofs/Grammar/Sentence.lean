import Mathlib.Computability.Language
import Mathlib.Order.CompletePartialOrder
import OnePass.Proofs.Grammar.Shape

/-
  Sentences of the grammar.

  A sentence is what some program is written with, however
  deep it is nested and whichever `if` an `else` is given
  to. Every sentence is also that of a program whose `else`s
  belong to the nearest `if`: an `else` that is given to a
  farther one can be given to the nearest one instead.

  The trees of each kind are written with a language of
  tokens. The rules of the grammar are inclusions between
  these languages, and none of the languages is empty.

  Main declarations:
    * `Grammar.IsSentence`, `Grammar.Viable`
    * `Grammar.Program.exists_elseNearest`
    * `Grammar.written`, `Grammar.Spoken`
    * `Grammar.chain_le`, `Grammar.separated_le`
    * `Grammar.function_le`, `Grammar.isSentence_iff`
-/

------------------------------------------------------------
-- Sentences
------------------------------------------------------------

namespace OnePass

namespace Grammar

/- A program is written with these tokens. -/
def IsSentence (tokens : List Token) : Prop :=
  ∃ program : Program, program.tokens = tokens

/- With some tokens after them, these are a sentence. -/
def Viable (tokens : List Token) : Prop :=
  ∃ more, IsSentence (tokens ++ more)

end Grammar

end OnePass

------------------------------------------------------------
-- The Nearest If
------------------------------------------------------------

namespace OnePass

namespace Grammar

/-
  A statement that ends open takes an `else` that follows
  it: the last `if` in it that has none is the nearest.
-/
theorem Stmt.exists_attached
    (other : Leaf .kwElse)
    {otherwise : Stmt}
    (hOtherwise : otherwise.ElseNearest) :
    (statement : Stmt) →
      statement.endsOpen = true →
        statement.ElseNearest →
          ∃ attached : Stmt,
            attached.ElseNearest ∧
              attached.tokens =
                statement.tokens ++
                  other.token :: otherwise.tokens
| .ifThen word condition branch, _, hNearest => by
    cases hOpen : branch.endsOpen with
    | true =>
        rcases
            Stmt.exists_attached other hOtherwise branch hOpen
              hNearest with
          ⟨attached, hAttached, hTokens⟩
        refine ⟨.ifThen word condition attached, hAttached, ?_⟩
        simp [Stmt.tokens, hTokens]
    | false =>
        refine
          ⟨.ifElse word condition branch other otherwise,
            ⟨hOpen, hNearest, hOtherwise⟩, ?_⟩
        simp [Stmt.tokens]
| .ifElse word condition branch earlier last, hOpen,
  hNearest => by
    rcases
        Stmt.exists_attached other hOtherwise last hOpen
          hNearest.2.2 with
      ⟨attached, hAttached, hTokens⟩
    refine
      ⟨.ifElse word condition branch earlier attached,
        ⟨hNearest.1, hNearest.2.1, hAttached⟩, ?_⟩
    simp [Stmt.tokens, hTokens]
| .whileLoop word condition body, hOpen, hNearest => by
    rcases
        Stmt.exists_attached other hOtherwise body hOpen
          hNearest with
      ⟨attached, hAttached, hTokens⟩
    refine ⟨.whileLoop word condition attached, hAttached, ?_⟩
    simp [Stmt.tokens, hTokens]

mutual

/- A statement can be read with every `else` at the nearest. -/
theorem Stmt.exists_elseNearest :
    (statement : Stmt) →
      ∃ nearest : Stmt,
        nearest.ElseNearest ∧
          nearest.tokens = statement.tokens
| .block left body right => by
    rcases body.exists_elseNearest with
      ⟨nearest, hNearest, hTokens⟩
    refine ⟨.block left nearest right, hNearest, ?_⟩
    rw [Stmt.tokens, hTokens, Stmt.tokens]
| .ifThen word condition branch => by
    rcases branch.exists_elseNearest with
      ⟨nearest, hNearest, hTokens⟩
    refine ⟨.ifThen word condition nearest, hNearest, ?_⟩
    rw [Stmt.tokens, hTokens, Stmt.tokens]
| .ifElse word condition branch other otherwise => by
    rcases branch.exists_elseNearest with
      ⟨first, hFirst, hBranch⟩
    rcases otherwise.exists_elseNearest with
      ⟨second, hSecond, hOtherwise⟩
    cases hOpen : first.endsOpen with
    | true =>
        -- The `else` belongs to an `if` inside of the branch.
        rcases
            Stmt.exists_attached other hSecond first hOpen
              hFirst with
          ⟨attached, hAttached, hTokens⟩
        refine ⟨.ifThen word condition attached, hAttached, ?_⟩
        rw [Stmt.tokens, hTokens, hBranch, hOtherwise,
          Stmt.tokens]
    | false =>
        refine
          ⟨.ifElse word condition first other second,
            ⟨hOpen, hFirst, hSecond⟩, ?_⟩
        rw [Stmt.tokens, hBranch, hOtherwise, Stmt.tokens]
| .whileLoop word condition body => by
    rcases body.exists_elseNearest with
      ⟨nearest, hNearest, hTokens⟩
    refine ⟨.whileLoop word condition nearest, hNearest, ?_⟩
    rw [Stmt.tokens, hTokens, Stmt.tokens]
| .declaration declarator initializer stop =>
    ⟨.declaration declarator initializer stop, trivial, rfl⟩
| .assignment name sign value stop =>
    ⟨.assignment name sign value stop, trivial, rfl⟩
| .call parts stop => ⟨.call parts stop, trivial, rfl⟩
| .returnVoid word stop =>
    ⟨.returnVoid word stop, trivial, rfl⟩
| .returnValue word value stop =>
    ⟨.returnValue word value stop, trivial, rfl⟩
| .jump word stop => ⟨.jump word stop, trivial, rfl⟩

theorem Stmts.exists_elseNearest :
    (statements : Stmts) →
      ∃ nearest : Stmts,
        nearest.ElseNearest ∧
          nearest.tokens = statements.tokens
| .one statement => by
    rcases statement.exists_elseNearest with
      ⟨nearest, hNearest, hTokens⟩
    exact ⟨.one nearest, hNearest, hTokens⟩
| .more statement statements => by
    rcases statement.exists_elseNearest with
      ⟨first, hFirst, hTokens⟩
    rcases statements.exists_elseNearest with
      ⟨later, hLater, hMore⟩
    refine ⟨.more first later, ⟨hFirst, hLater⟩, ?_⟩
    rw [Stmts.tokens, hTokens, hMore, Stmts.tokens]

end

/- A program can be read with every `else` at the nearest. -/
theorem Program.exists_elseNearest
    (program : Program) :
    ∃ nearest : Program,
      nearest.ElseNearest ∧
        nearest.tokens = program.tokens := by
  rcases program with ⟨functions⟩
  induction functions with
  | nil =>
      refine ⟨⟨[]⟩, ?_, rfl⟩
      intro function hFunction
      cases hFunction
  | cons function functions ih =>
      rcases function.body.exists_elseNearest with
        ⟨body, hBody, hTokens⟩
      rcases ih with ⟨⟨others⟩, hOthers, hMore⟩
      refine ⟨⟨{ function with body } :: others⟩, ?_, ?_⟩
      · exact List.forall_mem_cons.mpr ⟨hBody, hOthers⟩
      · unfold Program.tokens at hMore ⊢
        rw [List.flatMap_cons, List.flatMap_cons, hMore,
          Function.tokens, Function.tokens, hTokens]

end Grammar

end OnePass

------------------------------------------------------------
-- Languages Of Trees
------------------------------------------------------------

namespace OnePass

namespace Grammar

open scoped Computability

/- What the trees of one kind are written with. -/
def written
    {χ : Type}
    (tokens : χ → List Token) : Language Token :=
  Set.range tokens

/- Something belongs to the language. -/
class Spoken (language : Language Token) : Prop where
  exists_mem : ∃ words, words ∈ language

instance {χ : Type} [Nonempty χ] (tokens : χ → List Token) :
    Spoken (written tokens) where
  exists_mem := by
    rcases ‹Nonempty χ› with ⟨tree⟩
    exact ⟨tokens tree, tree, rfl⟩

instance : Spoken 1 where
  exists_mem := ⟨[], rfl⟩

instance (first second : Language Token)
    [Spoken first] [Spoken second] :
    Spoken (first * second) where
  exists_mem := by
    rcases ‹Spoken first›.exists_mem with ⟨words, hWords⟩
    rcases ‹Spoken second›.exists_mem with ⟨more, hMore⟩
    exact ⟨words ++ more, Language.append_mem_mul hWords hMore⟩

instance (first second : Language Token) [Spoken first] :
    Spoken (first + second) where
  exists_mem := by
    rcases ‹Spoken first›.exists_mem with ⟨words, hWords⟩
    exact ⟨words, .inl hWords⟩

instance (language : Language Token) :
    Spoken language∗ where
  exists_mem := ⟨[], Language.nil_mem_kstar language⟩

/- One token of the kind. -/
abbrev leafWords (kind : Kind) : Language Token :=
  written fun leaf : Leaf kind => [leaf.token]

/- One token that stands for something. -/
abbrev signWords
    {ω : Type}
    (meaning? : Kind → Option ω) : Language Token :=
  written fun sign : Sign meaning? => [sign.token]

/- The expressions of a layer. -/
abbrev exprWords (layer : Nat) : Language Token :=
  written fun expr : Expr layer => expr.tokens

/- One or more items, separated by commas. -/
abbrev separatedWords
    {χ : Type}
    (tokens : χ → List Token) : Language Token :=
  written (Separated.tokens tokens)

/- Any number of items, separated by commas. -/
abbrev listedWords
    {χ : Type}
    (tokens : χ → List Token) : Language Token :=
  written fun items : Option (Separated χ) =>
    items.elim [] (Separated.tokens tokens)

abbrev stmtWords : Language Token := written Stmt.tokens

abbrev stmtsWords : Language Token := written Stmts.tokens

instance (kind : Kind) : Nonempty (Leaf kind) :=
  ⟨⟨"", .blank⟩⟩

instance : Nonempty (Sign Kind.valueType?) :=
  ⟨⟨⟨.kwInt, "", .blank⟩, .int, rfl⟩⟩

instance : Nonempty (Sign returnType?) :=
  ⟨⟨⟨.kwInt, "", .blank⟩, .int, rfl⟩⟩

theorem Expr.nonempty : (layer : Nat) → Nonempty (Expr layer)
| 0 => ⟨.name ⟨"", .blank⟩⟩
| layer + 1 => (Expr.nonempty layer).map .lift

instance (layer : Nat) : Nonempty (Expr layer) :=
  Expr.nonempty layer

instance : Nonempty Call :=
  ⟨.bare ⟨"", .blank⟩ ⟨"", .blank⟩ ⟨"", .blank⟩⟩

instance {χ : Type} [Nonempty χ] : Nonempty (Separated χ) :=
  ‹Nonempty χ›.map .one

instance : Nonempty Declarator :=
  ⟨⟨none, ⟨⟨.kwInt, "", .blank⟩, .int, rfl⟩, ⟨"", .blank⟩⟩⟩

instance : Nonempty Stmt :=
  ⟨.returnVoid ⟨"", .blank⟩ ⟨"", .blank⟩⟩

instance : Nonempty Stmts :=
  (inferInstance : Nonempty Stmt).map .one

end Grammar

end OnePass

------------------------------------------------------------
-- Rules For Expressions
------------------------------------------------------------

namespace OnePass

namespace Grammar

open scoped Computability

/- A word that stands for something is a sign of it. -/
theorem leaf_le_sign
    {ω : Type}
    {meaning? : Kind → Option ω}
    {kind : Kind}
    {meaning : ω}
    (hMeaning : meaning? kind = some meaning) :
    leafWords kind ≤ signWords meaning? := by
  rintro _ ⟨leaf, rfl⟩
  exact ⟨⟨leaf.token, meaning, hMeaning⟩, rfl⟩

/- Operands with the operators of a layer between them. -/
theorem chain_le
    (layer : Nat) :
    exprWords layer *
        (signWords (operator? layer) * exprWords layer)∗ ≤
      exprWords (layer + 1) := by
  apply mul_kstar_le
  · rintro _ ⟨operand, rfl⟩
    exact ⟨.lift operand, rfl⟩
  · rintro _ ⟨_, ⟨left, rfl⟩, _,
      ⟨_, ⟨operator, rfl⟩, _, ⟨right, rfl⟩, rfl⟩, rfl⟩
    exact ⟨.binary left operator right, rfl⟩

/- Items with commas between them. -/
theorem separated_le
    {χ : Type}
    (tokens : χ → List Token) :
    written tokens *
        (leafWords .comma * written tokens)∗ ≤
      separatedWords tokens := by
  apply mul_kstar_le
  · rintro _ ⟨item, rfl⟩
    exact ⟨.one item, rfl⟩
  · rintro _ ⟨_, ⟨items, rfl⟩, _,
      ⟨_, ⟨comma, rfl⟩, _, ⟨item, rfl⟩, rfl⟩, rfl⟩
    exact ⟨.more items comma item, rfl⟩

theorem listed_le
    {χ : Type}
    (tokens : χ → List Token) :
    1 + separatedWords tokens ≤ listedWords tokens := by
  rintro _ (hNil | ⟨items, rfl⟩)
  · exact ⟨none, hNil.symm⟩
  · exact ⟨some items, rfl⟩

theorem call_le :
    leafWords .identifier *
        (leafWords .leftParen *
          (listedWords (fun expr : Expression => expr.tokens) *
            leafWords .rightParen)) ≤
      written Call.tokens := by
  rintro _ ⟨_, ⟨callee, rfl⟩, _, ⟨_, ⟨left, rfl⟩, _,
    ⟨_, ⟨arguments, rfl⟩, _, ⟨right, rfl⟩, rfl⟩, rfl⟩, rfl⟩
  exact ⟨callOf callee left arguments right, tokens_callOf⟩

theorem negation_le :
    leafWords .kwNot * exprWords 0 ≤ exprWords 0 := by
  rintro _ ⟨_, ⟨word, rfl⟩, _, ⟨operand, rfl⟩, rfl⟩
  exact ⟨.negation word operand, rfl⟩

theorem cast_le :
    leafWords .leftParen *
        (signWords Kind.valueType? *
          (leafWords .rightParen * exprWords 0)) ≤
      exprWords 0 := by
  rintro _ ⟨_, ⟨left, rfl⟩, _, ⟨_, ⟨target, rfl⟩, _,
    ⟨_, ⟨right, rfl⟩, _, ⟨operand, rfl⟩, rfl⟩, rfl⟩, rfl⟩
  exact ⟨.cast left target right operand, rfl⟩

theorem paren_le :
    leafWords .leftParen *
        (exprWords topLayer * leafWords .rightParen) ≤
      exprWords 0 := by
  rintro _ ⟨_, ⟨left, rfl⟩, _,
    ⟨_, ⟨inner, rfl⟩, _, ⟨right, rfl⟩, rfl⟩, rfl⟩
  exact ⟨.paren left inner right, rfl⟩

theorem number_le :
    leafWords .number * (leafWords .byteSuffix + 1) ≤
      exprWords 0 := by
  rintro _ ⟨_, ⟨digits, rfl⟩, _, (⟨suffix, rfl⟩ | hNil), rfl⟩
  · exact ⟨.byte digits suffix, rfl⟩
  · refine ⟨.number digits, ?_⟩
    rw [Set.mem_singleton_iff.mp hNil]
    rfl

end Grammar

end OnePass

------------------------------------------------------------
-- Rules For Statements
------------------------------------------------------------

namespace OnePass

namespace Grammar

open scoped Computability

theorem declarator_le :
    leafWords .kwConst *
          (signWords Kind.valueType? * leafWords .identifier) +
        signWords Kind.valueType? * leafWords .identifier ≤
      written Declarator.tokens := by
  rintro _
    (⟨_, ⟨word, rfl⟩, _,
        ⟨_, ⟨ty, rfl⟩, _, ⟨name, rfl⟩, rfl⟩, rfl⟩ |
      ⟨_, ⟨ty, rfl⟩, _, ⟨name, rfl⟩, rfl⟩)
  · exact ⟨⟨some word, ty, name⟩, rfl⟩
  · exact ⟨⟨none, ty, name⟩, rfl⟩

/- What the first value of a variable is written with. -/
abbrev initializerWords : Language Token :=
  leafWords .assign * exprWords topLayer + 1

theorem declaration_le :
    written Declarator.tokens *
        (initializerWords * leafWords .semicolon) ≤
      stmtWords := by
  rintro _ ⟨_, ⟨declarator, rfl⟩, _, ⟨_,
    (⟨_, ⟨sign, rfl⟩, _, ⟨value, rfl⟩, rfl⟩ | hNil), _,
    ⟨stop, rfl⟩, rfl⟩, rfl⟩
  · exact
      ⟨.declaration declarator (some ⟨sign, value⟩) stop, rfl⟩
  · refine ⟨.declaration declarator none stop, ?_⟩
    rw [Set.mem_singleton_iff.mp hNil]
    rfl

theorem assignment_le :
    leafWords .identifier *
        (leafWords .assign *
          (exprWords topLayer * leafWords .semicolon)) ≤
      stmtWords := by
  rintro _ ⟨_, ⟨name, rfl⟩, _, ⟨_, ⟨sign, rfl⟩, _,
    ⟨_, ⟨value, rfl⟩, _, ⟨stop, rfl⟩, rfl⟩, rfl⟩, rfl⟩
  exact ⟨.assignment name sign value stop, rfl⟩

theorem callStatement_le :
    written Call.tokens * leafWords .semicolon ≤
      stmtWords := by
  rintro _ ⟨_, ⟨parts, rfl⟩, _, ⟨stop, rfl⟩, rfl⟩
  exact ⟨.call parts stop, rfl⟩

theorem return_le :
    leafWords .kwReturn *
          ((1 + exprWords topLayer) * leafWords .semicolon) ≤
      stmtWords := by
  rintro _ ⟨_, ⟨word, rfl⟩, _,
    ⟨_, (hNil | ⟨value, rfl⟩), _, ⟨stop, rfl⟩, rfl⟩, rfl⟩
  · refine ⟨.returnVoid word stop, ?_⟩
    rw [Set.mem_singleton_iff.mp hNil]
    rfl
  · exact ⟨.returnValue word value stop, rfl⟩

theorem jump_le :
    signWords jump? * leafWords .semicolon ≤ stmtWords := by
  rintro _ ⟨_, ⟨word, rfl⟩, _, ⟨stop, rfl⟩, rfl⟩
  exact ⟨.jump word stop, rfl⟩

/- What a condition is written with. -/
abbrev conditionWords : Language Token :=
  leafWords .leftParen *
    (exprWords topLayer * leafWords .rightParen)

theorem if_le :
    leafWords .kwIf *
        (conditionWords *
          (stmtWords * (leafWords .kwElse * stmtWords + 1))) ≤
      stmtWords := by
  rintro _ ⟨_, ⟨word, rfl⟩, _, ⟨_, ⟨_, ⟨left, rfl⟩, _,
    ⟨_, ⟨value, rfl⟩, _, ⟨right, rfl⟩, rfl⟩, rfl⟩, _,
    ⟨_, ⟨branch, rfl⟩, _,
      (⟨_, ⟨other, rfl⟩, _, ⟨otherwise, rfl⟩, rfl⟩ | hNil),
      rfl⟩, rfl⟩, rfl⟩
  · exact
      ⟨.ifElse word ⟨left, value, right⟩ branch other
        otherwise, rfl⟩
  · refine ⟨.ifThen word ⟨left, value, right⟩ branch, ?_⟩
    rw [Set.mem_singleton_iff.mp hNil]
    simp [Stmt.tokens, Condition.tokens]

theorem while_le :
    leafWords .kwWhile * (conditionWords * stmtWords) ≤
      stmtWords := by
  rintro _ ⟨_, ⟨word, rfl⟩, _, ⟨_, ⟨_, ⟨left, rfl⟩, _,
    ⟨_, ⟨value, rfl⟩, _, ⟨right, rfl⟩, rfl⟩, rfl⟩, _,
    ⟨body, rfl⟩, rfl⟩, rfl⟩
  exact ⟨.whileLoop word ⟨left, value, right⟩ body, rfl⟩

theorem block_le :
    leafWords .leftBrace *
        (stmtsWords * leafWords .rightBrace) ≤
      stmtWords := by
  rintro _ ⟨_, ⟨left, rfl⟩, _,
    ⟨_, ⟨body, rfl⟩, _, ⟨right, rfl⟩, rfl⟩, rfl⟩
  exact ⟨.block left body right, rfl⟩

/- Statements, one after the other. -/
theorem stmts_le :
    stmtWords * stmtWords∗ ≤ stmtsWords := by
  rw [← Language.mul_self_kstar_comm]
  apply kstar_mul_le
  · rintro _ ⟨statement, rfl⟩
    exact ⟨.one statement, rfl⟩
  · rintro _ ⟨_, ⟨statement, rfl⟩, _, ⟨statements, rfl⟩, rfl⟩
    exact ⟨.more statement statements, rfl⟩

end Grammar

end OnePass

------------------------------------------------------------
-- Rules For Programs
------------------------------------------------------------

namespace OnePass

namespace Grammar

open scoped Computability

/- What stands before the body of a function. -/
abbrev signatureWords : Language Token :=
  signWords returnType? *
    (leafWords .identifier *
      (leafWords .leftParen *
        (listedWords Declarator.tokens *
          leafWords .rightParen)))

/- The body of a function. -/
abbrev bodyWords : Language Token :=
  leafWords .leftBrace * (stmtsWords * leafWords .rightBrace)

theorem function_le :
    signatureWords * bodyWords ≤ written Function.tokens := by
  rintro _ ⟨_, ⟨_, ⟨returns, rfl⟩, _, ⟨_, ⟨name, rfl⟩, _,
    ⟨_, ⟨left, rfl⟩, _, ⟨_, ⟨formals, rfl⟩, _,
      ⟨right, rfl⟩, rfl⟩, rfl⟩, rfl⟩, rfl⟩, _,
    ⟨_, ⟨start, rfl⟩, _,
      ⟨_, ⟨body, rfl⟩, _, ⟨stop, rfl⟩, rfl⟩, rfl⟩, rfl⟩
  refine
    ⟨⟨returns, name, left, formals, right, start, body,
      stop⟩, ?_⟩
  simp [Function.tokens]

/- A sentence is any number of functions. -/
theorem isSentence_iff
    {tokens : List Token} :
    IsSentence tokens ↔
      tokens ∈ (written Function.tokens)∗ := by
  rw [Language.mem_kstar]
  constructor
  · rintro ⟨⟨functions⟩, rfl⟩
    refine ⟨functions.map Function.tokens, ?_, ?_⟩
    · rw [Program.tokens, List.flatMap_def]
    · intro words hWords
      rcases List.mem_map.mp hWords with
        ⟨function, -, hFunction⟩
      exact ⟨function, hFunction⟩
  · rintro ⟨parts, rfl, hParts⟩
    induction parts with
    | nil => exact ⟨⟨[]⟩, rfl⟩
    | cons words parts ih =>
        have hAll := List.forall_mem_cons.mp hParts
        rcases hAll.1 with ⟨function, rfl⟩
        rcases ih hAll.2 with ⟨⟨functions⟩, hTokens⟩
        refine ⟨⟨function :: functions⟩, ?_⟩
        unfold Program.tokens at hTokens ⊢
        rw [List.flatMap_cons, List.flatten_cons, hTokens]

end Grammar

end OnePass
