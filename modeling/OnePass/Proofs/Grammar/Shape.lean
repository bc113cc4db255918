import OnePass.Proofs.Grammar.Boundary

/-
  Trees where they stand among other tokens.

  The shape of a kind of trees says which tokens a tree is
  written with, which trees are admitted, and before which
  tokens a tree is complete. The nesting budget of a shape
  bounds the nesting of the trees that it admits.

  Key definitions include:
    * `Grammar.Shape`
    * `Grammar.Shape.separated`, `Grammar.Shape.listed`
    * `Grammar.exprShape`, `Grammar.callShape`
    * `Grammar.stmtShape`, `Grammar.stmtsShape`
    * `Grammar.functionShape`
-/

------------------------------------------------------------
-- Shapes
------------------------------------------------------------

namespace OnePass

namespace Grammar

structure Shape (χ : Type) where
  /- The tokens of a tree. -/
  tokens : χ → List Token
  /- A tree is well-formed and not nested too deeply. -/
  Fits : χ → Prop
  /- A tree is complete before the given tokens. -/
  Stops : χ → List Token → Prop

namespace Separated

variable {α : Type}

/- A property of every item. -/
def Forall (property : α → Prop) : Separated α → Prop
| one item => property item
| more items _ item => items.Forall property ∧ property item

/- The last item. -/
def last : Separated α → α
| one item => item
| more _ _ item => item

/- A list of items starts with an item. -/
theorem exists_tokens_eq
    (itemTokens : α → List Token)
    (items : Separated α) :
    ∃ item rest,
      items.tokens itemTokens = itemTokens item ++ rest := by
  induction items with
  | one item => exact ⟨item, [], by simp [Separated.tokens]⟩
  | more items comma item ih =>
      rcases ih with ⟨first, rest, hTokens⟩
      refine
        ⟨first, rest ++ comma.token :: itemTokens item, ?_⟩
      simp [Separated.tokens, hTokens]

end Separated

namespace Shape

variable {χ ψ : Type}

/- The trees that are built in one way. -/
def via
    (shape : Shape χ)
    (build : ψ → χ) : Shape ψ where
  tokens parts := shape.tokens (build parts)
  Fits parts := shape.Fits (build parts)
  Stops parts := shape.Stops (build parts)

/- One or more trees, separated by commas. -/
def separated (shape : Shape χ) : Shape (Separated χ) where
  tokens := Separated.tokens shape.tokens
  Fits := Separated.Forall shape.Fits
  Stops items rest :=
    shape.Stops items.last rest ∧
      headKind rest ≠ some .comma

/- Any number of trees, before a closing parenthesis. -/
def listed
    (shape : Shape χ) : Shape (Option (Separated χ)) where
  tokens items :=
    items.elim [] (Separated.tokens shape.tokens)
  Fits items := ∀ present ∈ items, shape.separated.Fits present
  Stops items rest :=
    match items with
    | none => headKind rest = some .rightParen
    | some present => shape.separated.Stops present rest

end Shape

end Grammar

end OnePass

------------------------------------------------------------
-- Shapes Of Trees
------------------------------------------------------------

namespace OnePass

namespace Grammar

/- The expressions of a layer, within a nesting budget. -/
def exprShape (layer budget : Nat) : Shape (Expr layer) where
  tokens := Expr.tokens
  Fits expr := expr.nesting ≤ budget
  Stops := Expr.Stops

/- Every factor takes up a level of nesting. -/
theorem Expr.nesting_pos
    (tree : Expr 0) :
    0 < tree.nesting := by
  cases tree <;> simp [Expr.nesting]

/- Calls whose arguments are within a nesting budget. -/
def callShape (budget : Nat) : Shape Call where
  tokens := Call.tokens
  Fits call := call.nesting ≤ budget
  Stops _ _ := True

/- The conditions within a nesting budget. -/
def conditionShape (budget : Nat) : Shape Condition where
  tokens := Condition.tokens
  Fits condition := condition.value.nesting ≤ budget
  Stops _ _ := True

/- First values, within a nesting budget. -/
def initializerShape
    (budget : Nat) : Shape (Option Initializer) where
  tokens initializer :=
    initializer.elim [] Initializer.tokens
  Fits initializer :=
    initializer.elim 0 (·.value.nesting) ≤ budget
  Stops initializer rest :=
    match initializer with
    | none => headKind rest ≠ some .assign
    | some present => present.value.Stops rest

/- A first value is complete before a semicolon. -/
theorem initializer_stops
    {budget : Nat}
    (initializer : Option Initializer)
    (stop : Leaf .semicolon)
    (rest : List Token) :
    (initializerShape budget).Stops initializer
      (stop.token :: rest) := by
  cases initializer with
  | none =>
      intro hAssign
      cases hAssign
  | some present =>
      exact
        present.value.stops_of_separates
          (stop.separates _ _ (by decide))

/- Types with names, the way they are declared. -/
def declaratorShape : Shape Declarator where
  tokens := Declarator.tokens
  Fits _ := True
  Stops _ _ := True

/- Every list of formals is admitted. -/
theorem fits_formals
    (formals : Option (Separated Declarator)) :
    declaratorShape.listed.Fits formals := by
  intro items hItems
  clear hItems
  induction items with
  | one item => trivial
  | more items comma item ih => exact ⟨ih, trivial⟩

/- A list of formals is complete at a parenthesis. -/
theorem stops_formals
    (formals : Option (Separated Declarator))
    (right : Leaf .rightParen)
    (rest : List Token) :
    declaratorShape.listed.Stops formals
      (right.token :: rest) := by
  cases formals with
  | none => rfl
  | some items =>
      refine ⟨trivial, ?_⟩
      intro hComma
      cases hComma

/-
  The statements within a nesting budget. One that ends with
  an `if` that has no `else` is not complete before an
  `else`.
-/
def stmtShape (budget : Nat) : Shape Stmt where
  tokens := Stmt.tokens
  Fits statement :=
    statement.nesting ≤ budget ∧ statement.ElseNearest
  Stops statement rest :=
    statement.endsOpen = true →
      headKind rest ≠ some .kwElse

/- Every statement takes up a level of nesting. -/
theorem Stmt.nesting_pos
    (tree : Stmt) :
    0 < tree.nesting := by
  cases tree <;> simp [Stmt.nesting]

/- At a closing brace, or at the end of input. -/
def ListEnds (rest : List Token) : Prop :=
  ∀ kind, headKind rest = some kind → kind = .rightBrace

/- A closing brace ends a list of statements. -/
theorem listEnds_rightBrace
    (brace : Leaf .rightBrace)
    (rest : List Token) :
    ListEnds (brace.token :: rest) := by
  intro kind hKind
  exact (Option.some.inj hKind).symm

/- At a statement, a list of statements does not end. -/
theorem Stmt.not_listEnds_tokens
    (tree : Stmt)
    (rest : List Token) :
    ¬ ListEnds (tree.tokens ++ rest) := by
  intro hEnds
  rcases tree.tokens_eq_cons with
    ⟨first, more, hTokens, hStarts⟩
  rw [hTokens] at hEnds
  have hBrace : first.kind = .rightBrace := hEnds _ rfl
  rw [hBrace] at hStarts
  cases hStarts

theorem Stmts.not_listEnds_tokens
    (trees : Stmts)
    (rest : List Token) :
    ¬ ListEnds (trees.tokens ++ rest) := by
  rcases trees.exists_tokens_eq with ⟨first, more, hTokens⟩
  rw [hTokens, List.append_assoc]
  exact first.not_listEnds_tokens _

/- Where a list of statements ends, no `else` follows. -/
theorem ListEnds.not_else
    {rest : List Token}
    (hEnds : ListEnds rest) :
    headKind rest ≠ some .kwElse := by
  intro hElse
  have hBrace := hEnds _ hElse
  cases hBrace

/- Lists of statements within a nesting budget. -/
def stmtsShape (budget : Nat) : Shape Stmts where
  tokens := Stmts.tokens
  Fits statements :=
    statements.nesting ≤ budget ∧ statements.ElseNearest
  Stops _ rest := ListEnds rest

/- Functions whose bodies are within a nesting budget. -/
def functionShape (budget : Nat) : Shape Function where
  tokens := Function.tokens
  Fits function :=
    function.body.nesting ≤ budget ∧
      function.body.ElseNearest
  Stops _ _ := True

end Grammar

end OnePass

------------------------------------------------------------
-- Calls
------------------------------------------------------------

namespace OnePass

namespace Grammar

/- Arguments are written like any list of items. -/
theorem argumentTokens_eq
    (arguments : Separated Expression) :
    argumentTokens arguments =
      arguments.tokens Expr.tokens := by
  induction arguments with
  | one item => rfl
  | more items comma item ih =>
      rw [argumentTokens, Separated.tokens, ih]

/- Arguments fit if each of them fits. -/
theorem argumentNesting_le_iff
    {budget : Nat}
    (arguments : Separated Expression) :
    argumentNesting arguments ≤ budget ↔
      arguments.Forall (·.nesting ≤ budget) := by
  induction arguments with
  | one item => rfl
  | more items comma item ih =>
      rw [argumentNesting, Nat.max_le, ih]
      rfl

/- A call with the arguments that a list holds, if any. -/
def callOf
    (callee : Leaf .identifier)
    (left : Leaf .leftParen)
    (arguments : Option (Separated Expression))
    (right : Leaf .rightParen) : Call :=
  match arguments with
  | none => .bare callee left right
  | some present => .applied callee left present right

/- Every call is made in this way. -/
theorem exists_eq_callOf
    (call : Call) :
    ∃ callee left arguments right,
      call = callOf callee left arguments right := by
  cases call with
  | bare callee left right =>
      exact ⟨callee, left, none, right, rfl⟩
  | applied callee left arguments right =>
      exact ⟨callee, left, some arguments, right, rfl⟩

section CallOf

variable {callee : Leaf .identifier}
variable {left : Leaf .leftParen}
variable {arguments : Option (Separated Expression)}
variable {right : Leaf .rightParen}

theorem tokens_callOf :
    (callOf callee left arguments right).tokens =
      callee.token :: left.token ::
        (arguments.elim [] (Separated.tokens Expr.tokens) ++
          [right.token]) := by
  cases arguments with
  | none => rfl
  | some present =>
      rw [callOf, Call.tokens, argumentTokens_eq]
      rfl

theorem nesting_callOf_le_iff
    {budget : Nat} :
    (callOf callee left arguments right).nesting ≤ budget ↔
      (exprShape topLayer budget).listed.Fits
        arguments := by
  cases arguments with
  | none =>
      constructor
      · intro _ _ hPresent
        cases hPresent
      · intro _
        exact Nat.zero_le _
  | some present =>
      rw [callOf, Call.nesting, argumentNesting_le_iff]
      constructor
      · rintro hFits _ ⟨rfl⟩
        exact hFits
      · intro hFits
        exact hFits present rfl

end CallOf

end Grammar

end OnePass
