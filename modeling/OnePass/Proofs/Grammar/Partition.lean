import OnePass.Proofs.Grammar.Unambiguous

/-
  The tokens of a program tell where its functions begin and
  where they end.

  A function begins with a type, a name and a parenthesis,
  and these three are next to each other nowhere else. It
  ends with the brace that closes its body, since the braces
  inside of the body come in pairs. So every split of the
  tokens of a program at the beginning of a function is a
  split of its functions.

  Main declarations:
    * `Grammar.startsFunction`
    * `Grammar.Interior`
    * `Grammar.Stmts.interior`
    * `Grammar.exists_split_of_startsFunction`
    * `Grammar.Function.tokens_eq_of_append_eq`
    * `Grammar.exists_neighbours_of_tokens`
-/

------------------------------------------------------------
-- The Inside Of Functions
------------------------------------------------------------

namespace OnePass

namespace Grammar

/- A type, a name and a parenthesis are next. -/
def startsFunction : List Token → Bool
| returns :: name :: left :: _ =>
    (returnType? returns.kind).isSome &&
      name.kind = .identifier && left.kind = .leftParen
| _ => false

/- Neither the name of a type nor a brace. -/
def isPlain (kind : Kind) : Bool :=
  (returnType? kind).isNone && kind ≠ .leftBrace &&
    kind ≠ .rightBrace

/-
  Tokens whose braces come in pairs, and where the name of a
  type is followed by a parenthesis that closes, or by a name
  and a token that does not open one.
-/
inductive Interior : List Token → Prop where
  | nil : Interior []
  | plain
      {token : Token}
      (hPlain : isPlain token.kind = true) :
      Interior [token]
  | target
      (ty : Sign Kind.valueType?)
      (right : Leaf .rightParen) :
      Interior [ty.token, right.token]
  | declared
      (ty : Sign Kind.valueType?)
      (name : Leaf .identifier)
      {kind : Kind}
      (next : Leaf kind)
      (hPlain : isPlain kind = true)
      (hNext : kind ≠ .leftParen) :
      Interior [ty.token, name.token, next.token]
  | block
      (left : Leaf .leftBrace)
      {inside : List Token}
      (right : Leaf .rightBrace)
      (hInside : Interior inside) :
      Interior (left.token :: (inside ++ [right.token]))
  | append
      {first second : List Token}
      (hFirst : Interior first)
      (hSecond : Interior second) :
      Interior (first ++ second)

namespace Interior

variable {tokens : List Token}

theorem cons
    {token : Token}
    (hPlain : isPlain token.kind = true)
    (hTokens : Interior tokens) :
    Interior (token :: tokens) :=
  (plain hPlain).append hTokens

theorem concat
    {token : Token}
    (hTokens : Interior tokens)
    (hPlain : isPlain token.kind = true) :
    Interior (tokens ++ [token]) :=
  hTokens.append (plain hPlain)

end Interior

/- What starts a factor is plain. -/
theorem isPlain_of_startsFactor
    {kind : Kind}
    (hStarts : startsFactor kind = true) :
    isPlain kind = true := by
  cases kind <;> first | rfl | cases hStarts

/- A word for a jump is plain. -/
theorem isPlain_of_jump?
    {kind : Kind}
    {jump : Jump}
    (hJump : jump? kind = some jump) :
    isPlain kind = true := by
  cases kind <;> first | rfl | cases hJump

/- An operator is plain. -/
theorem Sign.isPlain_of_operator?
    {layer : Nat}
    (operator : Sign (operator? layer)) :
    isPlain operator.token.kind = true := by
  have hMeans := operator.means
  by_cases hLayer :
      operandLayer? operator.token.kind = some layer
  · cases hKind : operator.token.kind <;>
      first | rfl | simp [hKind, operandLayer?] at hLayer
  · rw [operator?_eq_none_of_ne hLayer] at hMeans
    cases hMeans

mutual

/- Expressions have no braces, and types only in casts. -/
theorem Expr.interior
    {layer : Nat} :
    (expr : Expr layer) → Interior expr.tokens
| .negation _ operand => operand.interior.cons rfl
| .cast _ target right operand =>
    ((Interior.target target right).append
      operand.interior).cons rfl
| .paren _ inner _ => (inner.interior.concat rfl).cons rfl
| .call parts => parts.interior
| .name _ => .plain rfl
| .string _ => .plain rfl
| .number _ => .plain rfl
| .byte _ _ => (Interior.plain rfl).cons rfl
| .bool word =>
    .plain
      (isPlain_of_startsFactor
        (startsFactor_of_truth? word.means))
| .lift operand => operand.interior
| .binary left operator right =>
    left.interior.append
      (right.interior.cons operator.isPlain_of_operator?)

theorem Call.interior :
    (parts : Call) → Interior parts.tokens
| .bare _ _ _ => ((Interior.plain rfl).cons rfl).cons rfl
| .applied _ _ arguments _ =>
    (((interior_arguments arguments).concat rfl).cons
      rfl).cons rfl

theorem interior_arguments :
    (arguments : Separated (Expr topLayer)) →
      Interior (argumentTokens arguments)
| .one item => item.interior
| .more items _ item =>
    (interior_arguments items).append
      (item.interior.cons rfl)

end

theorem Condition.interior
    (condition : Condition) :
    Interior condition.tokens :=
  (condition.value.interior.concat rfl).cons rfl

/- A declaration is read with the token after it. -/
theorem Declarator.interior
    (declarator : Declarator)
    {kind : Kind}
    (next : Leaf kind)
    (hPlain : isPlain kind = true)
    (hNext : kind ≠ .leftParen) :
    Interior (declarator.tokens ++ [next.token]) := by
  rcases declarator with ⟨_ | word, ty, name⟩
  · exact .declared ty name next hPlain hNext
  · exact
      (Interior.declared ty name next hPlain hNext).cons rfl

/- Formals are read with the parenthesis after them. -/
theorem interior_formals
    (formals : Option (Separated Declarator))
    (right : Leaf .rightParen) :
    Interior
      (formals.elim [] (Separated.tokens Declarator.tokens) ++
        [right.token]) := by
  have hItems
      (items : Separated Declarator)
      {kind : Kind}
      (next : Leaf kind)
      (hPlain : isPlain kind = true)
      (hNext : kind ≠ .leftParen) :
      Interior
        (items.tokens Declarator.tokens ++ [next.token]) := by
    induction items generalizing kind with
    | one item => exact item.interior next hPlain hNext
    | more items comma item ih =>
        have hBoth :=
          (ih comma rfl (by decide)).append
            (item.interior next hPlain hNext)
        simpa [Separated.tokens] using hBoth
  cases formals with
  | none => exact .plain rfl
  | some items => exact hItems items right rfl (by decide)

mutual

/- Statements have braces around blocks only. -/
theorem Stmt.interior :
    (statement : Stmt) → Interior statement.tokens
| .block left body right => .block left right body.interior
| .declaration declarator none stop =>
    declarator.interior stop rfl (by decide)
| .declaration declarator (some initializer) stop => by
    have hStop : isPlain stop.token.kind = true := rfl
    have hBoth :=
      (declarator.interior initializer.sign rfl
          (by decide)).append
        (initializer.value.interior.concat hStop)
    simpa [Stmt.tokens, Initializer.tokens] using hBoth
| .assignment _ _ value _ =>
    ((value.interior.concat rfl).cons rfl).cons rfl
| .call parts _ => parts.interior.concat rfl
| .returnVoid _ _ => (Interior.plain rfl).cons rfl
| .returnValue _ value _ =>
    (value.interior.concat rfl).cons rfl
| .ifThen _ condition branch =>
    (condition.interior.append branch.interior).cons rfl
| .ifElse _ condition branch _ otherwise =>
    (condition.interior.append
      (branch.interior.append
        (otherwise.interior.cons rfl))).cons rfl
| .whileLoop _ condition body =>
    (condition.interior.append body.interior).cons rfl
| .jump word _ =>
    (Interior.plain rfl).cons (isPlain_of_jump? word.means)

theorem Stmts.interior :
    (statements : Stmts) → Interior statements.tokens
| .one statement => statement.interior
| .more statement statements =>
    statement.interior.append statements.interior

end

end Grammar

end OnePass

------------------------------------------------------------
-- Where Functions Begin
------------------------------------------------------------

namespace OnePass

namespace Grammar

section Begin

variable {tokens rest after : List Token}
variable (hStarts : startsFunction after = true)

include hStarts

/- What is not the name of a type does not begin a function. -/
theorem suffix_of_suffix_cons
    {token : Token}
    (hToken : returnType? token.kind = none)
    (hAfter : after <:+ token :: rest) :
    after <:+ rest := by
  rcases List.suffix_cons_iff.mp hAfter with hHere | hLater
  · rw [hHere] at hStarts
    rcases rest with _ | ⟨name, _ | ⟨left, rest⟩⟩
    · cases hStarts
    · cases hStarts
    · simp [startsFunction, hToken] at hStarts
  · exact hLater

/- No function begins at a plain token. -/
theorem suffix_of_isPlain
    {token : Token}
    (hPlain : isPlain token.kind = true)
    (hAfter : after <:+ token :: rest) :
    after <:+ rest := by
  have hNone : returnType? token.kind = none := by
    simp only [isPlain, Bool.and_eq_true,
      Option.isNone_iff_eq_none] at hPlain
    exact hPlain.1.1
  exact suffix_of_suffix_cons hStarts hNone hAfter

/- No function begins inside of another one. -/
theorem Interior.suffix_of_suffix_append
    (hTokens : Interior tokens)
    (hAfter : after <:+ tokens ++ rest) :
    after <:+ rest := by
  induction hTokens generalizing rest with
  | nil => exact hAfter
  | plain hPlain =>
      exact suffix_of_isPlain hStarts hPlain hAfter
  | target ty right =>
      rcases List.suffix_cons_iff.mp hAfter with
        hHere | hLater
      · rw [hHere] at hStarts
        cases rest with
        | nil => cases hStarts
        | cons next rest =>
            simp [startsFunction, Leaf.token] at hStarts
      · exact suffix_of_suffix_cons hStarts rfl hLater
  | declared ty name next hPlain hNext =>
      rcases List.suffix_cons_iff.mp hAfter with
        hHere | hLater
      · rw [hHere] at hStarts
        simp [startsFunction, Leaf.token, hNext] at hStarts
      · have hLater := suffix_of_suffix_cons hStarts rfl hLater
        exact suffix_of_isPlain hStarts hPlain hLater
  | @block left inside right hInside ih =>
      rw [List.cons_append, List.append_assoc] at hAfter
      have hAfter := suffix_of_suffix_cons hStarts rfl hAfter
      exact suffix_of_suffix_cons hStarts rfl (ih hAfter)
  | append hFirst hSecond ihFirst ihSecond =>
      rw [List.append_assoc] at hAfter
      exact ihSecond (ihFirst hAfter)

/- A function begins nowhere but at its first token. -/
theorem Function.eq_or_suffix_of_suffix
    {function : Function}
    (hAfter : after <:+ function.tokens ++ rest) :
    after = function.tokens ++ rest ∨ after <:+ rest := by
  rcases List.suffix_cons_iff.mp hAfter with hHere | hLater
  · exact .inl hHere
  · right
    change after <:+ _ ++ rest at hLater
    simp only [List.cons_append, List.append_assoc,
      List.nil_append] at hLater
    have hFormals :=
      suffix_of_suffix_cons hStarts rfl
        (suffix_of_suffix_cons hStarts rfl hLater)
    rw [List.append_cons] at hFormals
    have hStart :=
      (interior_formals function.formals
        function.right).suffix_of_suffix_append hStarts
          hFormals
    have hBody := suffix_of_suffix_cons hStarts rfl hStart
    have hStop :=
      function.body.interior.suffix_of_suffix_append hStarts
        hBody
    exact suffix_of_suffix_cons hStarts rfl hStop

end Begin

theorem Function.startsFunction_tokens
    (function : Function)
    (rest : List Token) :
    startsFunction (function.tokens ++ rest) = true := by
  simp [Function.tokens, startsFunction, function.returns.means,
    Leaf.token]

/-
  The tokens of functions are split at the beginning of a
  function only where the functions are.
-/
theorem exists_split_of_startsFunction
    {functions : List Function}
    {before after : List Token}
    (hTokens :
      functions.flatMap Function.tokens = before ++ after)
    (hStarts : startsFunction after = true) :
    ∃ earlier later,
      functions = earlier ++ later ∧
        before = earlier.flatMap Function.tokens ∧
          after = later.flatMap Function.tokens := by
  induction functions generalizing before with
  | nil =>
      simp only [List.flatMap_nil, List.nil_eq,
        List.append_eq_nil_iff] at hTokens
      rw [hTokens.2] at hStarts
      cases hStarts
  | cons function functions ih =>
      have hAfter :
          after <:+
            function.tokens ++
              functions.flatMap Function.tokens :=
        ⟨before, by rw [← hTokens, List.flatMap_cons]⟩
      rcases
          Function.eq_or_suffix_of_suffix hStarts hAfter with
        hHere | hLater
      · refine ⟨[], function :: functions, rfl, ?_, hHere⟩
        rw [hHere, List.flatMap_cons] at hTokens
        exact List.self_eq_append_left.mp hTokens
      · rcases hLater with ⟨between, hBetween⟩
        rcases ih hBetween.symm with
          ⟨earlier, later, hSplit, hEarlier, hLater⟩
        refine
          ⟨function :: earlier, later, ?_, ?_, hLater⟩
        · rw [hSplit, List.cons_append]
        · rw [List.flatMap_cons, ← hEarlier]
          rw [List.flatMap_cons, ← hBetween,
            ← List.append_assoc] at hTokens
          exact (List.append_cancel_right hTokens).symm

end Grammar

end OnePass

------------------------------------------------------------
-- Where Functions End
------------------------------------------------------------

namespace OnePass

namespace Grammar

/-
  What comes after the brace that closes a block, given how
  many blocks are open inside of it.
-/
def afterBrace : Nat → List Token → List Token
| _, [] => []
| depth, token :: rest =>
    if token.kind = .leftBrace then
      afterBrace (depth + 1) rest
    else if token.kind = .rightBrace then
      match depth with
      | 0 => rest
      | depth + 1 => afterBrace depth rest
    else
      afterBrace depth rest

section End

variable {depth : Nat} {rest : List Token}

theorem afterBrace_leftBrace
    (left : Leaf .leftBrace) :
    afterBrace depth (left.token :: rest) =
      afterBrace (depth + 1) rest :=
  rfl

theorem afterBrace_rightBrace
    (right : Leaf .rightBrace) :
    afterBrace (depth + 1) (right.token :: rest) =
      afterBrace depth rest :=
  rfl

/- Tokens that are no braces are passed over. -/
theorem afterBrace_cons
    {token : Token}
    (hLeft : token.kind ≠ .leftBrace)
    (hRight : token.kind ≠ .rightBrace) :
    afterBrace depth (token :: rest) =
      afterBrace depth rest := by
  cases depth <;> simp [afterBrace, hLeft, hRight]

theorem afterBrace_plain
    {token : Token}
    (hPlain : isPlain token.kind = true) :
    afterBrace depth (token :: rest) =
      afterBrace depth rest := by
  simp only [isPlain, Bool.and_eq_true,
    decide_eq_true_eq] at hPlain
  exact afterBrace_cons hPlain.1.2 hPlain.2

theorem afterBrace_type
    (ty : Sign Kind.valueType?) :
    afterBrace depth (ty.token :: rest) =
      afterBrace depth rest :=
  afterBrace_cons (ty.kind_ne rfl) (ty.kind_ne rfl)

/- The braces inside of a function come in pairs. -/
theorem Interior.afterBrace_append
    {tokens : List Token}
    (hTokens : Interior tokens) :
    afterBrace depth (tokens ++ rest) =
      afterBrace depth rest := by
  induction hTokens generalizing depth rest with
  | nil => rfl
  | plain hPlain => exact afterBrace_plain hPlain
  | target ty right =>
      exact (afterBrace_type ty).trans (afterBrace_plain rfl)
  | declared ty name next hPlain hNext =>
      exact
        (afterBrace_type ty).trans
          ((afterBrace_plain rfl).trans
            (afterBrace_plain hPlain))
  | block left right hInside ih =>
      rw [List.cons_append, List.append_assoc,
        afterBrace_leftBrace, ih]
      exact afterBrace_rightBrace right
  | append hFirst hSecond ihFirst ihSecond =>
      rw [List.append_assoc, ihFirst, ihSecond]

end End

/- Two functions that start at one place end at one place. -/
theorem Function.tokens_eq_of_append_eq
    {first second : Function}
    {rest others : List Token}
    (hSame :
      first.tokens ++ rest = second.tokens ++ others) :
    first.tokens = second.tokens ∧ rest = others := by
  have hBody :=
    (Function.header_eq_of_tokens_eq hSame).2
  have hRest : rest = others := by
    have hAfter := congrArg (afterBrace 0) hBody
    rw [first.body.interior.afterBrace_append,
      second.body.interior.afterBrace_append] at hAfter
    exact hAfter
  rw [hRest] at hSame
  exact ⟨List.append_cancel_right hSame, hRest⟩

/- A function at the front of a text is its first function. -/
theorem exists_cons_of_tokens
    {functions : List Function}
    {first : Function}
    {rest : List Token}
    (hTokens :
      first.tokens ++ rest =
        functions.flatMap Function.tokens) :
    ∃ function others,
      functions = function :: others ∧
        function.tokens = first.tokens ∧
          rest = others.flatMap Function.tokens := by
  cases functions with
  | nil => simp [Function.tokens] at hTokens
  | cons function functions =>
      rcases Function.tokens_eq_of_append_eq hTokens with
        ⟨hSame, hRest⟩
      exact ⟨function, functions, rfl, hSame.symm, hRest⟩

/- Two functions in the middle of a text are two of its own. -/
theorem exists_neighbours_of_tokens
    {functions : List Function}
    {before after : List Token}
    {first second : Function}
    (hTokens :
      functions.flatMap Function.tokens =
        before ++ first.tokens ++ second.tokens ++ after) :
    ∃ earlier function neighbour later,
      functions = earlier ++ function :: neighbour :: later ∧
        before = earlier.flatMap Function.tokens ∧
        function.tokens = first.tokens ∧
        neighbour.tokens = second.tokens ∧
          after = later.flatMap Function.tokens := by
  rw [List.append_assoc, List.append_assoc] at hTokens
  rcases
      exists_split_of_startsFunction hTokens
        (first.startsFunction_tokens _) with
    ⟨earlier, rest, hSplit, hBefore, hRest⟩
  rcases exists_cons_of_tokens hRest with
    ⟨function, others, hFunction, hFirst, hOthers⟩
  rcases exists_cons_of_tokens hOthers with
    ⟨neighbour, later, hNeighbour, hSecond, hAfter⟩
  rw [hFunction, hNeighbour] at hSplit
  exact
    ⟨earlier, function, neighbour, later, hSplit, hBefore,
      hFirst, hSecond, hAfter⟩

end Grammar

end OnePass
