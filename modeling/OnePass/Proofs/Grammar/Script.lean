import OnePass.Proofs.Grammar.Announcement
import OnePass.Proofs.Grammar.Sentence
import OnePass.Proofs.Grammar.Shape
import OnePass.Proofs.Parser.Transcript

/-
  The script of a tree.

  A script lists the tokens of a tree and, in between, the
  events that are announced. An event stands behind all
  tokens of its construct, and every extent in it is read
  off the tokens alone: from the start of the first token to
  the end of the last, on the line of the last.

  Main declarations:
    * `Grammar.extent`
    * `Grammar.Ordered`, `Grammar.cover_extent`
    * `Grammar.Script`
    * `Grammar.Expr.script`
    * `Grammar.Stmt.script`
    * `Grammar.Program.script`
    * `Grammar.Script.IsOpening`
-/

------------------------------------------------------------
-- Extents
------------------------------------------------------------

namespace OnePass

namespace Grammar

/-
  From the start of the first token to the end of the last,
  on the line of the last.
-/
def extent (tokens : List Token) : Span :=
  match tokens.head?, tokens.getLast? with
  | some first, some last =>
      ⟨first.span.start, last.span.stop, last.span.line⟩
  | _, _ => .blank

/- No token starts before an earlier one ends. -/
structure Ordered (tokens : List Token) : Prop where
  apart :
    tokens.Pairwise
      (fun earlier later =>
        earlier.span.stop ≤ later.span.start)
  forward :
    ∀ token ∈ tokens, token.span.start ≤ token.span.stop

@[simp] theorem extent_singleton
    (token : Token) :
    extent [token] = token.span :=
  rfl

theorem extent_of_ends
    {tokens : List Token}
    {first last : Token}
    (hFirst : tokens.head? = some first)
    (hLast : tokens.getLast? = some last) :
    extent tokens =
      ⟨first.span.start, last.span.stop, last.span.line⟩ := by
  unfold extent
  rw [hFirst, hLast]

theorem exists_ends
    {tokens : List Token}
    (hTokens : tokens ≠ []) :
    ∃ first last,
      tokens.head? = some first ∧
        tokens.getLast? = some last ∧
          first ∈ tokens ∧ last ∈ tokens :=
  ⟨tokens.head hTokens, tokens.getLast hTokens,
    List.head?_eq_some_head hTokens,
    List.getLast?_eq_some_getLast hTokens,
    List.head_mem hTokens, List.getLast_mem hTokens⟩

theorem Ordered.of_append_left
    {first second : List Token}
    (hOrdered : Ordered (first ++ second)) :
    Ordered first where
  apart := (List.pairwise_append.mp hOrdered.apart).1
  forward token hToken :=
    hOrdered.forward token (List.mem_append_left second hToken)

theorem Ordered.of_append_right
    {first second : List Token}
    (hOrdered : Ordered (first ++ second)) :
    Ordered second where
  apart := (List.pairwise_append.mp hOrdered.apart).2.1
  forward token hToken :=
    hOrdered.forward token (List.mem_append_right first hToken)

/-
  The cover of two extents is the extent of all the tokens,
  with what is between the two.
-/
theorem cover_extent
    {before left right : List Token}
    (between : List Token)
    (hLeft : left ≠ [])
    (hRight : right ≠ [])
    (hOrdered :
      Ordered (before ++ (left ++ (between ++ right)))) :
    (extent left).cover (extent right) =
      extent (left ++ (between ++ right)) := by
  replace hOrdered := hOrdered.of_append_right
  rcases exists_ends hLeft with
    ⟨first, leftLast, hFirst, hLeftLast, hFirstMem,
      hLeftLastMem⟩
  rcases exists_ends hRight with
    ⟨rightFirst, last, hRightFirst, hLast, hRightFirstMem,
      hLastMem⟩
  have hHead :
      (left ++ (between ++ right)).head? = some first := by
    simp [hFirst]
  have hEnd :
      (left ++ (between ++ right)).getLast? = some last := by
    simp [hLast]
  have hApart :=
    (List.pairwise_append.mp hOrdered.apart).2.2
  have hStart :=
    hApart first hFirstMem rightFirst
      (List.mem_append_right between hRightFirstMem)
  have hStop :=
    hApart leftLast hLeftLastMem last
      (List.mem_append_right between hLastMem)
  have hFirstForward :=
    hOrdered.forward first
      (List.mem_append_left _ hFirstMem)
  have hLastForward :=
    hOrdered.forward last
      (List.mem_append_right left
        (List.mem_append_right between hLastMem))
  rw [extent_of_ends hHead hEnd,
    extent_of_ends hFirst hLeftLast,
    extent_of_ends hRightFirst hLast]
  unfold Span.cover
  dsimp only
  rw [Nat.min_eq_left (by omega), Nat.max_eq_right (by omega),
    if_pos (by omega)]

/- From a token to the end of what follows it. -/
theorem cover_token
    {before right : List Token}
    (first : Token)
    (between : List Token)
    (hRight : right ≠ [])
    (hOrdered :
      Ordered (before ++ first :: (between ++ right))) :
    first.span.cover (extent right) =
      extent (first :: (between ++ right)) :=
  cover_extent between (List.cons_ne_nil first []) hRight
    hOrdered

/- From a token to a later one. -/
theorem cover_tokens
    {before : List Token}
    (first last : Token)
    (between : List Token)
    (hOrdered :
      Ordered (before ++ first :: (between ++ [last]))) :
    first.span.cover last.span =
      extent (first :: (between ++ [last])) :=
  cover_token first between (List.cons_ne_nil last [])
    hOrdered

end Grammar

end OnePass

------------------------------------------------------------
-- Scripts
------------------------------------------------------------

namespace OnePass

namespace Grammar

/- A token that is read, or an event that is announced. -/
inductive Mark where
  | read (token : Token)
  | announce (event : Event Unit)

namespace Mark

def token? : Mark → Option Token
| read token => some token
| announce _ => none

def event? : Mark → Option (Event Unit)
| read _ => none
| announce event => some event

end Mark

/- What is read and announced, in order. -/
abbrev Script : Type := List Mark

namespace Script

/- The tokens that are read. -/
def tokens (script : Script) : List Token :=
  script.filterMap Mark.token?

/- The events that are announced. -/
def events (script : Script) : List (Event Unit) :=
  script.filterMap Mark.event?

variable (first second : Script)
variable (script : Script)

@[simp] theorem tokens_nil : tokens [] = [] :=
  rfl

@[simp] theorem tokens_read
    (token : Token) :
    tokens (.read token :: script) = token :: script.tokens :=
  rfl

@[simp] theorem tokens_announce
    (event : Event Unit) :
    tokens (.announce event :: script) = script.tokens :=
  rfl

@[simp] theorem tokens_append :
    tokens (first ++ second) =
      first.tokens ++ second.tokens :=
  List.filterMap_append

@[simp] theorem events_nil : events [] = [] :=
  rfl

@[simp] theorem events_read
    (token : Token) :
    events (.read token :: script) = script.events :=
  rfl

@[simp] theorem events_announce
    (event : Event Unit) :
    events (.announce event :: script) =
      event :: script.events :=
  rfl

@[simp] theorem events_append :
    events (first ++ second) =
      first.events ++ second.events :=
  List.filterMap_append

end Script

/- The script of tokens among which nothing is announced. -/
def silent (tokens : List Token) : Script :=
  tokens.map .read

/- The script of items, given that of an item. -/
def Separated.script
    {χ : Type}
    (itemScript : χ → Script) :
    Separated χ → Script
| one item => itemScript item
| more items comma item =>
    items.script itemScript ++
      .read comma.token :: itemScript item

theorem Separated.tokens_script
    {χ : Type}
    {itemScript : χ → Script}
    {itemTokens : χ → List Token}
    (hItem :
      ∀ item, (itemScript item).tokens = itemTokens item)
    (items : Separated χ) :
    (items.script itemScript).tokens =
      items.tokens itemTokens := by
  induction items with
  | one item => exact hItem item
  | more items comma item ih =>
      rw [Separated.script, Script.tokens_append, ih,
        Script.tokens_read, hItem]
      rfl

@[simp] theorem tokens_silent
    (tokens : List Token) :
    (silent tokens).tokens = tokens := by
  unfold silent Script.tokens
  rw [List.filterMap_map]
  exact List.filterMap_some

end Grammar

end OnePass

------------------------------------------------------------
-- Scripts Of Expressions
------------------------------------------------------------

namespace OnePass

namespace Grammar

/- An expression as a part of an event: its extent only. -/
def Expr.outline
    {layer : Nat}
    (expr : Expr layer) : Typed Unit :=
  ⟨(), extent expr.tokens⟩

mutual

/- The script of an expression. -/
def Expr.script
    {layer : Nat} :
    Expr layer → Script
| .negation word operand =>
    .read word.token ::
      (operand.script ++
        [.announce
          (.value
            (.negation operand.outline
              (extent (Expr.negation word operand).tokens)))])
| .cast left target right operand =>
    .read left.token :: .read target.token ::
      .read right.token ::
        (operand.script ++
          [.announce
            (.value
              (.cast target.meaning operand.outline
                (extent
                  (Expr.cast left target right
                    operand).tokens)))])
| .paren left inner right =>
    .read left.token ::
      (inner.script ++ [.read right.token])
| .call parts => parts.script
| .name leaf =>
    [.read leaf.token,
      .announce (.value (.identifier leaf.identifier))]
| .string leaf =>
    [.read leaf.token,
      .announce
        (.value (.stringLiteral (extent [leaf.token])))]
| .number digits =>
    [.read digits.token,
      .announce
        (.value
          (.numberLiteral digits.text
            (extent [digits.token])))]
| .byte digits suffix =>
    [.read digits.token, .read suffix.token,
      .announce
        (.value
          (.byteLiteral digits.text
            (extent (Expr.byte digits suffix).tokens)))]
| .bool word =>
    [.read word.token,
      .announce
        (.value
          (.boolLiteral word.meaning
            (extent [word.token])))]
| .lift operand => operand.script
| .binary left operator right =>
    left.script ++
      .read operator.token ::
        (right.script ++
          [.announce
            (.value
              (operator.meaning.event left.outline
                right.outline
                (extent
                  (Expr.binary left operator
                    right).tokens)))])

/- The script of a call. -/
def Call.script : Call → Script
| .bare callee left right =>
    [.read callee.token, .read left.token,
      .read right.token,
      .announce
        (.value
          (.call callee.identifier []
            (extent
              (Call.bare callee left right).tokens)))]
| .applied callee left arguments right =>
    .read callee.token :: .read left.token ::
      (argumentScript arguments ++
        [.read right.token,
          .announce
            (.value
              (.call callee.identifier
                (arguments.toList.map Expr.outline)
                (extent
                  (Call.applied callee left arguments
                    right).tokens)))])

/- The script of arguments. -/
def argumentScript : Separated (Expr topLayer) → Script
| .one item => item.script
| .more items comma item =>
    argumentScript items ++ .read comma.token :: item.script

end

mutual

/- A script holds the tokens of its expression. -/
theorem Expr.tokens_script
    {layer : Nat} :
    (expr : Expr layer) → expr.script.tokens = expr.tokens
| .negation word operand => by
    simp [Expr.script, Expr.tokens, Expr.tokens_script operand]
| .cast left target right operand => by
    simp [Expr.script, Expr.tokens, Expr.tokens_script operand]
| .paren left inner right => by
    simp [Expr.script, Expr.tokens, Expr.tokens_script inner]
| .call parts => by
    rw [Expr.script, Expr.tokens, Call.tokens_script parts]
| .name leaf => by simp [Expr.script, Expr.tokens]
| .string leaf => by simp [Expr.script, Expr.tokens]
| .number digits => by simp [Expr.script, Expr.tokens]
| .byte digits suffix => by simp [Expr.script, Expr.tokens]
| .bool word => by simp [Expr.script, Expr.tokens]
| .lift operand => by
    rw [Expr.script, Expr.tokens, Expr.tokens_script operand]
| .binary left operator right => by
    simp [Expr.script, Expr.tokens, Expr.tokens_script left,
      Expr.tokens_script right]

/- A script holds the tokens of its call. -/
theorem Call.tokens_script :
    (parts : Call) → parts.script.tokens = parts.tokens
| .bare callee left right => by
    simp [Call.script, Call.tokens]
| .applied callee left arguments right => by
    simp [Call.script, Call.tokens,
      tokens_argumentScript arguments]

/- A script holds the tokens of its arguments. -/
theorem tokens_argumentScript :
    (arguments : Separated (Expr topLayer)) →
      (argumentScript arguments).tokens =
        argumentTokens arguments
| .one item => by
    rw [argumentScript, argumentTokens,
      Expr.tokens_script item]
| .more items comma item => by
    simp [argumentScript, argumentTokens,
      tokens_argumentScript items, Expr.tokens_script item]

end

theorem argumentScript_eq
    (arguments : Separated (Expr topLayer)) :
    argumentScript arguments =
      arguments.script Expr.script := by
  induction arguments with
  | one item => rw [argumentScript, Separated.script]
  | more items comma item ih =>
      rw [argumentScript, Separated.script, ih]

theorem tokens_listedScript
    (arguments : Option (Separated Expression)) :
    Script.tokens
        (arguments.elim [] (Separated.script Expr.script)) =
      arguments.elim [] (Separated.tokens Expr.tokens) := by
  cases arguments with
  | none => rfl
  | some present =>
      exact Separated.tokens_script Expr.tokens_script present

theorem script_callOf
    (callee : Leaf .identifier)
    (left : Leaf .leftParen)
    (arguments : Option (Separated Expression))
    (right : Leaf .rightParen) :
    (callOf callee left arguments right).script =
      .read callee.token :: .read left.token ::
        (arguments.elim [] (Separated.script Expr.script) ++
          [.read right.token,
            .announce
              (.value
                (.call callee.identifier
                  ((arguments.elim [] Separated.toList).map
                    Expr.outline)
                  (extent
                    (callOf callee left arguments
                      right).tokens)))]) := by
  cases arguments with
  | none => rfl
  | some present =>
      rw [callOf, Call.script, argumentScript_eq]
      rfl

/- Every expression is written with some token. -/
theorem Expr.tokens_ne_nil
    {layer : Nat}
    (expr : Expr layer) :
    expr.tokens ≠ [] := by
  rcases expr.tokens_eq_cons with ⟨first, rest, hTokens, -⟩
  rw [hTokens]
  exact List.cons_ne_nil first rest

end Grammar

end OnePass

------------------------------------------------------------
-- Scripts Of Statements And Programs
------------------------------------------------------------

namespace OnePass

namespace Grammar

/- The script of a condition. -/
def Condition.script (condition : Condition) : Script :=
  .read condition.left.token ::
    (condition.value.script ++
      [.announce (.effect (.condition condition.value.outline)),
        .read condition.right.token])

/- The script of the first value of a variable. -/
def Initializer.script (initializer : Initializer) : Script :=
  .read initializer.sign.token :: initializer.value.script

theorem tokens_initializerScript
    (initializer : Option Initializer) :
    Script.tokens (initializer.elim [] Initializer.script) =
      initializer.elim [] Initializer.tokens := by
  cases initializer with
  | none => rfl
  | some given =>
      exact
        congrArg (given.sign.token :: ·)
          given.value.tokens_script

/- What is inside a scope, and the scope around it. -/
def inOwnScope (inside : Script) : Script :=
  .announce (.effect .openScope) ::
    (inside ++ [.announce (.effect .closeScope)])

mutual

/-
  The script of a statement. That a function returns without
  a value is announced before the semicolon is read, and yet
  the extent takes in the semicolon; the script has it in
  front of the event.
-/
def Stmt.script : Stmt → Script
| .block left body right =>
    .read left.token ::
      (inOwnScope body.script ++ [.read right.token])
| .declaration declarator initializer stop =>
    let formal := declarator.formal
    silent declarator.tokens ++
      .announce
          (.effect
            (.declarationStart formal.isConst formal.ty
              formal.name)) ::
        (initializer.elim [] Initializer.script ++
          [.read stop.token,
            .announce
              (.effect
                (.declaration formal.isConst formal.ty
                  formal.name
                  (initializer.map (·.value.outline))
                  (extent
                    (Stmt.declaration declarator initializer
                      stop).tokens)))])
| .assignment name sign value stop =>
    .read name.token :: .read sign.token ::
      (value.script ++
        [.read stop.token,
          .announce
            (.effect
              (.assignment name.identifier value.outline
                (extent
                  (Stmt.assignment name sign value
                    stop).tokens)))])
| .call parts stop => parts.script ++ [.read stop.token]
| .returnVoid word stop =>
    [.read word.token, .read stop.token,
      .announce
        (.effect
          (.returnVoid
            (extent (Stmt.returnVoid word stop).tokens)))]
| .returnValue word value stop =>
    .read word.token ::
      (value.script ++
        [.announce
            (.effect
              (.returnValue value.outline
                (extent (word.token :: value.tokens)))),
          .read stop.token])
| .ifThen word condition branch =>
    .read word.token ::
      (condition.script ++ inOwnScope branch.script)
| .ifElse word condition branch other otherwise =>
    .read word.token ::
      (condition.script ++
        (inOwnScope branch.script ++
          .read other.token :: inOwnScope otherwise.script))
| .whileLoop word condition body =>
    .read word.token ::
      (condition.script ++
        .announce (.effect .openLoop) ::
          (inOwnScope body.script ++
            [.announce (.effect .closeLoop)]))
| .jump word stop =>
    [.read word.token, .read stop.token,
      .announce
        (.effect
          (word.meaning.event
            (extent (Stmt.jump word stop).tokens)))]

/- The script of statements, one after the other. -/
def Stmts.script : Stmts → Script
| .one statement => statement.script
| .more statement statements =>
    statement.script ++ statements.script

end

theorem Condition.tokens_script
    (condition : Condition) :
    condition.script.tokens = condition.tokens := by
  simp [Condition.script, Condition.tokens,
    Expr.tokens_script]

mutual

/- A script holds the tokens of its statement. -/
theorem Stmt.tokens_script :
    (statement : Stmt) →
      statement.script.tokens = statement.tokens
| .block left body right => by
    simp [Stmt.script, Stmt.tokens, inOwnScope,
      Stmts.tokens_script body]
| .declaration declarator initializer stop => by
    simp [Stmt.script, Stmt.tokens,
      tokens_initializerScript initializer]
| .assignment name sign value stop => by
    simp [Stmt.script, Stmt.tokens, Expr.tokens_script]
| .call parts stop => by
    simp [Stmt.script, Stmt.tokens, Call.tokens_script]
| .returnVoid word stop => by simp [Stmt.script, Stmt.tokens]
| .returnValue word value stop => by
    simp [Stmt.script, Stmt.tokens, Expr.tokens_script]
| .ifThen word condition branch => by
    simp [Stmt.script, Stmt.tokens, inOwnScope,
      Condition.tokens_script, Stmt.tokens_script branch]
| .ifElse word condition branch other otherwise => by
    simp [Stmt.script, Stmt.tokens, inOwnScope,
      Condition.tokens_script, Stmt.tokens_script branch,
      Stmt.tokens_script otherwise]
| .whileLoop word condition body => by
    simp [Stmt.script, Stmt.tokens, inOwnScope,
      Condition.tokens_script, Stmt.tokens_script body]
| .jump word stop => by simp [Stmt.script, Stmt.tokens]

/- A script holds the tokens of its statements. -/
theorem Stmts.tokens_script :
    (statements : Stmts) →
      statements.script.tokens = statements.tokens
| .one statement => by
    rw [Stmts.script, Stmts.tokens,
      Stmt.tokens_script statement]
| .more statement statements => by
    simp [Stmts.script, Stmts.tokens,
      Stmt.tokens_script statement,
      Stmts.tokens_script statements]

end

/- A statement can be added behind the others. -/
theorem Stmts.exists_concat :
    (statements : Stmts) → (last : Stmt) →
      ∃ more : Stmts,
        more.script = statements.script ++ last.script
| .one statement, last =>
    ⟨.more statement (.one last), by simp [Stmts.script]⟩
| .more statement statements, last => by
    rcases Stmts.exists_concat statements last with
      ⟨more, hMore⟩
    exact
      ⟨.more statement more, by simp [Stmts.script, hMore]⟩

namespace Function

/- The script of what stands before the body. -/
def signatureScript (function : Function) : Script :=
  let returns := function.returns.meaning
  let name := function.name.identifier
  .read function.returns.token ::
    .read function.name.token ::
      .announce (.effect (.functionHeader returns name)) ::
        .read function.left.token ::
          (silent
              (function.formals.elim []
                (Separated.tokens Declarator.tokens)) ++
            [.announce
                (.effect
                  (.functionSignature returns name
                    function.formalList)),
              .read function.right.token])

/- The script of the body, with its braces. -/
def bodyScript (function : Function) : Script :=
  .read function.start.token ::
    (function.body.script ++
      [.read function.stop.token,
        .announce
          (.effect
            (.functionEnd (extent [function.stop.token])))])

/- The script of a function. -/
def script (function : Function) : Script :=
  function.signatureScript ++ function.bodyScript

theorem tokens_script
    (function : Function) :
    function.script.tokens = function.tokens := by
  simp [script, signatureScript, bodyScript, tokens,
    Stmts.tokens_script]

end Function

/- The script of a program. -/
def Program.script (program : Program) : Script :=
  program.functions.flatMap Function.script ++
    [.announce (.effect .programEnd)]

/- A script holds the tokens of its program. -/
theorem Program.tokens_script
    (program : Program) :
    program.script.tokens = program.tokens := by
  rcases program with ⟨functions⟩
  unfold Program.script Program.tokens
  induction functions with
  | nil => rfl
  | cons function functions ih =>
      simp only [List.flatMap_cons, List.append_assoc,
        Script.tokens_append, Function.tokens_script] at ih ⊢
      rw [ih]

/- The script of some program starts in this way. -/
def Script.IsOpening (script : Script) : Prop :=
  ∃ program : Program, script <+: program.script

/- An opening stays one when it is cut short. -/
theorem Script.IsOpening.cut
    {part whole : Script}
    (hWhole : whole.IsOpening)
    (hPart : part <+: whole) :
    part.IsOpening := by
  rcases hWhole with ⟨program, hProgram⟩
  exact ⟨program, hPart.trans hProgram⟩

end Grammar

end OnePass
