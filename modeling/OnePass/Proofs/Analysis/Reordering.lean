import OnePass.Proofs.Analysis.Composition
import OnePass.Proofs.Grammar.Partition

/-
  The order of two functions that do not depend on each
  other does not matter.

  What a function may call is all that the functions before
  it do to it. So a function keeps the rules if some of the
  others are taken away or added, as long as those that it
  calls are still there and its own name is still new. In an
  accepted program no function calls one that comes after
  it, and two neighbours may be exchanged if the second does
  not call the first.

  Main declarations:
    * `calls`
    * `Grammar.Provides`
    * `Grammar.Stmts.Valid.provided`
    * `Grammar.Function.Valid.provided`
    * `Grammar.Program.Valid.swap`
    * `analyze_swap_functions`
-/

------------------------------------------------------------
-- Calls
------------------------------------------------------------

namespace OnePass

/- The name is written somewhere in front of a parenthesis. -/
def calls (name : String) : List Token → Bool
| callee :: left :: rest =>
    (callee.kind = .identifier && callee.text = name &&
        left.kind = .leftParen) ||
      calls name (left :: rest)
| _ => false

section Calls

variable {name : String} {tokens : List Token}

theorem calls_cons
    (token : Token)
    (hCalls : calls name tokens = true) :
    calls name (token :: tokens) = true := by
  cases tokens with
  | nil => cases hCalls
  | cons left rest => simp [calls, hCalls]

theorem calls_append_left
    (rest : List Token)
    (hCalls : calls name tokens = true) :
    calls name (tokens ++ rest) = true := by
  fun_induction calls name tokens with
  | case1 callee left more ih =>
      rw [Bool.or_eq_true] at hCalls
      rcases hCalls with hHere | hLater
      · simp [calls, hHere]
      · exact calls_cons callee (ih hLater)
  | case2 => cases hCalls

theorem calls_append_right
    (before : List Token)
    (hCalls : calls name tokens = true) :
    calls name (before ++ tokens) = true := by
  induction before with
  | nil => exact hCalls
  | cons token before ih => exact calls_cons token ih

end Calls

end OnePass

------------------------------------------------------------
-- What May Be Called
------------------------------------------------------------

namespace OnePass

namespace Grammar

/- The others have all that is called in the text. -/
def Provides
    (tokens : List Token)
    (functions others : List Signature) : Prop :=
  ∀ signature ∈ functions,
    calls signature.name tokens = true → signature ∈ others

section Provides

variable {functions others : List Signature}
variable {scope : List Binding}

namespace Provides

variable {tokens first second : List Token}

theorem tail
    {token : Token}
    (hProvides : Provides (token :: tokens) functions others) :
    Provides tokens functions others := by
  intro signature hKnown hCalls
  exact hProvides signature hKnown (calls_cons token hCalls)

theorem left
    (hProvides : Provides (first ++ second) functions others) :
    Provides first functions others := by
  intro signature hKnown hCalls
  exact
    hProvides signature hKnown
      (calls_append_left second hCalls)

theorem right
    (hProvides : Provides (first ++ second) functions others) :
    Provides second functions others := by
  intro signature hKnown hCalls
  exact
    hProvides signature hKnown
      (calls_append_right first hCalls)

/- The function that is called is among the others. -/
theorem mem_of_callee
    {callee : Leaf .identifier}
    {left : Leaf .leftParen}
    (hProvides :
      Provides (callee.token :: left.token :: tokens) functions
        others)
    {signature : Signature}
    (hKnown : signature ∈ functions)
    (hName : signature.name = callee.text) :
    signature ∈ others := by
  apply hProvides signature hKnown
  simp [calls, Leaf.token, hName]

end Provides

mutual

/- An expression depends only on what it calls. -/
theorem Expr.HasType.provided
    {layer : Nat} :
    {expr : Expr layer} →
      {ty : Ty} →
        expr.HasType functions scope ty →
          Provides expr.tokens functions others →
            expr.HasType others scope ty
| .negation _ _, _, .negation hOperand hCast, hProvides =>
    .negation (hOperand.provided hProvides.tail) hCast
| .cast _ _ _ _, _, .cast hOperand hCast, hProvides =>
    .cast (hOperand.provided hProvides.tail.tail.tail) hCast
| .paren _ _ _, _, .paren hInner, hProvides =>
    .paren (hInner.provided hProvides.tail.left)
| .call _, _, .call hParts, hProvides =>
    .call (hParts.provided hProvides)
| .name _, _, .name hVisible hName, _ =>
    .name hVisible hName
| .string _, _, .string, _ => .string
| .number _, _, .number, _ => .number
| .byte _ _, _, .byte hRange, _ => .byte hRange
| .bool _, _, .bool, _ => .bool
| .lift _, _, .lift hOperand, hProvides =>
    .lift (hOperand.provided hProvides)
| .binary _ _ _, _, .binary hLeft hRight hYields, hProvides =>
    .binary (hLeft.provided hProvides.left)
      (hRight.provided hProvides.right.tail) hYields

/- So does a call. -/
theorem Call.HasType.provided :
    {parts : Call} →
      {ty : Ty} →
        parts.HasType functions scope ty →
          Provides parts.tokens functions others →
            parts.HasType others scope ty
| .bare _ _ _, _, .bare hKnown hName hParameters,
    hProvides =>
    .bare (hProvides.mem_of_callee hKnown hName) hName
      hParameters
| .applied _ _ _ _, _,
    .applied hKnown hName hArguments hParameters,
    hProvides =>
    .applied (hProvides.mem_of_callee hKnown hName) hName
      (hArguments.provided hProvides.tail.tail.left)
      hParameters

theorem HaveTypes.provided :
    {arguments : Separated (Expr topLayer)} →
      {types : List Ty} →
        HaveTypes functions scope arguments types →
          Provides (argumentTokens arguments) functions
              others →
            HaveTypes others scope arguments types
| .one _, _, .one hItem, hProvides =>
    .one (hItem.provided hProvides)
| .more _ _ _, _, .more hItems hItem, hProvides =>
    .more (hItems.provided hProvides.left)
      (hItem.provided hProvides.right.tail)

end

theorem Expr.Fits.provided
    {layer : Nat}
    {expr : Expr layer}
    {target : Ty}
    (hFits : expr.Fits functions scope target)
    (hProvides : Provides expr.tokens functions others) :
    expr.Fits others scope target := by
  rcases hFits with ⟨ty, hType, hCast⟩
  exact ⟨ty, hType.provided hProvides, hCast⟩

end Provides

/- The same place, where other functions may be called. -/
def Setting.calling
    (setting : Setting)
    (others : List Signature) : Setting :=
  { setting with functions := others }

section Statements

variable {others : List Signature}

mutual

/- A statement depends only on what it calls. -/
theorem Stmt.Valid.provided
    {setting : Setting}
    {scope : List Binding} :
    {statement : Stmt} →
      statement.Valid setting scope →
        Provides statement.tokens setting.functions others →
          statement.Valid (setting.calling others) scope
| .block _ _ _, .block hBody, hProvides =>
    .block (hBody.provided hProvides.tail.left)
| .declaration _ none _,
    .declaration hNew hConst hInitializer, _ =>
    .declaration hNew hConst (fun _ hNone => nomatch hNone)
| .declaration _ (some _) _,
    .declaration hNew hConst hInitializer, hProvides =>
    .declaration hNew hConst fun present hPresent => by
      cases hPresent
      exact
        (hInitializer _ rfl).provided
          hProvides.right.left.tail
| .assignment _ _ _ _,
    .assignment hVisible hName hConst hValue, hProvides =>
    .assignment hVisible hName hConst
      (hValue.provided hProvides.tail.tail.left)
| .call _ _, .call hParts, hProvides =>
    .call (hParts.provided hProvides.left)
| .returnVoid _ _, .returnVoid hReturns, _ =>
    .returnVoid hReturns
| .returnValue _ _ _, .returnValue hReturns hValue,
    hProvides =>
    .returnValue hReturns
      (hValue.provided hProvides.tail.left)
| .ifThen _ _ _, .ifThen hCondition hBranch, hProvides =>
    .ifThen
      (hCondition.provided hProvides.tail.left.tail.left)
      (hBranch.provided hProvides.tail.right)
| .ifElse _ _ _ _ _,
    .ifElse hCondition hBranch hOtherwise, hProvides =>
    .ifElse
      (hCondition.provided hProvides.tail.left.tail.left)
      (hBranch.provided hProvides.tail.right.left)
      (hOtherwise.provided hProvides.tail.right.right.tail)
| .whileLoop _ _ _, .whileLoop hCondition hBody, hProvides =>
    .whileLoop
      (hCondition.provided hProvides.tail.left.tail.left)
      (hBody.provided hProvides.tail.right)
| .jump _ _, .jump hLoop, _ => .jump hLoop

theorem Stmts.Valid.provided
    {setting : Setting}
    {scope : List Binding} :
    {statements : Stmts} →
      statements.Valid setting scope →
        Provides statements.tokens setting.functions others →
          statements.Valid (setting.calling others) scope
| .one _, .one hStatement, hProvides =>
    .one (hStatement.provided hProvides)
| .more _ _, .more hStatement hStatements, hProvides =>
    .more (hStatement.provided hProvides.left)
      (hStatements.provided hProvides.right)

end

end Statements

end Grammar

end OnePass

------------------------------------------------------------
-- Functions That Change Places
------------------------------------------------------------

namespace OnePass

namespace Grammar

/-
  A function keeps the rules after any functions that
  provide what it calls and leave its name new.
-/
theorem Function.Valid.provided
    {earlier others : List Signature}
    {function : Function}
    (hValid : function.Valid earlier)
    (hNew : ∀ known ∈ others, known.name ≠ function.name.text)
    (hProvides : Provides function.tokens earlier others) :
    function.Valid others where
  newName known hKnown := by
    rcases List.mem_append.mp hKnown with hLibrary | hOther
    · exact
        hValid.newName known (List.mem_append_left _ hLibrary)
    · exact hNew known hOther
  distinctFormals := hValid.distinctFormals
  formalNames := hValid.formalNames
  body := by
    have hBody :
        Provides function.body.tokens
          (Functions.library ++ earlier ++
            [function.signature])
          (Functions.library ++ others ++
            [function.signature]) := by
      intro signature hKnown hCalls
      have hInside :=
        hProvides.tail.tail.tail.right.tail.tail.left
          signature
      simp only [List.mem_append] at hKnown ⊢
      rcases hKnown with (hLibrary | hEarlier) | hItself
      · exact .inl (.inl hLibrary)
      · exact .inl (.inr (hInside hEarlier hCalls))
      · exact .inr hItself
    exact hValid.body.provided hBody

section Order

variable {earlier functions : List Function}

theorem validAfter_append_iff
    {others : List Function} :
    ValidAfter earlier (functions ++ others) ↔
      ValidAfter earlier functions ∧
        ValidAfter (earlier ++ functions) others := by
  induction functions generalizing earlier with
  | nil =>
      rw [List.nil_append, List.append_nil]
      constructor
      · intro hOthers
        refine ⟨?_, hOthers⟩
        intro before function later hSplit
        simp at hSplit
      · exact And.right
  | cons function functions ih =>
      rw [List.cons_append, validAfter_cons_iff,
        validAfter_cons_iff, ih, and_assoc,
        List.append_assoc, List.singleton_append]

/- In which order they come before does not matter. -/
theorem ValidAfter.perm
    {others : List Function}
    (hValid : ValidAfter earlier functions)
    (hPerm : earlier.Perm others) :
    ValidAfter others functions := by
  intro before function later hSplit
  have hFunction := hValid before function later hSplit
  have hSame :
      ((earlier ++ before).map Function.signature).Perm
        ((others ++ before).map Function.signature) :=
    (hPerm.append_right before).map _
  apply hFunction.provided
  · intro known hKnown
    exact
      hFunction.newName known
        (List.mem_append_right _ (hSame.mem_iff.mpr hKnown))
  · intro signature hKnown _
    exact hSame.mem_iff.mp hKnown

/- A function may be moved over one that it does not call. -/
theorem ValidAfter.swap
    {first second : Function}
    (hValid : ValidAfter earlier (first :: second :: functions))
    (hCalls : calls first.name.text second.tokens = false) :
    ValidAfter earlier (second :: first :: functions) := by
  simp only [validAfter_cons_iff] at hValid ⊢
  rcases hValid with ⟨hFirst, hSecond, hLater⟩
  rw [List.map_append] at hSecond
  have hNames : first.name.text ≠ second.name.text := by
    apply hSecond.newName first.signature
    simp
  refine ⟨hSecond.provided ?_ ?_, hFirst.provided ?_ ?_, ?_⟩
  · intro known hKnown
    apply hSecond.newName
    simp only [List.mem_append]
    exact .inr (.inl hKnown)
  · intro signature hKnown hCalled
    rcases List.mem_append.mp hKnown with hEarlier | hOther
    · exact hEarlier
    · rw [List.mem_singleton.mp hOther] at hCalled
      change calls first.name.text second.tokens = true
        at hCalled
      rw [hCalls] at hCalled
      cases hCalled
  · intro known hKnown
    rw [List.map_append] at hKnown
    rcases List.mem_append.mp hKnown with hEarlier | hOther
    · exact
        hFirst.newName known (List.mem_append_right _ hEarlier)
    · rw [List.mem_singleton.mp hOther]
      exact hNames.symm
  · intro signature hKnown _
    rw [List.map_append]
    exact List.mem_append_left _ hKnown
  · apply hLater.perm
    simp only [List.append_assoc]
    exact (List.Perm.swap second first []).append_left earlier

end Order

/- A valid program stays valid with two functions swapped. -/
theorem Program.Valid.swap
    {earlier later : List Function}
    {first second : Function}
    (hValid :
      Program.Valid ⟨earlier ++ first :: second :: later⟩)
    (hCalls : calls first.name.text second.tokens = false) :
    Program.Valid ⟨earlier ++ second :: first :: later⟩ where
  functions := by
    have hFunctions :
        ValidAfter [] (earlier ++ first :: second :: later) :=
      hValid.functions
    rw [validAfter_append_iff] at hFunctions
    exact
      validAfter_append_iff.mpr
        ⟨hFunctions.1, hFunctions.2.swap hCalls⟩
  entryPoint := by
    have hPerm :=
      (List.Perm.swap first second later).append_left earlier
    exact
      (hPerm.map Function.signature).mem_iff.mpr
        hValid.entryPoint

/- The signature of a function is read off its tokens. -/
theorem Function.signature_eq_of_tokens_eq
    {first second : Function}
    (hSame : first.tokens = second.tokens) :
    first.signature = second.signature := by
  have hHeader :=
    (Function.header_eq_of_tokens_eq
      (congrArg (· ++ []) hSame)).1
  rw [hHeader]
  rfl

end Grammar

/-
  Two neighbouring functions of an accepted program may be
  exchanged if the second does not call the first. Their
  signatures are exchanged with them, and nothing else is.
-/
theorem analyze_swap_functions
    (before after : List Token)
    (first second : Grammar.Function)
    {signatures : List Signature}
    (hCalls : calls first.name.text second.tokens = false)
    (hOk :
      analyze
          (before ++ first.tokens ++ second.tokens ++ after) =
        .ok signatures) :
    ∃ earlier later,
      signatures =
          earlier ++
            first.signature :: second.signature :: later ∧
        analyze
            (before ++ second.tokens ++ first.tokens ++
              after) =
          .ok
            (earlier ++
              second.signature :: first.signature ::
                later) := by
  rcases exists_valid_of_analyze_ok hOk with
    ⟨⟨functions⟩, hTree, hValid, hSignatures⟩
  -- The tree has functions of its own for these tokens.
  rcases
      Grammar.exists_neighbours_of_tokens hTree.tokens_eq with
    ⟨earlier, f, g, later, hFunctions, hBefore, hFirst,
      hSecond, hAfter⟩
  subst hFunctions
  have hF := Grammar.Function.signature_eq_of_tokens_eq hFirst
  have hG := Grammar.Function.signature_eq_of_tokens_eq hSecond
  have hName : f.name.text = first.name.text :=
    congrArg Signature.name hF
  rw [← hName, ← hSecond] at hCalls
  have hPerm :
      (earlier ++ g :: f :: later).Perm
        (earlier ++ f :: g :: later) :=
    (List.Perm.swap f g later).append_left earlier
  have hSwapped :
      Grammar.Program.IsTreeOf ⟨earlier ++ g :: f :: later⟩
        (before ++ second.tokens ++ first.tokens ++ after) := by
    constructor
    · simp [Grammar.Program.tokens, hBefore, hFirst, hSecond,
        hAfter]
    · intro function hFunction
      exact hTree.nesting function (hPerm.mem_iff.mp hFunction)
    · intro function hFunction
      exact
        hTree.elseNearest function (hPerm.mem_iff.mp hFunction)
  have hAnalyzed := (hValid.swap hCalls).analyze_eq_ok hSwapped
  refine
    ⟨earlier.map Grammar.Function.signature,
      later.map Grammar.Function.signature, ?_, ?_⟩
  · rw [← hSignatures]
    simp [Grammar.Program.signatures, hF, hG]
  · rw [hAnalyzed]
    simp [Grammar.Program.signatures, hF, hG]

/- The function `void name() { return; }`. -/
def emptyFunction (name : String) : Grammar.Function where
  returns := ⟨⟨.kwVoid, "void", ⟨0, 4, 1⟩⟩, .void, rfl⟩
  name := ⟨name, ⟨5, 6, 1⟩⟩
  left := ⟨"(", ⟨6, 7, 1⟩⟩
  formals := none
  right := ⟨")", ⟨7, 8, 1⟩⟩
  start := ⟨"\x7b", ⟨9, 10, 1⟩⟩
  body :=
    .one
      (.returnVoid ⟨"return", ⟨11, 17, 1⟩⟩
        ⟨";", ⟨17, 18, 1⟩⟩)
  stop := ⟨"\x7d", ⟨19, 20, 1⟩⟩

/- The entry point may come before or after another one. -/
theorem analyze_swap_emptyFunctions :
    ∃ earlier later,
      [⟨"f", .void, []⟩, Signature.entryPoint] =
          earlier ++
            (emptyFunction "f").signature ::
              (emptyFunction "main").signature :: later ∧
        analyze
            ([] ++ (emptyFunction "main").tokens ++
                (emptyFunction "f").tokens ++
              []) =
          .ok
            (earlier ++
              (emptyFunction "main").signature ::
                (emptyFunction "f").signature ::
                  later) := by
  have hCalls :
      calls "f" (emptyFunction "main").tokens = false := by
    decide
  have hOk :
      analyze
          ([] ++ (emptyFunction "f").tokens ++
              (emptyFunction "main").tokens ++
            []) =
        .ok [⟨"f", .void, []⟩, Signature.entryPoint] := by
    rfl
  exact
    analyze_swap_functions [] [] (emptyFunction "f")
      (emptyFunction "main") hCalls hOk

end OnePass
