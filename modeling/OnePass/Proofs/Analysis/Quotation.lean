import OnePass.Proofs.Analysis.Composition
import OnePass.Proofs.Analysis.Refusal
import OnePass.Proofs.Parser.Scripted.Program

/-
  The texts that an analysis quotes.

  A finding quotes at most one text, and that text is in the
  event at which the analysis stops. An event has no text
  but those of tokens that were read before it. So whatever
  is quoted was written in the source, as a name or as a
  number, and so were the names of the functions that an
  analysis returns. It is made of letters and digits only.

  Main declarations:
    * `IsWritten`
    * `Grammar.Script.Quotes`
    * `Grammar.Program.quotes_script`
    * `isWritten_of_finding`
    * `isAlphanum_of_finding`
    * `isNamed_of_analyzeText_ok`
-/

------------------------------------------------------------
-- Written Texts
------------------------------------------------------------

namespace OnePass

/- The texts do not depend on the attributes. -/
theorem Event.texts_erase
    {τ : Type}
    (event : Event τ) :
    event.erase.texts = event.texts := by
  cases event with
  | value event => cases event <;> rfl
  | effect event => cases event <;> rfl

/- A text is that of one of the names and numbers. -/
def IsWritten
    (tokens : List Token)
    (text : String) : Prop :=
  ∃ token ∈ tokens,
    (token.kind = .identifier ∨ token.kind = .number) ∧
      token.text = text

section Written

variable {tokens : List Token}
variable {text : String}

theorem IsWritten.mono
    {more : List Token}
    (hWritten : IsWritten tokens text)
    (hMore : tokens ⊆ more) :
    IsWritten more text := by
  rcases hWritten with ⟨token, hToken, hText⟩
  exact ⟨token, hMore hToken, hText⟩

theorem isWritten_name
    {leaf : Grammar.Leaf .identifier}
    (hLeaf : leaf.token ∈ tokens) :
    IsWritten tokens leaf.text :=
  ⟨leaf.token, hLeaf, .inl rfl, rfl⟩

theorem isWritten_number
    {leaf : Grammar.Leaf .number}
    (hLeaf : leaf.token ∈ tokens) :
    IsWritten tokens leaf.text :=
  ⟨leaf.token, hLeaf, .inr rfl, rfl⟩

end Written

end OnePass

------------------------------------------------------------
-- Texts In Scripts
------------------------------------------------------------

namespace OnePass

namespace Grammar

/-
  Every event has only texts of tokens that are known, or
  were read before it.
-/
def Script.Quotes (known : List Token) : Script → Prop
| [] => True
| .read token :: script => Quotes (known ++ [token]) script
| .announce event :: script =>
    (∀ text ∈ event.texts, IsWritten known text) ∧
      Quotes known script

namespace Script

variable {known : List Token}
variable {script : Script}

@[simp] theorem quotes_nil : Quotes known [] :=
  trivial

@[simp] theorem quotes_read
    {token : Token} :
    Quotes known (.read token :: script) ↔
      Quotes (known ++ [token]) script :=
  Iff.rfl

@[simp] theorem quotes_announce
    {event : Event Unit} :
    Quotes known (.announce event :: script) ↔
      (∀ text ∈ event.texts, IsWritten known text) ∧
        Quotes known script :=
  Iff.rfl

@[simp] theorem quotes_append
    {first second : Script} :
    Quotes known (first ++ second) ↔
      Quotes known first ∧
        Quotes (known ++ first.tokens) second := by
  induction first generalizing known with
  | nil => simp
  | cons mark first ih =>
      cases mark with
      | read token => simp [ih]
      | announce event => simp [ih, and_assoc]

@[simp] theorem quotes_silent
    (tokens : List Token) :
    Quotes known (silent tokens) := by
  induction tokens generalizing known with
  | nil => trivial
  | cons token tokens ih => exact ih

/- In the end every text is that of a token in the script. -/
theorem Quotes.isWritten
    (hQuotes : Quotes known script) :
    ∀ event ∈ script.events, ∀ text ∈ event.texts,
      IsWritten (known ++ script.tokens) text := by
  induction script generalizing known with
  | nil => simp
  | cons mark script ih =>
      cases mark with
      | read token =>
          have hLater := ih hQuotes
          rw [List.append_assoc] at hLater
          exact hLater
      | announce event =>
          rw [events_announce, List.forall_mem_cons]
          constructor
          · intro text hText
            exact
              (hQuotes.1 text hText).mono
                (List.subset_append_left _ _)
          · exact ih hQuotes.2

end Script

mutual

/- The names and numbers of an expression are read first. -/
theorem Expr.quotes_script
    {layer : Nat}
    (known : List Token) :
    (expr : Expr layer) → expr.script.Quotes known
| .negation word operand => by
    simp [Expr.script, Expr.quotes_script _ operand]
| .cast left target right operand => by
    simp [Expr.script, Expr.quotes_script _ operand]
| .paren left inner right => by
    simp [Expr.script, Expr.quotes_script _ inner]
| .call parts => by
    rw [Expr.script]
    exact Call.quotes_script known parts
| .name leaf => by
    simp [Expr.script, Leaf.identifier, isWritten_name]
| .string leaf => by
    simp [Expr.script]
| .number digits => by
    simp [Expr.script, isWritten_number]
| .byte digits suffix => by
    simp [Expr.script, isWritten_number]
| .bool word => by
    simp [Expr.script]
| .lift operand => by
    rw [Expr.script]
    exact Expr.quotes_script known operand
| .binary left operator right => by
    cases hOperator : operator.meaning <;>
      simp [Expr.script, Expr.quotes_script _ left,
        Expr.quotes_script _ right, hOperator,
        BinaryOp.event]

/- The names and numbers of a call are read first. -/
theorem Call.quotes_script
    (known : List Token) :
    (parts : Call) → parts.script.Quotes known
| .bare callee left right => by
    simp [Call.script, Leaf.identifier, isWritten_name]
| .applied callee left arguments right => by
    simp [Call.script, quotes_argumentScript _ arguments,
      Leaf.identifier, isWritten_name]

/- The names and numbers of arguments are read first. -/
theorem quotes_argumentScript
    (known : List Token) :
    (arguments : Separated (Expr topLayer)) →
      (argumentScript arguments).Quotes known
| .one item => by
    rw [argumentScript]
    exact Expr.quotes_script known item
| .more items comma item => by
    simp [argumentScript, quotes_argumentScript _ items,
      Expr.quotes_script _ item]

end

theorem Condition.quotes_script
    (known : List Token)
    (condition : Condition) :
    condition.script.Quotes known := by
  simp [Condition.script, Expr.quotes_script]

theorem quotes_initializerScript
    (known : List Token)
    (initializer : Option Initializer) :
    Script.Quotes known
      (initializer.elim [] Initializer.script) := by
  cases initializer with
  | none => trivial
  | some given => exact given.value.quotes_script _

/- What is around a scope has no text. -/
theorem quotes_inOwnScope
    {known : List Token}
    {inside : Script}
    (hInside : inside.Quotes known) :
    (inOwnScope inside).Quotes known := by
  simp [inOwnScope, hInside]

theorem Declarator.name_mem_tokens
    (declarator : Declarator) :
    declarator.name.token ∈ declarator.tokens := by
  simp [Declarator.tokens]

mutual

/- The names and numbers of a statement are read first. -/
theorem Stmt.quotes_script
    (known : List Token) :
    (statement : Stmt) → statement.script.Quotes known
| .block left body right => by
    simp [Stmt.script,
      quotes_inOwnScope (Stmts.quotes_script _ body)]
| .declaration declarator initializer stop => by
    simp [Stmt.script, quotes_initializerScript,
      Declarator.formal, Leaf.identifier, isWritten_name,
      Declarator.name_mem_tokens]
| .assignment name sign value stop => by
    simp [Stmt.script, Expr.quotes_script, Leaf.identifier,
      isWritten_name]
| .call parts stop => by
    simp [Stmt.script, Call.quotes_script]
| .returnVoid word stop => by
    simp [Stmt.script]
| .returnValue word value stop => by
    simp [Stmt.script, Expr.quotes_script]
| .ifThen word condition branch => by
    simp [Stmt.script, Condition.quotes_script,
      quotes_inOwnScope (Stmt.quotes_script _ branch)]
| .ifElse word condition branch other otherwise => by
    simp [Stmt.script, Condition.quotes_script,
      quotes_inOwnScope (Stmt.quotes_script _ branch),
      quotes_inOwnScope (Stmt.quotes_script _ otherwise)]
| .whileLoop word condition body => by
    simp [Stmt.script, Condition.quotes_script,
      quotes_inOwnScope (Stmt.quotes_script _ body)]
| .jump word stop => by
    cases hMeaning : word.meaning <;>
      simp [Stmt.script, hMeaning, Jump.event]

/- The names and numbers of statements are read first. -/
theorem Stmts.quotes_script
    (known : List Token) :
    (statements : Stmts) → statements.script.Quotes known
| .one statement => by
    rw [Stmts.script]
    exact Stmt.quotes_script known statement
| .more statement statements => by
    simp [Stmts.script, Stmt.quotes_script _ statement,
      Stmts.quotes_script _ statements]

end

theorem Separated.mem_tokens
    {χ : Type}
    {itemTokens : χ → List Token}
    {token : Token}
    (items : Separated χ)
    {item : χ}
    (hItem : item ∈ items.toList)
    (hToken : token ∈ itemTokens item) :
    token ∈ items.tokens itemTokens := by
  induction items with
  | one only =>
      rw [List.mem_singleton.mp hItem] at hToken
      exact hToken
  | more items comma last ih =>
      rcases List.mem_append.mp hItem with hEarlier | hLast
      · exact List.mem_append_left _ (ih hEarlier)
      · rw [List.mem_singleton.mp hLast] at hToken
        exact
          List.mem_append_right _
            (List.mem_cons_of_mem _ hToken)

namespace Function

/- The formal parameters have names that are written. -/
theorem isWritten_formalList
    (function : Function) :
    ∀ formal ∈ function.formalList,
      IsWritten
        (function.formals.elim []
          (Separated.tokens Declarator.tokens))
        formal.name.name := by
  unfold formalList
  rw [List.forall_mem_map]
  intro declarator hDeclarator
  cases hFormals : function.formals with
  | none =>
      rw [hFormals] at hDeclarator
      cases hDeclarator
  | some formals =>
      rw [hFormals] at hDeclarator
      apply isWritten_name
      exact
        formals.mem_tokens hDeclarator
          declarator.name_mem_tokens

theorem quotes_signatureScript
    (known : List Token)
    (function : Function) :
    function.signatureScript.Quotes known := by
  have hFormals :
      ∀ formal ∈ function.formalList,
        IsWritten
          (known ++
            function.returns.token :: function.name.token ::
              function.left.token ::
                function.formals.elim []
                  (Separated.tokens Declarator.tokens))
          formal.name.name := by
    intro formal hFormal
    apply (function.isWritten_formalList formal hFormal).mono
    intro token hToken
    simp [hToken]
  simpa [signatureScript,
    Leaf.identifier, isWritten_name] using hFormals

/- The names and numbers of a function are read first. -/
theorem quotes_script
    (known : List Token)
    (function : Function) :
    function.script.Quotes known := by
  simp [script, bodyScript, quotes_signatureScript,
    Stmts.quotes_script]

end Function

/- The names and numbers of a program are read first. -/
theorem Program.quotes_script
    (program : Program) :
    program.script.Quotes [] := by
  have hFunctions :
      ∀ (known : List Token) (functions : List Function),
        Script.Quotes known
          (functions.flatMap Function.script) := by
    intro known functions
    induction functions generalizing known with
    | nil => trivial
    | cons function functions ih =>
        rw [List.flatMap_cons, Script.quotes_append]
        exact ⟨function.quotes_script known, ih _⟩
  simp [Program.script, hFunctions]

end Grammar

end OnePass

------------------------------------------------------------
-- Texts Of A Source
------------------------------------------------------------

namespace OnePass

open Grammar (Ordered Program Script)

variable {source : String}
variable {tokens : List Token}

/- The events of a run have only texts that are written. -/
theorem isWritten_of_transcript
    {σ τ ε : Type}
    (hOrdered : Ordered tokens)
    (receiver : Receiver σ τ ε)
    (start : σ) :
    let run := receiver.transcript tokens start
    ∀ sighting ∈ run.sightings,
      ∀ text ∈ sighting.event.texts,
        IsWritten tokens text := by
  intro run sighting hSighting text hText
  rcases
      transcript_follows_script hOrdered receiver start with
    ⟨program, done, later, rest, hScript, hTokens, hEvents,
      -⟩
  -- What was not read yet may be any text, so that only the
  -- tokens in front of an event tell what is in it.
  have hQuotes : done.Quotes [] := by
    have hProgram := program.quotes_script
    rw [hScript, Script.quotes_append] at hProgram
    exact hProgram.1
  have hEvent : sighting.event.erase ∈ done.events := by
    rw [← hEvents]
    exact List.mem_map_of_mem hSighting
  rw [← Event.texts_erase] at hText
  rw [hTokens]
  exact
    (hQuotes.isWritten _ hEvent text hText).mono
      (List.subset_append_left _ _)

/- What is quoted to refuse an event is in the event. -/
theorem Analysis.Refusal.mem_texts
    {event : Event Ty}
    {diagnostic : Diagnostic}
    {text : String}
    (hRefusal :
      Analysis.Refusal event (.finding diagnostic))
    (hText : text ∈ diagnostic.quoted?) :
    text ∈ event.texts := by
  cases hRefusal with
  | pointAt hQuoted => exact hQuoted text hText
  | assignment hEvent hCause =>
      subst hEvent
      rcases hCause with rfl | rfl
      · cases hText
        exact List.mem_singleton_self _
      · cases hText
        exact List.mem_singleton_self _
  | missingMain => cases hText

/- What a finding quotes is written among the tokens. -/
theorem isWritten_of_finding
    (hOrdered : Ordered tokens)
    {diagnostic : Diagnostic}
    {text : String}
    (hFinding :
      analyze tokens = .error (.finding diagnostic))
    (hText : text ∈ diagnostic.quoted?) :
    IsWritten tokens text := by
  rcases analyze_eq_error_iff.mp hFinding with
    ⟨failure, final, hRun, hFailure⟩
  cases failure with
  | misfit misfit =>
      cases hFailure
      cases hText
  | refused stop =>
      rcases
          Analysis.exists_refusal_of_refused
            (congrArg Prod.fst hRun) with
        ⟨sighting, hLast, hRefusal⟩
      change stop = _ at hFailure
      rw [hFailure] at hRefusal
      exact
        isWritten_of_transcript hOrdered Analysis.receiver
          .initial sighting (List.mem_of_getLast? hLast) text
          (hRefusal.mem_texts hText)

theorem Pattern.isAlphanum_of_mem_word
    {text : List Char}
    (hText : text ∈ Pattern.word) :
    ∀ char ∈ text, char.isAlphanum = true := by
  rcases hText with
    ⟨_, ⟨first, hFirst, rfl⟩, rest, hRest, rfl⟩
  intro char hChar
  rcases List.mem_cons.mp hChar with rfl | hRun
  · simp [Char.isAlphanum, hFirst]
  · exact Pattern.mem_run_iff.mp hRest char hRun

theorem Pattern.isAlphanum_of_mem_number
    {text : List Char}
    (hText : text ∈ Pattern.number) :
    ∀ char ∈ text, char.isAlphanum = true := by
  intro char hChar
  have hDigit : char.isDigit = true := by
    rcases hText with
      rfl | ⟨_, ⟨first, hFirst, rfl⟩, rest, hRest, rfl⟩
    · rw [List.mem_singleton.mp hChar]
      rfl
    · rcases List.mem_cons.mp hChar with rfl | hRun
      · exact (Bool.and_eq_true_iff.mp hFirst).1
      · exact Pattern.mem_run_iff.mp hRest char hRun
  simp [Char.isAlphanum, hDigit]

/- Names and numbers have no other characters. -/
theorem Tiling.isAlphanum_of_isWritten
    (hTiling : Tiling source.toList tokens)
    {text : String}
    (hWritten : IsWritten tokens text) :
    ∀ char ∈ text.toList, char.isAlphanum = true := by
  rcases hWritten with ⟨token, hToken, hKind, rfl⟩
  rcases hTiling.placed token hToken with
    ⟨before, after, -, hStands⟩
  have hText := hStands.wins.1
  rcases hKind with hKind | hKind
  · rw [hKind] at hText
    exact Pattern.isAlphanum_of_mem_word hText
  · rw [hKind] at hText
    exact Pattern.isAlphanum_of_mem_number hText

/- What a finding quotes has only letters and digits. -/
theorem isAlphanum_of_finding
    {diagnostic : Diagnostic}
    {text : String}
    (hFinding :
      analyzeText source = .error (.finding diagnostic))
    (hText : text ∈ diagnostic.quoted?) :
    ∀ char ∈ text.toList, char.isAlphanum = true := by
  unfold analyzeText at hFinding
  cases hTokens : tokenize source with
  | ok tokens =>
      rw [hTokens] at hFinding
      apply
        (tiling_of_tokenize hTokens).isAlphanum_of_isWritten
      exact
        isWritten_of_finding (ordered_of_tokenize hTokens)
          hFinding hText
  | error lexical =>
      rw [hTokens] at hFinding
      cases hFinding
      rcases unreadable_of_tokenize hTokens with
        ⟨span, -, -, -, rfl, -⟩
      cases hText

/- An accepted source has a tree that keeps the rules. -/
theorem exists_valid_of_analyzeText_ok
    {signatures : List Signature}
    (hOk : analyzeText source = .ok signatures) :
    ∃ tokens, ∃ program : Program,
      tokenize source = .ok tokens ∧
        program.IsTreeOf tokens ∧ program.Valid ∧
          program.signatures = signatures := by
  unfold analyzeText at hOk
  cases hTokens : tokenize source with
  | ok tokens =>
      rw [hTokens] at hOk
      rcases exists_valid_of_analyze_ok hOk with
        ⟨program, hProgram⟩
      exact ⟨tokens, program, rfl, hProgram⟩
  | error lexical =>
      rw [hTokens] at hOk
      cases hOk

/- The name is a letter, then letters and digits. -/
def Signature.IsNamed (signature : Signature) : Prop :=
  signature.name.toList ∈ Pattern.word

/- The functions of an accepted source have such names. -/
theorem isNamed_of_analyzeText_ok
    {signatures : List Signature}
    (hOk : analyzeText source = .ok signatures) :
    ∀ signature ∈ signatures, signature.IsNamed := by
  rcases exists_valid_of_analyzeText_ok hOk with
    ⟨tokens, program, hTokens, hTree, -, rfl⟩
  unfold Program.signatures
  rw [List.forall_mem_map]
  intro function hFunction
  have hName : function.name.token ∈ tokens := by
    rw [← hTree.tokens_eq]
    apply List.mem_flatMap_of_mem hFunction
    simp [Grammar.Function.tokens]
  rcases (tiling_of_tokenize hTokens).placed _ hName with
    ⟨before, after, -, hStands⟩
  exact hStands.wins.1

end OnePass
