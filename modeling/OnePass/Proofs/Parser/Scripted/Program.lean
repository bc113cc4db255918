import OnePass.Analysis.Run
import OnePass.Proofs.Parser.Reading.Program
import OnePass.Proofs.Parser.Scripted.Statement
import OnePass.Proofs.Token.Tiling

/-
  Programs follow their scripts.

  Whatever a receiver answers, and wherever a run ends, the
  events of the run are those in a part of the script of a
  program, from its start on, and the tokens in that part
  are the first tokens of the source. So every event has the
  extents that the script gives it.

  Main declarations:
    * `Parser.performs_function`
    * `Parser.enacts_program`
    * `transcript_follows_script`
    * `events_follow_script`
-/

------------------------------------------------------------
-- Functions
------------------------------------------------------------

namespace OnePass

namespace Grammar

/- Nothing is announced among items that are silent. -/
theorem Separated.script_silent
    {χ : Type}
    (itemTokens : χ → List Token)
    (items : Separated χ) :
    items.script (fun item => silent (itemTokens item)) =
      silent (items.tokens itemTokens) := by
  induction items with
  | one item => rfl
  | more items comma item ih =>
      rw [Separated.script, Separated.tokens, ih]
      simp [silent]

@[simp] theorem listedScript_silent
    (formals : Option (Separated Declarator)) :
    formals.elim []
        (Separated.script fun declarator =>
          silent declarator.tokens) =
      silent
        (formals.elim []
          (Separated.tokens Declarator.tokens)) := by
  cases formals with
  | none => rfl
  | some items =>
      exact Separated.script_silent Declarator.tokens items

end Grammar

namespace Parser

open Grammar

variable {σ τ ε : Type}

theorem eq_map_of_forall₂
    {declarators : List Declarator}
    {formals : List Formal}
    (hFormals :
      List.Forall₂
        (fun declarator formal =>
          formal = Declarator.formal declarator)
        declarators formals) :
    formals = declarators.map Declarator.formal := by
  induction hFormals with
  | nil => rfl
  | cons hFormal _ ih => rw [hFormal, ih, List.map_cons]

instance : Nonempty Function :=
  ⟨⟨Classical.arbitrary _, Classical.arbitrary _,
    Classical.arbitrary _, none, Classical.arbitrary _,
    Classical.arbitrary _, Classical.arbitrary _,
    Classical.arbitrary _⟩⟩

/-
  The parts of a function are read one by one. What has not
  been read yet is filled in with that of any function.
-/
theorem performs_signature
    (receiver : Receiver σ τ ε) :
    Performs Function.signatureScript
      (signature receiver.recorded) := by
  intro done hOpening
  let any := Classical.arbitrary Function
  apply plays_returnType.bind
  · intro returns
    apply (hOpening { any with returns }).cut
    simp [Function.signatureScript]
  rintro returns _ rfl
  apply plays_identifier.bind
  · intro name
    apply (hOpening { any with returns, name }).cut
    simp [Function.signatureScript]
  rintro name _ rfl
  apply enacts_effect_bind
  · apply (hOpening { any with returns, name }).cut
    simp [Function.signatureScript]
  apply (plays_expect .leftParen).bind
  · intro left
    apply (hOpening { any with returns, name, left }).cut
    simp [Function.signatureScript]
  rintro left _ -
  apply (plays_commaList plays_declarator).bind
  · intro formals
    apply
      (hOpening { any with returns, name, left, formals }).cut
    simp [Function.signatureScript]
  intro formals answers hAnswers
  rw [eq_map_of_forall₂ hAnswers]
  apply enacts_effect_bind
  · apply
      (hOpening { any with returns, name, left, formals }).cut
    simp [Function.signatureScript, Function.formalList]
  apply (plays_expect .rightParen).bind
  · intro right
    apply
      (hOpening
        { any with returns, name, left, formals, right }).cut
    simp [Function.signatureScript, Function.formalList]
  rintro right _ -
  refine
    enacts_pure
      ⟨{ any with returns, name, left, formals, right }, ?_,
        trivial⟩
  simp [Function.signatureScript, Function.formalList]

theorem performs_functionBody
    (receiver : Receiver σ τ ε)
    (limit : Nat) :
    Performs Function.bodyScript
      (functionBody receiver.recorded limit) := by
  intro done hOpening
  let any := Classical.arbitrary Function
  apply (plays_expect .leftBrace).bind
  · intro start
    apply (hOpening { any with start }).cut
    simp [Function.bodyScript]
  rintro start _ -
  apply
    (performs_statementList
      (performs_statement receiver limit)).bind
  · intro body
    apply (hOpening { any with start, body }).cut
    simp [Function.bodyScript]
  rintro body _ -
  apply (plays_expect .rightBrace).bind
  · intro stop
    apply (hOpening { any with start, body, stop }).cut
    simp [Function.bodyScript]
  rintro stop _ rfl
  apply
    enacts_effect_last hOpening
      { any with start, body, stop }
  simp [Function.bodyScript, Leaf.token]

/- The function has the signature of one, the body of one. -/
theorem performs_function
    (receiver : Receiver σ τ ε)
    (limit : Nat) :
    Performs Function.script
      (function receiver.recorded limit) := by
  intro done hOpening
  have hScript :
      ∀ front back : Function,
        done ++ front.signatureScript ++ back.bodyScript =
          done ++
            Function.script
              { front with
                start := back.start
                body := back.body
                stop := back.stop } := by
    intro front back
    exact List.append_assoc _ _ _
  apply (performs_signature receiver).bind
  · intro front
    apply (hOpening front).cut
    rw [← hScript front front]
    exact List.prefix_append _ _
  intro front _ _
  apply (performs_functionBody receiver limit).last
  · intro back
    rw [hScript front back]
    exact hOpening _
  · intro back _ _
    exact ⟨_, hScript front back, trivial⟩

/- The functions of a program, up to where it ends. -/
theorem enacts_program
    (receiver : Receiver σ τ ε)
    (limit : Nat) :
    Enacts [] (program receiver.recorded limit)
      fun _ after =>
        ∃ program : Program, after = program.script := by
  have hOpening :
      ∀ functions : List Function,
        Script.IsOpening
          (functions.flatMap Function.script) := by
    intro functions
    exact ⟨⟨functions⟩, List.prefix_append _ _⟩
  have hFunctions :
      Enacts []
        (iterate (functionStep receiver.recorded limit) ())
        fun _ after =>
          ∃ functions : List Function,
            after = functions.flatMap Function.script := by
    apply enacts_iterate
    · rintro _ _ ⟨functions, rfl⟩
      have hConcat :
          ∀ last : Function,
            functions.flatMap Function.script ++
                last.script =
              (functions ++ [last]).flatMap
                Function.script := by
        intro last
        simp
      unfold functionStep
      apply enacts_peek
      intro next
      split
      · exact enacts_pure ⟨functions, rfl⟩
      · apply (performs_function receiver limit).bind
        · intro last
          rw [hConcat last]
          exact hOpening _
        · intro last _ _
          exact enacts_pure ⟨_, hConcat last⟩
    · exact ⟨[], rfl⟩
  apply hFunctions.bind
  rintro _ _ ⟨functions, rfl⟩
  apply enacts_effect
  · exact ⟨⟨functions⟩, rfl⟩
  · exact ⟨⟨functions⟩, List.prefix_rfl⟩

end Parser

end OnePass

------------------------------------------------------------
-- Runs
------------------------------------------------------------

namespace OnePass

open OnePass.Grammar
open OnePass.Parser

variable {σ τ ε : Type}

/- The tokens of a source are in order. -/
theorem ordered_of_tokenize
    {source : String}
    {tokens : List Token}
    (hTokens : tokenize source = .ok tokens) :
    Ordered tokens := by
  have hTiling := tiling_of_tokenize hTokens
  constructor
  · exact hTiling.ordered
  · intro token hToken
    exact (hTiling.nonempty token hToken).le

/- What a run on tokens that are in order announces. -/
theorem transcript_follows_script
    {tokens : List Token}
    (hOrdered : Ordered tokens)
    (receiver : Receiver σ τ ε)
    (start : σ) :
    let run := receiver.transcript tokens start
    ∃ (program : Program) (done later : Script)
        (rest : List Token),
      program.script = done ++ later ∧
        tokens = done.tokens ++ rest ∧
          run.events = done.events ∧
            (run.result = .ok () →
              later = [] ∧ rest = []) := by
  intro run
  have hEnds :=
    enacts_program receiver maxNesting
      ⟨tokens, ⟨start, #[]⟩⟩ hOrdered
  cases hRun :
      program receiver.recorded maxNesting
        ⟨tokens, ⟨start, #[]⟩⟩ with
  | ok answer after =>
      rcases program_eq_ok_iff.mp hRun with
        ⟨-, -, -, -, hRest, -⟩
      rw [hRun] at hEnds
      rcases hEnds with
        ⟨script, ⟨program, hScript⟩, hRead, hEvents⟩
      have hSeen : run.events = after.state.events := by
        unfold run Receiver.transcript parse
        rw [hRun]
        rfl
      refine
        ⟨program, script, [], after.rest, ?_, hRead, ?_, ?_⟩
      · rw [List.append_nil]
        exact hScript.symm
      · exact hSeen.trans hEvents
      · intro _
        exact ⟨rfl, hRest⟩
  | error halt after =>
      rw [hRun] at hEnds
      rcases hEnds with
        ⟨done, rest, ⟨program, later, hScript⟩, hRead,
          hEvents⟩
      have hSeen :
          run.events = after.state.events ∧
            run.result ≠ .ok () := by
        unfold run Receiver.transcript parse
        rw [hRun]
        cases halt with
        | stuck obstacle => exact ⟨rfl, by simp⟩
        | refused reason => exact ⟨rfl, by simp⟩
      refine
        ⟨program, done, later, rest, hScript.symm, hRead,
          ?_, ?_⟩
      · exact hSeen.1.trans hEvents
      · intro hOk
        exact absurd hOk hSeen.2

/-
  Every run on the tokens of a source announces what is
  announced in a part of the script of a program, from the
  start of the script on, and the tokens in that part are
  the first ones of the source. A run that succeeds has the
  whole script, and all tokens of the source.
-/
theorem events_follow_script
    {source : String}
    {tokens : List Token}
    (hTokens : tokenize source = .ok tokens)
    (receiver : Receiver σ τ ε)
    (start : σ) :
    let run := receiver.transcript tokens start
    ∃ (program : Program) (done later : Script)
        (rest : List Token),
      program.script = done ++ later ∧
        tokens = done.tokens ++ rest ∧
          run.events = done.events ∧
            (run.result = .ok () →
              later = [] ∧ rest = []) :=
  transcript_follows_script (ordered_of_tokenize hTokens)
    receiver start

/-
  A declaration with a sum in parentheses that goes on over
  two lines, and its semicolon on a third.
-/
def spreadDeclaration : String :=
  "void main() \x7b\n int x = (1\n  + 2)\n ;\n\x7d"

def spreadDeclarationTokens : List Token :=
  [⟨.kwVoid, "void", ⟨0, 4, 1⟩⟩,
    ⟨.identifier, "main", ⟨5, 9, 1⟩⟩,
    ⟨.leftParen, "(", ⟨9, 10, 1⟩⟩,
    ⟨.rightParen, ")", ⟨10, 11, 1⟩⟩,
    ⟨.leftBrace, "\x7b", ⟨12, 13, 1⟩⟩,
    ⟨.kwInt, "int", ⟨15, 18, 2⟩⟩,
    ⟨.identifier, "x", ⟨19, 20, 2⟩⟩,
    ⟨.assign, "=", ⟨21, 22, 2⟩⟩,
    ⟨.leftParen, "(", ⟨23, 24, 2⟩⟩,
    ⟨.number, "1", ⟨24, 25, 2⟩⟩,
    ⟨.plus, "+", ⟨28, 29, 3⟩⟩,
    ⟨.number, "2", ⟨30, 31, 3⟩⟩,
    ⟨.rightParen, ")", ⟨31, 32, 3⟩⟩,
    ⟨.semicolon, ";", ⟨34, 35, 4⟩⟩,
    ⟨.rightBrace, "\x7d", ⟨36, 37, 5⟩⟩]

/-
  The value has its parentheses and ends on the third line;
  the declaration has its semicolon and ends on the fourth.
-/
theorem spreadDeclaration_follows_script :
    tokenize spreadDeclaration =
        .ok spreadDeclarationTokens ∧
      let run :=
        Analysis.receiver.transcript spreadDeclarationTokens
          .initial
      run.result = .ok () ∧
        .effect
            (.declaration false .int ⟨"x", ⟨19, 20, 2⟩⟩
              (some ⟨(), ⟨23, 32, 3⟩⟩) ⟨15, 35, 4⟩) ∈
          run.events ∧
        ∃ (program : Program) (done later : Script)
            (rest : List Token),
          program.script = done ++ later ∧
            spreadDeclarationTokens = done.tokens ++ rest ∧
              run.events = done.events ∧
                (run.result = .ok () →
                  later = [] ∧ rest = []) := by
  have hTokens :
      tokenize spreadDeclaration =
        .ok spreadDeclarationTokens := by
    decide +kernel
  refine ⟨hTokens, ?_, ?_, ?_⟩
  · decide +kernel
  · decide +kernel
  · exact
      events_follow_script hTokens Analysis.receiver .initial

end OnePass
