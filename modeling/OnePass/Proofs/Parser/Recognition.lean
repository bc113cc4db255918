import OnePass.Proofs.Grammar.Reductions
import OnePass.Proofs.Grammar.Unambiguous
import OnePass.Proofs.Parser.Reading.Program

/-
  The parser accepts its grammar and reports the tree.

  A recorder refuses nothing. A run with a recorder succeeds
  exactly on the tokens of a tree, and the events of the run
  are then the reductions of that tree, which is the only
  one with these tokens.

  Main declarations:
    * `Grammar.Program.IsTreeOf.unique`
    * `transcript_of_isTreeOf`
    * `transcript_ok_iff_reductions`
-/

------------------------------------------------------------
-- Recognition
------------------------------------------------------------

namespace OnePass

open Grammar

variable {σ τ ε : Type}

/- There is at most one tree that is written with the tokens. -/
theorem Grammar.Program.IsTreeOf.unique
    {first second : Program}
    {tokens : List Token}
    (hFirst : first.IsTreeOf tokens)
    (hSecond : second.IsTreeOf tokens) :
    first = second := by
  apply
    Program.eq_of_tokens_eq hFirst.elseNearest
      hSecond.elseNearest
  rw [hFirst.tokens_eq, hSecond.tokens_eq]

/- The transcript of a run on the tokens of a tree. -/
theorem transcript_of_isTreeOf
    (recorder : Recorder σ τ)
    {program : Program}
    {tokens : List Token}
    (hTree : program.IsTreeOf tokens)
    (start : σ) :
    ((recorder.receiver ε).transcript tokens start).result =
        .ok () ∧
      ((recorder.receiver ε).transcript tokens start).events =
        program.reductions := by
  rcases program.logs_announce (ε := ε) recorder ⟨start, #[]⟩
    with ⟨_, final, hDone, -, hEvents⟩
  have hParse :
      parse (recorder.receiver ε).recorded tokens
          ⟨start, #[]⟩ =
        (.ok (), final) :=
    parse_eq_ok_iff.mpr ⟨program, hTree, hDone⟩
  constructor
  · rw [Receiver.transcript, hParse]
  · rw [Receiver.transcript, hParse]
    exact hEvents

/-
  A run with a recorder succeeds exactly on the tokens of a
  tree; its events are the reductions of the tree, and no
  other tree has these tokens.
-/
theorem transcript_ok_iff_reductions
    (recorder : Recorder σ τ)
    (tokens : List Token)
    (start : σ)
    (events : List (Event Unit)) :
    ((recorder.receiver ε).transcript tokens start).result =
          .ok () ∧
        ((recorder.receiver ε).transcript tokens
            start).events =
          events ↔
      ∃ program : Program,
        program.IsTreeOf tokens ∧
          program.reductions = events ∧
          ∀ other : Program,
            other.IsTreeOf tokens → other = program := by
  constructor
  · rintro ⟨hResult, hEvents⟩
    have hParse :
        parse (recorder.receiver ε).recorded tokens
            ⟨start, #[]⟩ =
          (.ok (),
            (parse (recorder.receiver ε).recorded tokens
              ⟨start, #[]⟩).2) :=
      Prod.ext hResult rfl
    rcases parse_eq_ok_iff.mp hParse with ⟨program, hTree, -⟩
    refine
      ⟨program, hTree, ?_, fun other hOther =>
        hOther.unique hTree⟩
    rw [← hEvents]
    exact (transcript_of_isTreeOf recorder hTree start).2.symm
  · rintro ⟨program, hTree, rfl, -⟩
    exact transcript_of_isTreeOf recorder hTree start

end OnePass
