import OnePass.Proofs.Source.Lines
import OnePass.Proofs.Token.LongestMatch

/-
  Tokens tile the source.

  The tokens of a source stand in it one after the other,
  each the longest match at its place, with nothing but
  blanks and comments before, between and after them. If a
  source has no tokens, everything in front of the reported
  text has them, and no pattern fits where that text starts.

  Both are shown along the cut: what one piece adds is said
  by a step lemma, and the run follows by induction on the
  text that is left.

  Main declarations:
    * `Token.StandsBetween`
    * `Tiles`
    * `Breaks`
    * `Tiling`
    * `Unreadable`
    * `tokenize_tiles_source`
-/

------------------------------------------------------------
-- Gaps
------------------------------------------------------------

namespace OnePass

namespace Pattern

open Piece
open scoped Computability

variable {text gap : List Char}
variable {char : Char}

theorem isBlank_of_endsLine
    (hEnd : endsLine char) :
    isBlank char := by
  unfold endsLine at hEnd
  unfold isBlank
  simp only [Bool.or_eq_true] at hEnd ⊢
  rcases hEnd with hReturn | hFeed
  · exact .inl (.inr hReturn)
  · exact .inr hFeed

theorem nil_mem_separator : [] ∈ separator :=
  Language.nil_mem_kstar _

theorem append_mem_separator
    (hText : text ∈ separator)
    (hGap : gap ∈ separator) :
    text ++ gap ∈ separator := by
  have hEq : separator * separator = separator :=
    kstar_mul_kstar _
  rw [← hEq]
  exact Language.append_mem_mul hText hGap

theorem append_mem_trailer
    (hText : text ∈ separator)
    (hGap : gap ∈ trailer) :
    text ++ gap ∈ trailer := by
  rcases hGap with ⟨head, hHead, tail, hTail, hGap⟩
  rw [← hGap]
  dsimp only
  rw [← List.append_assoc]
  exact
    Language.append_mem_mul
      (append_mem_separator hText hHead) hTail

theorem mem_trailer_of_mem_separator
    (hGap : gap ∈ separator) :
    gap ∈ trailer := by
  have hNil : [] ∈ (1 + comment : Language Char) :=
    .inl rfl
  have hBoth := Language.append_mem_mul hGap hNil
  rwa [List.append_nil] at hBoth

theorem mem_separator_of_mem_blanks
    (hText : text ∈ blanks) :
    text ∈ separator := by
  rcases hText with ⟨head, hHead, tail, hTail, hText⟩
  have hLe : run isBlank ≤ separator :=
    kstar_mono le_self_add
  rw [← hText]
  exact append_mem_kstar (.inl hHead) (hLe hTail)

/- What ends a line does not start a comment. -/
theorem cons_notMem_comment
    (hEnd : endsLine char) :
    char :: text ∉ comment := by
  intro hComment
  rcases mem_comment_iff.mp hComment with ⟨body, hText, -⟩
  rw [(List.cons.inj hText).1] at hEnd
  exact absurd hEnd (by decide)

/- A comment lasts until its line ends. -/
theorem append_cons_mem_separator
    (hComment : text ∈ comment)
    (hEnd : endsLine char)
    (hGap : char :: gap ∈ separator) :
    text ++ char :: gap ∈ separator := by
  rcases cons_mem_kstar hGap with
    ⟨head, tail, hEq, hHead, hTail⟩
  rcases hHead with ⟨only, hOnly, hHead⟩ | hHead
  · rcases List.cons.inj hHead with ⟨-, hNil⟩
    have hEnds : [char] ∈ oneOf endsLine :=
      ⟨char, hEnd, rfl⟩
    have hLine :=
      Language.append_mem_mul hComment hEnds
    have hAll := append_mem_kstar (.inr hLine) hTail
    rw [List.append_assoc] at hAll
    rw [hEq, hNil]
    exact hAll
  · rcases hHead with ⟨start, hStart, stop, -, hHead⟩
    dsimp only at hHead
    cases start with
    | nil =>
        rcases mem_comment_iff.mp hStart with ⟨body, hNil, -⟩
        cases hNil
    | cons first start =>
        rw [(List.cons.inj hHead).1] at hStart
        exact absurd hStart (cons_notMem_comment hEnd)

theorem append_cons_mem_trailer
    (hComment : text ∈ comment)
    (hEnd : endsLine char)
    (hGap : char :: gap ∈ trailer) :
    text ++ char :: gap ∈ trailer := by
  rcases hGap with ⟨head, hHead, tail, hTail, hGap⟩
  dsimp only at hGap
  cases head with
  | nil =>
      rw [List.nil_append] at hGap
      rw [hGap] at hTail
      rcases hTail with hNil | hTail
      · cases hNil
      · exact absurd hTail (cons_notMem_comment hEnd)
  | cons first head =>
      rw [List.cons_append] at hGap
      rcases List.cons.inj hGap with ⟨hFirst, hRest⟩
      rw [hFirst] at hHead
      have hLonger :=
        append_cons_mem_separator hComment hEnd hHead
      have hAll := Language.append_mem_mul hLonger hTail
      rw [List.append_assoc, List.cons_append, hRest] at hAll
      exact hAll

/- After a comment its line ends, or the source. -/
theorem endsLine_of_longest
    (hComment : text ∈ comment)
    (hLongest : Longest text (char :: gap)) :
    endsLine char := by
  by_contra hInside
  rcases mem_comment_iff.mp hComment with
    ⟨body, hText, hBody⟩
  have hLonger : text ++ [char] ∈ comment := by
    apply mem_comment_iff.mpr
    refine ⟨body ++ [char], by rw [hText]; rfl, ?_⟩
    intro other hOther
    rcases List.mem_append.mp hOther with hBefore | hLast
    · exact hBody other hBefore
    · rw [List.mem_singleton.mp hLast]
      simpa using hInside
  have hPart : text ++ [char] <+: text ++ char :: gap :=
    (List.prefix_append_right_inj text).mpr
      (List.prefix_append [char] gap)
  have hLength :=
    hLongest.longest _ hPart (.inr (.inl hLonger))
  rw [List.length_append, List.length_singleton] at hLength
  omega

end Pattern

end OnePass

------------------------------------------------------------
-- Tiles
------------------------------------------------------------

namespace OnePass

open Piece Pattern

/-
  A token stands between two parts of the source: its span
  is where its text is, its line counts the line feeds in
  front of it, and its text is the longest match there.
-/
structure Token.StandsBetween
    (token : Token)
    (before after : List Char) : Prop where
  start : token.span.start = byteLength before
  stop :
    token.span.stop =
      byteLength (before ++ token.text.toList)
  line : token.span.line = before.count '\n' + 1
  nonempty : token.text.toList ≠ []
  wins : token.kind.Wins token.text.toList
  longest : Longest token.text.toList after

/-
  What is left of a source, after `before`, is the tokens
  with gaps around them.
-/
inductive Tiles :
    List Char → List Token → List Char → Prop
| nil
    {before rest : List Char}
    (hRest : rest ∈ trailer) :
    Tiles before [] rest
| cons
    {before gap after : List Char}
    {token : Token}
    {tokens : List Token}
    (hGap : gap ∈ separator)
    (hToken : token.StandsBetween (before ++ gap) after)
    (hLater :
      Tiles (before ++ gap ++ token.text.toList) tokens
        after) :
    Tiles before (token :: tokens)
      (gap ++ (token.text.toList ++ after))

namespace Tiles

variable {before text rest : List Char}
variable {tokens : List Token}

/- A token may stand without a gap in front of it. -/
theorem token
    {token : Token}
    (hToken : token.StandsBetween before rest)
    (hLater :
      Tiles (before ++ token.text.toList) tokens rest) :
    Tiles before (token :: tokens)
      (token.text.toList ++ rest) := by
  rw [← List.append_nil before] at hToken hLater
  exact .cons nil_mem_separator hToken hLater

/- Separators may be put in front. -/
theorem separated
    (hText : text ∈ separator)
    (hTiles : Tiles (before ++ text) tokens rest) :
    Tiles before tokens (text ++ rest) := by
  cases hTiles with
  | nil hRest => exact .nil (append_mem_trailer hText hRest)
  | cons hGap hToken hLater =>
      rw [← List.append_assoc]
      rw [List.append_assoc before] at hToken hLater
      exact
        .cons (append_mem_separator hText hGap) hToken hLater

/- A whole comment may be put in front. -/
theorem commented
    (hText : text ∈ comment)
    (hLongest : Longest text rest)
    (hTiles : Tiles (before ++ text) tokens rest) :
    Tiles before tokens (text ++ rest) := by
  cases hTiles with
  | nil hRest =>
      apply Tiles.nil
      cases rest with
      | nil =>
          rw [List.append_nil]
          exact
            Language.append_mem_mul nil_mem_separator
              (.inr hText)
      | cons char gap =>
          have hEnd := endsLine_of_longest hText hLongest
          exact append_cons_mem_trailer hText hEnd hRest
  | @cons _ gap after token _ hGap hToken hLater =>
      cases gap with
      | nil =>
          -- A token would start where the comment ends.
          cases hFront : token.text.toList with
          | nil => exact absurd hFront hToken.nonempty
          | cons char tail =>
              rw [hFront] at hLongest
              have hEnd := endsLine_of_longest hText hLongest
              have hFits := hToken.wins.1
              rw [hFront] at hFits
              have hBlank :=
                Kind.isBlank_of_mem_pattern hFits
              simp [isBlank_of_endsLine hEnd] at hBlank
      | cons char gap =>
          have hEnd := endsLine_of_longest hText hLongest
          have hLonger :=
            append_cons_mem_separator hText hEnd hGap
          rw [← List.append_assoc]
          rw [List.append_assoc before] at hToken hLater
          exact .cons hLonger hToken hLater

end Tiles

end OnePass

------------------------------------------------------------
-- Breaks
------------------------------------------------------------

namespace OnePass

open Piece Pattern

/- A text has tokens, wherever it stands. -/
def Tokenizes (text : List Char) : Prop :=
  ∀ lines offset, ∃ tokens,
    tokenizeFrom lines offset text = .ok tokens

theorem tokenizes_nil : Tokenizes [] := by
  intro lines offset
  exact ⟨[], by rw [tokenizeFrom]⟩

/-
  A longest match in front of a text that has tokens, if the
  text is a part of what follows the match.
-/
theorem tokenizes_append
    {text after rest : List Char}
    (hText : text ≠ [])
    (hLongest : Longest text after)
    (hPart : rest <+: after)
    (hRest : Tokenizes rest) :
    Tokenizes (text ++ rest) := by
  intro lines offset
  cases text with
  | nil => exact absurd rfl hText
  | cons first tail =>
      rcases front_of_longest hLongest hPart with
        ⟨hPiece, hDrop⟩
      rw [List.cons_append, tokenizeFrom]
      rcases hFront : front first (tail ++ rest) with
        ⟨piece, extra⟩
      rw [hFront] at hPiece hDrop
      dsimp only at hPiece hDrop ⊢
      rw [hDrop]
      cases piece with
      | gap => exact hRest lines _
      | token kind =>
          rcases hRest lines _ with ⟨later, hLater⟩
          rw [hLater]
          exact ⟨_, rfl⟩
      | unrecognized => exact absurd rfl hPiece

/-
  A span marks a text between two parts of the source that
  no pattern fits.
-/
structure Span.MarksBetween
    (span : Span)
    (before bad after : List Char) : Prop where
  start : span.start = byteLength before
  stop : span.stop = byteLength (before ++ bad)
  line : span.line = before.count '\n' + 1
  nonempty : bad ≠ []
  inLine : '\n' ∉ bad
  unmatched : Unmatched (bad ++ after)

/-
  What is left of a source, after `before`, is cut until no
  pattern fits; the diagnostic is about what follows.
-/
def Breaks
    (before rest : List Char)
    (diagnostic : Diagnostic) : Prop :=
  ∃ text bad after span,
    rest = text ++ (bad ++ after) ∧
      diagnostic = .pointAt .lexical span ∧
        span.MarksBetween (before ++ text) bad after ∧
          Tokenizes text

theorem Breaks.later
    {before text rest : List Char}
    {diagnostic : Diagnostic}
    (hText : text ≠ [])
    (hLongest : Longest text rest)
    (hBreaks : Breaks (before ++ text) rest diagnostic) :
    Breaks before (text ++ rest) diagnostic := by
  rcases hBreaks with
    ⟨part, bad, after, span, hRest, hSpan, hMarks, hPart⟩
  refine
    ⟨text ++ part, bad, after, span, ?_, hSpan, ?_, ?_⟩
  · rw [hRest, List.append_assoc]
  · rwa [List.append_assoc] at hMarks
  · have hFront : part <+: rest :=
      hRest ▸ List.prefix_append _ _
    exact tokenizes_append hText hLongest hFront hPart

end OnePass

------------------------------------------------------------
-- Cutting
------------------------------------------------------------

namespace OnePass

open Piece Pattern

/- What the result of cutting a text says about it. -/
def Cuts
    (before rest : List Char) :
    Except Diagnostic (List Token) → Prop
| .ok tokens => Tiles before tokens rest
| .error diagnostic => Breaks before rest diagnostic

variable {before text after : List Char}
variable {result : Except Diagnostic (List Token)}

/- The span of a text after `before`. -/
def spanAfter (before text : List Char) : Span where
  start := byteLength before
  stop := byteLength (before ++ text)
  line := before.count '\n' + 1

theorem cuts_gap
    (hNonempty : text ≠ [])
    (hText : text ∈ blanks + comment)
    (hLongest : Longest text after)
    (hCuts : Cuts (before ++ text) after result) :
    Cuts before (text ++ after) result := by
  cases result with
  | ok tokens =>
      rcases hText with hBlanks | hComment
      · have hSeparator :=
          mem_separator_of_mem_blanks hBlanks
        exact Tiles.separated hSeparator hCuts
      · exact Tiles.commented hComment hLongest hCuts
  | error diagnostic =>
      exact Breaks.later hNonempty hLongest hCuts

theorem cuts_token
    {kind : Kind}
    (hNonempty : text ≠ [])
    (hWins : kind.Wins text)
    (hLongest : Longest text after)
    (hCuts : Cuts (before ++ text) after result) :
    Cuts before (text ++ after)
      (do
        let later ← result
        return ⟨kind, String.ofList text,
          spanAfter before text⟩ :: later) := by
  cases result with
  | ok tokens =>
      have hText : (String.ofList text).toList = text :=
        String.toList_ofList
      have hToken :
          Token.StandsBetween
            ⟨kind, String.ofList text,
              spanAfter before text⟩ before after := by
        rw [← hText] at hNonempty hWins hLongest
        exact
          ⟨rfl, by rw [hText]; rfl, rfl, hNonempty, hWins,
            hLongest⟩
      have hTiles := Tiles.token hToken (hText.symm ▸ hCuts)
      rwa [hText] at hTiles
  | error diagnostic =>
      exact Breaks.later hNonempty hLongest hCuts

theorem cuts_unrecognized
    (before : List Char)
    (hNonempty : text ≠ [])
    (hInLine : '\n' ∉ text)
    (hNone : Unmatched (text ++ after)) :
    Cuts before (text ++ after)
      (.error (.pointAt .lexical (spanAfter before text))) := by
  refine
    ⟨[], text, after, spanAfter before text, rfl, rfl, ?_,
      tokenizes_nil⟩
  rw [List.append_nil]
  exact ⟨rfl, rfl, rfl, hNonempty, hInLine, hNone⟩

/- Every text is cut into tokens as far as patterns fit. -/
theorem cuts_tokenizeFrom
    (before rest : List Char) :
    Cuts before rest
      (tokenizeFrom (.ofChars (before ++ rest))
        (byteLength before) rest) := by
  -- The text that is left shrinks, `before` takes it up.
  induction hLength : rest.length
    using Nat.strong_induction_on
    generalizing before rest with
  | _ length ih =>
  cases rest with
  | nil =>
      rw [tokenizeFrom]
      exact
        .nil (mem_trailer_of_mem_separator nil_mem_separator)
  | cons first rest =>
      rcases hFront : front first rest with ⟨piece, extra⟩
      have hStands := stands_of_front hFront
      have hLine :=
        Lines.lineAt_ofChars before (first :: rest)
      have hWhole :
          first :: rest =
            (first :: rest.take extra) ++ rest.drop extra := by
        rw [List.cons_append, List.take_append_drop]
      have hShorter :=
        length_drop_lt_length_cons first rest extra
      have hRest :=
        ih _ (hLength ▸ hShorter)
          (before ++ first :: rest.take extra)
          (rest.drop extra) rfl
      rw [List.append_assoc, ← hWhole] at hRest
      have hStop :=
        byteLength_append before (first :: rest.take extra)
      have hNonempty := List.cons_ne_nil first (rest.take extra)
      rw [tokenizeFrom, hFront]
      dsimp only
      rw [hLine, ← hStop]
      cases hStands with
      | gap hText hLongest =>
          have hCuts :=
            cuts_gap hNonempty hText hLongest hRest
          rwa [← hWhole] at hCuts
      | token hWins hLongest =>
          have hCuts :=
            cuts_token hNonempty hWins hLongest hRest
          rwa [← hWhole] at hCuts
      | unrecognized hInLine hNone =>
          have hCuts :=
            cuts_unrecognized before hNonempty hInLine hNone
          rwa [← hWhole] at hCuts

end OnePass

------------------------------------------------------------
-- Whole Sources
------------------------------------------------------------

namespace OnePass

open Pattern

/- Where the last token stops, or where none has begun. -/
def stopOf (offset : Nat) : List Token → Nat
| [] => offset
| token :: tokens => stopOf token.span.stop tokens

/- Where the first token starts, or where none is left. -/
def startOf (offset : Nat) : List Token → Nat
| [] => offset
| token :: _ => token.span.start

/-
  The text between the earlier and the later tokens of a
  source is a gap. Only the last one may end in a comment
  whose line does not end.
-/
def GapBetween
    (source : List Char)
    (offset : Nat)
    (earlier later : List Token) : Prop :=
  ∃ before gap after,
    source = before ++ gap ++ after ∧
      byteLength before = stopOf offset earlier ∧
        byteLength (before ++ gap) =
          startOf (byteLength source) later ∧
            gap ∈ trailer ∧ (later ≠ [] → gap ∈ separator)

/- The tokens are the longest-match tiling of a source. -/
structure Tiling
    (source : List Char)
    (tokens : List Token) : Prop where
  nonempty :
    ∀ token ∈ tokens, token.span.start < token.span.stop
  ordered :
    tokens.Pairwise
      (fun earlier later =>
        earlier.span.stop ≤ later.span.start)
  placed :
    ∀ token ∈ tokens, ∃ before after,
      source = before ++ token.text.toList ++ after ∧
        token.StandsBetween before after
  gaps :
    ∀ earlier later,
      tokens = earlier ++ later →
        GapBetween source 0 earlier later

namespace Tiles

variable {before rest : List Char}
variable {tokens : List Token}

/- Each token stands somewhere in the source. -/
theorem placed
    (hTiles : Tiles before tokens rest) :
    ∀ token ∈ tokens, ∃ earlier later,
      before ++ rest =
          earlier ++ token.text.toList ++ later ∧
        token.StandsBetween earlier later := by
  induction hTiles with
  | nil hRest => simp
  | @cons before gap after token tokens hGap hToken hLater
      ih =>
      rw [List.forall_mem_cons]
      constructor
      · exact ⟨before ++ gap, after, by simp, hToken⟩
      · intro other hOther
        rcases ih other hOther with
          ⟨earlier, later, hEq, hStands⟩
        refine ⟨earlier, later, ?_, hStands⟩
        rw [← hEq]
        simp

/- No token starts before the text that is left. -/
theorem byteLength_le_start
    (hTiles : Tiles before tokens rest) :
    ∀ token ∈ tokens,
      byteLength before ≤ token.span.start := by
  induction hTiles with
  | nil hRest => simp
  | @cons before gap after token tokens hGap hToken hLater
      ih =>
      rw [List.forall_mem_cons]
      constructor
      · rw [hToken.start, byteLength_append]
        omega
      · intro other hOther
        have hAfter := ih other hOther
        rw [byteLength_append, byteLength_append] at hAfter
        omega

/- Each token stops before the next ones start. -/
theorem ordered
    (hTiles : Tiles before tokens rest) :
    tokens.Pairwise
      (fun earlier later =>
        earlier.span.stop ≤ later.span.start) := by
  induction hTiles with
  | nil hRest => exact .nil
  | cons hGap hToken hLater ih =>
      refine .cons ?_ ih
      intro later hMem
      rw [hToken.stop]
      exact hLater.byteLength_le_start later hMem

/- Between the tokens there are gaps. -/
theorem gaps
    (hTiles : Tiles before tokens rest) :
    ∀ earlier later,
      tokens = earlier ++ later →
        GapBetween (before ++ rest) (byteLength before)
          earlier later := by
  induction hTiles with
  | @nil before rest hRest =>
      intro earlier later hSplit
      rcases List.append_eq_nil_iff.mp hSplit.symm with
        ⟨hEarlier, hLater⟩
      rw [hEarlier, hLater]
      exact
        ⟨before, rest, [], by simp, rfl, rfl, hRest,
          by simp⟩
  | @cons before gap after token tokens hGap hToken hLater
      ih =>
      intro earlier later hSplit
      cases earlier with
      | nil =>
          rw [List.nil_append] at hSplit
          rw [← hSplit]
          exact
            ⟨before, gap, token.text.toList ++ after,
              by simp, rfl, hToken.start.symm,
              mem_trailer_of_mem_separator hGap,
              fun _ => hGap⟩
      | cons first earlier =>
          rcases List.cons.inj hSplit with ⟨hFirst, hRest⟩
          have hBetween := ih earlier later hRest
          rw [← hToken.stop, List.append_assoc,
            List.append_assoc] at hBetween
          rw [← hFirst]
          exact hBetween

theorem tiling
    {source : List Char}
    (hTiles : Tiles [] tokens source) :
    Tiling source tokens where
  nonempty token hToken := by
    rcases hTiles.placed token hToken with
      ⟨before, after, -, hStands⟩
    have hText := byteLength_pos hStands.nonempty
    rw [hStands.start, hStands.stop, byteLength_append]
    omega
  ordered := hTiles.ordered
  placed := hTiles.placed
  gaps := hTiles.gaps

end Tiles

/-
  A lexical error marks the first text that no pattern fits:
  everything in front of it has tokens.
-/
structure Unreadable
    (source : String)
    (span : Span)
    (before bad after : List Char) : Prop where
  source_eq : source.toList = before ++ bad ++ after
  marks : span.MarksBetween before bad after
  nonempty : span.start < span.stop
  readable :
    ∃ tokens, tokenize (String.ofList before) = .ok tokens

theorem Breaks.unreadable
    {source : String}
    {diagnostic : Diagnostic}
    (hBreaks : Breaks [] source.toList diagnostic) :
    ∃ span before bad after,
      diagnostic = .pointAt .lexical span ∧
        Unreadable source span before bad after := by
  rcases hBreaks with
    ⟨before, bad, after, span, hSource, hSpan, hMarks, hPart⟩
  refine ⟨span, before, bad, after, hSpan, ?_⟩
  rw [List.nil_append] at hMarks
  have hBad := byteLength_pos hMarks.nonempty
  constructor
  · rw [hSource, List.append_assoc]
  · exact hMarks
  · rw [hMarks.start, hMarks.stop, byteLength_append]
    omega
  · unfold tokenize
    rw [String.toList_ofList]
    exact hPart _ _

/- The tokens of a source are its longest-match tiling. -/
theorem tiling_of_tokenize
    {source : String}
    {tokens : List Token}
    (hTokens : tokenize source = .ok tokens) :
    Tiling source.toList tokens := by
  have hCuts := cuts_tokenizeFrom [] source.toList
  change Cuts [] source.toList (tokenize source) at hCuts
  rw [hTokens] at hCuts
  exact Tiles.tiling hCuts

/- A source that is not cut has a text that does not fit. -/
theorem unreadable_of_tokenize
    {source : String}
    {diagnostic : Diagnostic}
    (hLexical : tokenize source = .error diagnostic) :
    ∃ span before bad after,
      diagnostic = .pointAt .lexical span ∧
        Unreadable source span before bad after := by
  have hCuts := cuts_tokenizeFrom [] source.toList
  change Cuts [] source.toList (tokenize source) at hCuts
  rw [hLexical] at hCuts
  exact Breaks.unreadable hCuts

/-
  A source is cut into the tokens of its longest-match
  tiling, or up to the first text that no pattern fits.
-/
theorem tokenize_tiles_source
    (source : String) :
    match tokenize source with
    | .ok tokens => Tiling source.toList tokens
    | .error diagnostic =>
        ∃ span before bad after,
          diagnostic = .pointAt .lexical span ∧
            Unreadable source span before bad after := by
  cases hResult : tokenize source with
  | ok tokens => exact tiling_of_tokenize hResult
  | error diagnostic => exact unreadable_of_tokenize hResult

end OnePass
