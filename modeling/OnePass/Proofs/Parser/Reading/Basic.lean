import OnePass.Proofs.Grammar.Announcement
import OnePass.Proofs.Grammar.Shape
import OnePass.Proofs.Parser.Outcome

/-
  What it means that a rule reads trees.

  A rule reads the phrases of a kind when it answers exactly
  where a phrase of that kind stands and is complete, and
  then has announced that phrase and nothing else. This is
  said for an arbitrary receiver.

  Main declarations:
    * `Parser.Phrase`
    * `Parser.Reads`
    * `Parser.reads_commaSeparated`
    * `Parser.reads_commaList`
-/

------------------------------------------------------------
-- Phrases
------------------------------------------------------------

namespace OnePass

namespace Parser

/-
  Trees of type `χ`, as a rule with answers of type `α` may
  read them.
-/
structure Phrase (σ ε α χ : Type) extends
    Grammar.Shape χ where
  /- What a tree announces, and what it answers. -/
  announce : χ → EStateM ε σ α

/-
  The rule answers exactly if it finds a fitting tree that
  is complete and that the receiver accepts.
-/
def Reads
    {σ ε α χ : Type}
    (rule : Rule σ ε α)
    (phrase : Phrase σ ε α χ) : Prop :=
  ∀ (before after : Cursor σ) (answer : α),
    rule before = .ok answer after ↔
      ∃ tree,
        before.rest = phrase.tokens tree ++ after.rest ∧
          phrase.Fits tree ∧
          phrase.Stops tree after.rest ∧
          phrase.announce tree before.state =
            .ok answer after.state

end Parser

end OnePass

------------------------------------------------------------
-- Items Separated By Commas
------------------------------------------------------------

namespace OnePass

namespace Grammar

namespace Separated

variable {α β σ ε : Type}

/- Announce the items one after the other. -/
def announce
    (announceItem : α → EStateM ε σ β) :
    Separated α → EStateM ε σ (List β)
| one item => do
    return [← announceItem item]
| more items _ item => do
    let before ← items.announce announceItem
    return before ++ [← announceItem item]

end Separated

end Grammar

namespace Parser

open Grammar (Leaf Separated Shape headKind)

variable {σ ε α χ : Type}

/- One or more phrases, separated by commas. -/
def Phrase.separated
    (phrase : Phrase σ ε α χ) :
    Phrase σ ε (List α) (Separated χ) where
  toShape := phrase.toShape.separated
  announce := Separated.announce phrase.announce

section Items

variable {item : Rule σ ε α}
variable {phrase : Phrase σ ε α χ}

theorem itemStep_eq_none_iff
    {items : List α}
    {before after : Cursor σ} :
    itemStep item items before = .ok none after ↔
      headKind before.rest ≠ some .comma ∧
        after = before := by
  unfold itemStep
  simp only [bind_eq_ok_iff, accept_eq_ok_iff]
  constructor
  · rintro ⟨_, _,
      (⟨leaf, hRest, hState, rfl⟩ | ⟨hKind, rfl, rfl⟩),
      hNext⟩
    · simp only [if_true, bind_eq_ok_iff, pure_eq_ok_iff]
        at hNext
      rcases hNext with ⟨_, _, _, hNone, _⟩
      cases hNone
    · simp only [Bool.false_eq_true, if_false,
        pure_eq_ok_iff] at hNext
      exact ⟨hKind, hNext.2.symm⟩
  · rintro ⟨hKind, rfl⟩
    exact ⟨false, after, Or.inr ⟨hKind, rfl, rfl⟩, rfl⟩

theorem itemStep_eq_some_iff
    {items answers : List α}
    {before after : Cursor σ} :
    itemStep item items before =
        .ok (some answers) after ↔
      ∃ (comma : Leaf .comma) (rest : List Token)
        (answer : α),
        before.rest = comma.token :: rest ∧
          item ⟨rest, before.state⟩ = .ok answer after ∧
          answers = items ++ [answer] := by
  unfold itemStep
  simp only [bind_eq_ok_iff, accept_eq_ok_iff]
  constructor
  · rintro ⟨_, ⟨rest, state⟩,
      (⟨leaf, hRest, hState, rfl⟩ | ⟨hKind, -, rfl⟩),
      hNext⟩
    · simp only [if_true, bind_eq_ok_iff, pure_eq_ok_iff]
        at hNext
      rcases hNext with ⟨answer, _, hItem, hSome, rfl⟩
      cases hState
      exact
        ⟨leaf, rest, answer, hRest, hItem,
          (Option.some.inj hSome).symm⟩
    · simp only [Bool.false_eq_true, if_false,
        pure_eq_ok_iff] at hNext
      cases hNext.1
  · rintro ⟨comma, rest, answer, hRest, hItem, rfl⟩
    refine
      ⟨true, ⟨rest, before.state⟩,
        Or.inl ⟨comma, hRest, rfl, rfl⟩, ?_⟩
    simp only [if_true, bind_eq_ok_iff, pure_eq_ok_iff]
    exact ⟨answer, after, hItem, rfl, rfl⟩

/- Every further item is preceded by a comma. -/
theorem progresses_itemStep
    (hItem : Reads item phrase) :
    Progresses (itemStep item) where
  reads hStep := by
    rw [itemStep_eq_some_iff] at hStep
    rcases hStep with ⟨comma, rest, answer, hRest, hRead, -⟩
    rw [hItem] at hRead
    rcases hRead with ⟨tree, hTree, -⟩
    have hUnread := congrArg List.length hTree
    simp only [List.length_append] at hUnread
    rw [hRest, List.length_cons]
    omega
  ends items state := by
    rw [itemStep_eq_none_iff]
    simp

/-
  What a run of the loop keeps: the items read so far have
  been announced, and the last one is complete.
-/
private theorem separated_of_steps
    (hItem : Reads item phrase)
    {start : Cursor σ}
    {answers result : List α}
    {before after : Cursor σ}
    (hSteps :
      Steps (itemStep item) answers before result after)
    (items : Separated χ)
    (hTokens :
      start.rest =
        phrase.separated.tokens items ++ before.rest)
    (hFits : phrase.separated.Fits items)
    (hStops : phrase.Stops items.last before.rest)
    (hAnnounce :
      phrase.separated.announce items start.state =
        .ok answers before.state) :
    ∃ items,
      start.rest =
          phrase.separated.tokens items ++ after.rest ∧
        phrase.separated.Fits items ∧
        phrase.separated.Stops items after.rest ∧
        phrase.separated.announce items start.state =
          .ok result after.state := by
  induction hSteps generalizing items with
  | stop hStep =>
      rw [itemStep_eq_none_iff] at hStep
      rcases hStep with ⟨hKind, rfl⟩
      exact
        ⟨items, hTokens, hFits, ⟨hStops, hKind⟩, hAnnounce⟩
  | next hStep _ ih =>
      rw [itemStep_eq_some_iff] at hStep
      rcases hStep with
        ⟨comma, rest, answer, hRest, hRead, rfl⟩
      rw [hItem] at hRead
      rcases hRead with ⟨tree, hMore, hFit, hStop, hTree⟩
      change rest = _ at hMore
      apply ih (.more items comma tree)
      · rw [hTokens, hRest, hMore]
        simp [Phrase.separated, Shape.separated,
          Separated.tokens]
      · exact ⟨hFits, hFit⟩
      · exact hStop
      · change
          (do
            let before ← phrase.separated.announce items
            return before ++ [← phrase.announce tree] :
              EStateM ε σ (List α)) start.state = _
        simp only [bind_eq_ok_iff, pure_eq_ok_iff]
        exact
          ⟨_, _, hAnnounce, answer, _, hTree, rfl, rfl⟩

/- Reading the items leads to the steps that follow them. -/
private theorem steps_of_separated
    (hItem : Reads item phrase)
    (hComma :
      ∀ (tree : χ) (comma : Leaf .comma)
        (rest : List Token),
        phrase.Stops tree (comma.token :: rest))
    {start : σ}
    {result : List α}
    {after : Cursor σ}
    (items : Separated χ)
    {answers : List α}
    {rest : List Token}
    {between : σ}
    (hFits : phrase.separated.Fits items)
    (hStops : phrase.Stops items.last rest)
    (hAnnounce :
      phrase.separated.announce items start =
        .ok answers between)
    (hSteps :
      Steps (itemStep item) answers ⟨rest, between⟩
        result after) :
    ∃ first cursor,
      item ⟨phrase.separated.tokens items ++ rest, start⟩ =
          .ok first cursor ∧
        Steps (itemStep item) [first] cursor result after := by
  induction items generalizing answers rest between with
  | one tree =>
      change
        (do return [← phrase.announce tree] :
          EStateM ε σ (List α)) start = _ at hAnnounce
      simp only [bind_eq_ok_iff, pure_eq_ok_iff] at hAnnounce
      rcases hAnnounce with ⟨first, _, hTree, rfl, rfl⟩
      refine ⟨first, ⟨rest, _⟩, ?_, hSteps⟩
      rw [hItem]
      exact ⟨tree, rfl, hFits, hStops, hTree⟩
  | more items comma tree ih =>
      change
        (do
          let before ← phrase.separated.announce items
          return before ++ [← phrase.announce tree] :
            EStateM ε σ (List α)) start = _ at hAnnounce
      simp only [bind_eq_ok_iff, pure_eq_ok_iff] at hAnnounce
      rcases hAnnounce with
        ⟨earlier, middle, hItems, last, final, hTree, rfl,
          hFinal⟩
      subst hFinal
      have hRead :
          item ⟨phrase.tokens tree ++ rest, middle⟩ =
            .ok last ⟨rest, final⟩ := by
        rw [hItem]
        exact ⟨tree, rfl, hFits.2, hStops, hTree⟩
      have hStep :
          itemStep item earlier
              ⟨comma.token :: (phrase.tokens tree ++ rest),
                middle⟩ =
            .ok (some (earlier ++ [last])) ⟨rest, final⟩ := by
        rw [itemStep_eq_some_iff]
        exact ⟨comma, _, last, rfl, hRead, rfl⟩
      have hTokens :
          phrase.separated.tokens (.more items comma tree) ++
              rest =
            phrase.separated.tokens items ++
              comma.token :: (phrase.tokens tree ++ rest) := by
        simp [Phrase.separated, Shape.separated,
          Separated.tokens]
      rw [hTokens]
      exact
        ih hFits.1 (hComma _ comma _) hItems
          (Steps.next hStep hSteps)

/- A list of items is read as a whole. -/
theorem reads_commaSeparated
    (hItem : Reads item phrase)
    (hComma :
      ∀ (tree : χ) (comma : Leaf .comma)
        (rest : List Token),
        phrase.Stops tree (comma.token :: rest)) :
    Reads (commaSeparated item) phrase.separated := by
  intro before after answer
  unfold commaSeparated
  simp only [bind_eq_ok_iff,
    iterate_eq_ok_iff (progresses_itemStep hItem)]
  constructor
  · rintro ⟨first, between, hFirst, hSteps⟩
    rw [hItem] at hFirst
    rcases hFirst with ⟨tree, hTokens, hFit, hStop, hTree⟩
    apply separated_of_steps hItem hSteps (.one tree)
    · exact hTokens
    · exact hFit
    · exact hStop
    · change
        (do return [← phrase.announce tree] :
          EStateM ε σ (List α)) before.state = _
      simp only [bind_eq_ok_iff, pure_eq_ok_iff]
      exact ⟨first, _, hTree, rfl, rfl⟩
  · rintro ⟨items, hTokens, hFits, ⟨hStop, hKind⟩, hAnnounce⟩
    have hStart :
        before =
          ⟨phrase.separated.tokens items ++ after.rest,
            before.state⟩ := by
      rw [← hTokens]
    rw [hStart]
    apply
      steps_of_separated hItem hComma items hFits hStop
        hAnnounce
    apply Steps.stop
    rw [itemStep_eq_none_iff]
    exact ⟨hKind, rfl⟩

/- Any number of phrases, before a closing parenthesis. -/
def Phrase.listed
    (phrase : Phrase σ ε α χ) :
    Phrase σ ε (List α) (Option (Separated χ)) where
  toShape := phrase.toShape.listed
  announce items :=
    match items with
    | none => return []
    | some present => phrase.separated.announce present

/- A list of items is read, or that there are none. -/
theorem reads_commaList
    (hItems : Reads (commaSeparated item) phrase.separated)
    (hFirst :
      ∀ (tree : χ) (rest : List Token),
        headKind (phrase.tokens tree ++ rest) ≠
          some .rightParen) :
    Reads (commaList item) phrase.listed := by
  intro before after answer
  unfold commaList
  rw [peek_bind]
  by_cases hParen : headKind before.rest = some .rightParen
  · rw [if_pos hParen, pure_eq_ok_iff]
    constructor
    · rintro ⟨rfl, rfl⟩
      refine ⟨none, rfl, ?_, hParen, rfl⟩
      intro _ hPresent
      cases hPresent
    · rintro ⟨_ | items, hTokens, -, -, hAnnounce⟩
      · change (pure [] : EStateM ε σ (List α)) _ = _
          at hAnnounce
        rw [pure_eq_ok_iff] at hAnnounce
        rcases before with ⟨tokens, state⟩
        rcases after with ⟨rest, final⟩
        cases hTokens
        cases hAnnounce.2
        exact ⟨hAnnounce.1, rfl⟩
      · rcases
            items.exists_tokens_eq phrase.tokens with
          ⟨tree, rest, hStart⟩
        change
          before.rest =
            items.tokens phrase.tokens ++ after.rest
          at hTokens
        rw [hTokens, hStart, List.append_assoc] at hParen
        exact absurd hParen (hFirst tree _)
  · rw [if_neg hParen, hItems]
    constructor
    · rintro ⟨items, hTokens, hFits, hStops, hAnnounce⟩
      refine
        ⟨some items, hTokens, ?_, hStops, hAnnounce⟩
      rintro _ ⟨rfl⟩
      exact hFits
    · rintro ⟨_ | items, hTokens, hFits, hStops, hAnnounce⟩
      · rw [hTokens] at hParen
        exact absurd hStops hParen
      · exact
          ⟨items, hTokens, hFits items rfl, hStops, hAnnounce⟩

end Items

end Parser

end OnePass
