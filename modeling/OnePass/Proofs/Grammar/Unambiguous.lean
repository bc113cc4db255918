import OnePass.Proofs.Grammar.Shape

/-
  The tokens determine the tree.

  Two trees of one shape that are read off the same tokens,
  and are both complete where they end, are the same tree
  and end at the same place. A tree with operators is
  compared from the left, operand by operand; which of the
  other forms a tree has is told by its first two tokens.

  Main declarations:
    * `Grammar.Shape.Unambiguous`
    * `Grammar.unambiguous_expr`
    * `Grammar.unambiguous_stmt`
    * `Grammar.Function.header_eq_of_tokens_eq`
    * `Grammar.Program.eq_of_tokens_eq`
-/

------------------------------------------------------------
-- Leaves
------------------------------------------------------------

namespace OnePass

namespace Grammar

/- The tokens determine the tree, and where it ends. -/
def Shape.Unambiguous
    {χ : Type}
    (shape : Shape χ) : Prop :=
  ∀ (first second : χ) (rest others : List Token),
    shape.Fits first →
    shape.Fits second →
    shape.Stops first rest →
    shape.Stops second others →
    shape.tokens first ++ rest =
      shape.tokens second ++ others →
    first = second ∧ rest = others

/- These two trees are the same if they start the same. -/
def Shape.TellsApart
    {χ : Type}
    (shape : Shape χ)
    (first second : χ) : Prop :=
  ∀ rest others : List Token,
    shape.Fits first →
    shape.Fits second →
    shape.Stops first rest →
    shape.Stops second others →
    shape.tokens first ++ rest =
      shape.tokens second ++ others →
    first = second ∧ rest = others

theorem Shape.TellsApart.symm
    {χ : Type}
    {shape : Shape χ}
    {first second : χ}
    (hApart : shape.TellsApart first second) :
    shape.TellsApart second first := by
  intro rest others hFits hFits' hStops hStops' hSame
  obtain ⟨hTree, hRest⟩ :=
    hApart others rest hFits' hFits hStops' hStops hSame.symm
  exact ⟨hTree.symm, hRest.symm⟩

/- A leaf is its token. -/
@[simp] theorem Leaf.token_inj
    {kind : Kind}
    {first second : Leaf kind} :
    first.token = second.token ↔ first = second := by
  rcases first with ⟨text, span⟩
  rcases second with ⟨text', span'⟩
  simp [Leaf.token]

/- What a token stands for is determined by the token. -/
@[simp] theorem Sign.token_inj
    {ω : Type}
    {meaning? : Kind → Option ω}
    {first second : Sign meaning?} :
    first.token = second.token ↔ first = second := by
  constructor
  · intro hToken
    rcases first with ⟨token, meaning, hMeans⟩
    rcases second with ⟨token', meaning', hMeans'⟩
    cases hToken
    rw [hMeans] at hMeans'
    cases hMeans'
    rfl
  · rintro rfl
    rfl

end Grammar

end OnePass

------------------------------------------------------------
-- Chains
------------------------------------------------------------

namespace OnePass

namespace Grammar

/- Items with a separator between each two of them. -/
structure Spine (ρ χ : Type) where
  head : χ
  tail : List (ρ × χ)

namespace Spine

variable {ρ χ : Type}

/- Add a separator and an item at the end. -/
def snoc
    (spine : Spine ρ χ)
    (separator : ρ)
    (item : χ) : Spine ρ χ where
  head := spine.head
  tail := spine.tail ++ [(separator, item)]

/- Nothing is lost by adding an item. -/
theorem snoc_inj
    {first second : Spine ρ χ}
    {separator separator' : ρ}
    {item item' : χ}
    (hSame :
      first.snoc separator item =
        second.snoc separator' item') :
    first = second ∧ separator = separator' ∧
      item = item' := by
  rcases first with ⟨head, tail⟩
  rcases second with ⟨head', tail'⟩
  simp only [snoc, Spine.mk.injEq] at hSame
  rcases hSame with ⟨rfl, hTail⟩
  have hParts := List.append_inj' hTail rfl
  simp only [List.cons.injEq, Prod.mk.injEq, and_true]
    at hParts
  rcases hParts with ⟨rfl, rfl, rfl⟩
  exact ⟨rfl, rfl, rfl⟩

/- The tokens of the items that come after the first. -/
def tailTokens
    (itemTokens : χ → List Token)
    (separatorToken : ρ → Token) :
    List (ρ × χ) → List Token
| [] => []
| (separator, item) :: tail =>
    separatorToken separator ::
      (itemTokens item ++
        tailTokens itemTokens separatorToken tail)

/- The last item. -/
def lastOf : χ → List (ρ × χ) → χ
| head, [] => head
| _, (_, item) :: tail => lastOf item tail

theorem tailTokens_append
    (itemTokens : χ → List Token)
    (separatorToken : ρ → Token)
    (tail : List (ρ × χ))
    (separator : ρ)
    (item : χ) :
    tailTokens itemTokens separatorToken
        (tail ++ [(separator, item)]) =
      tailTokens itemTokens separatorToken tail ++
        separatorToken separator :: itemTokens item := by
  induction tail with
  | nil => simp [tailTokens]
  | cons pair tail ih => simp [tailTokens, ih]

theorem lastOf_append
    (head : χ)
    (tail : List (ρ × χ))
    (separator : ρ)
    (item : χ) :
    lastOf head (tail ++ [(separator, item)]) = item := by
  induction tail generalizing head with
  | nil => rfl
  | cons pair tail ih => exact ih pair.2

/-
  Chains of items of one shape. Every item is complete
  before a separator, and no separator follows the chain.
-/
def shape
    (item : Shape χ)
    (separatorToken : ρ → Token) : Shape (Spine ρ χ) where
  tokens spine :=
    item.tokens spine.head ++
      tailTokens item.tokens separatorToken spine.tail
  Fits spine :=
    item.Fits spine.head ∧
      ∀ pair ∈ spine.tail, item.Fits pair.2
  Stops spine rest :=
    item.Stops (lastOf spine.head spine.tail) rest ∧
      ∀ separator more,
        rest ≠ separatorToken separator :: more

/- Chains are compared item by item, from the left. -/
theorem unambiguous_shape
    {item : Shape χ}
    {separatorToken : ρ → Token}
    (hItem : item.Unambiguous)
    (hStops :
      ∀ tree separator rest,
        item.Stops tree (separatorToken separator :: rest))
    (hInjective :
      ∀ separator separator',
        separatorToken separator = separatorToken separator' →
          separator = separator') :
    (shape item separatorToken).Unambiguous := by
  rintro ⟨head, tail⟩ ⟨head', tail'⟩ rest others hFits hFits'
    hEnds hEnds' hTokens
  simp only [shape] at hFits hFits' hEnds hEnds' hTokens
  induction tail generalizing head head' tail' with
  | nil =>
      cases tail' with
      | nil =>
          simp only [tailTokens, List.append_nil] at hTokens
          rcases
              hItem _ _ _ _ hFits.1 hFits'.1 hEnds.1 hEnds'.1
                hTokens with
            ⟨rfl, rfl⟩
          exact ⟨rfl, rfl⟩
      | cons pair' tail' =>
          simp only [tailTokens, List.append_nil,
            List.append_assoc, List.cons_append] at hTokens
          have hRest :=
            (hItem _ _ _ _ hFits.1 hFits'.1 hEnds.1
              (hStops _ _ _) hTokens).2
          exact absurd hRest (hEnds.2 _ _)
  | cons pair tail ih =>
      rcases pair with ⟨separator, next⟩
      cases tail' with
      | nil =>
          simp only [tailTokens, List.append_nil,
            List.append_assoc, List.cons_append] at hTokens
          have hRest :=
            (hItem _ _ _ _ hFits.1 hFits'.1 (hStops _ _ _)
              hEnds'.1 hTokens).2
          exact absurd hRest.symm (hEnds'.2 _ _)
      | cons pair' tail' =>
          rcases pair' with ⟨separator', next'⟩
          simp only [tailTokens, List.append_assoc,
            List.cons_append] at hTokens
          rcases
              hItem _ _ _ _ hFits.1 hFits'.1 (hStops _ _ _)
                (hStops _ _ _) hTokens with
            ⟨rfl, hMore⟩
          rcases List.cons.inj hMore with ⟨hSame, hMore⟩
          have hFits := List.forall_mem_cons.mp hFits.2
          have hFits' := List.forall_mem_cons.mp hFits'.2
          rcases
              ih next next' tail' hFits hFits' hEnds hEnds'
                (by simpa using hMore) with
            ⟨hSpine, rfl⟩
          cases hSpine
          cases hInjective _ _ hSame
          exact ⟨rfl, rfl⟩

end Spine

/- Trees are told apart if what they are turned into is. -/
theorem Shape.Unambiguous.of_injective
    {χ ψ : Type}
    {shape : Shape χ}
    {other : Shape ψ}
    (hOther : other.Unambiguous)
    (turn : χ → ψ)
    (hInjective :
      ∀ first second, turn first = turn second →
        first = second)
    (hTokens :
      ∀ tree, other.tokens (turn tree) = shape.tokens tree)
    (hFits :
      ∀ tree, shape.Fits tree → other.Fits (turn tree))
    (hStops :
      ∀ tree rest,
        shape.Stops tree rest →
          other.Stops (turn tree) rest) :
    shape.Unambiguous := by
  intro first second rest others hFirst hSecond hEnds hEnds'
    hSame
  rw [← hTokens, ← hTokens] at hSame
  have hBoth :=
    hOther _ _ _ _ (hFits _ hFirst) (hFits _ hSecond)
      (hStops _ _ hEnds) (hStops _ _ hEnds') hSame
  exact ⟨hInjective _ _ hBoth.1, hBoth.2⟩

namespace Separated

variable {χ : Type}

/- The items with the commas between them. -/
def spine : Separated χ → Spine (Leaf .comma) χ
| one item => ⟨item, []⟩
| more items comma item => items.spine.snoc comma item

theorem spine_inj
    (first second : Separated χ)
    (hSame : first.spine = second.spine) :
    first = second := by
  induction first generalizing second with
  | one item =>
      cases second with
      | one item' =>
          cases hSame
          rfl
      | more items comma item' =>
          simp [spine, Spine.snoc] at hSame
  | more items comma item ih =>
      cases second with
      | one item' => simp [spine, Spine.snoc] at hSame
      | more items' comma' item' =>
          rcases Spine.snoc_inj hSame with ⟨hItems, rfl, rfl⟩
          rw [ih items' hItems]

theorem tokens_spine
    (shape : Shape χ)
    (items : Separated χ) :
    (Spine.shape shape Leaf.token).tokens items.spine =
      items.tokens shape.tokens := by
  induction items with
  | one item =>
      simp [Spine.shape, spine, Spine.tailTokens, tokens]
  | more items comma item ih =>
      rw [tokens, ← ih]
      simp [Spine.shape, spine, Spine.snoc,
        Spine.tailTokens_append]

theorem fits_spine
    (shape : Shape χ)
    (items : Separated χ)
    (hFits : items.Forall shape.Fits) :
    (Spine.shape shape Leaf.token).Fits items.spine := by
  induction items with
  | one item =>
      refine ⟨hFits, ?_⟩
      intro pair hPair
      cases hPair
  | more items comma item ih =>
      rcases ih hFits.1 with ⟨hHead, hTail⟩
      refine ⟨hHead, ?_⟩
      intro pair hPair
      rcases List.mem_append.mp hPair with hBefore | hLast
      · exact hTail pair hBefore
      · rw [List.mem_singleton.mp hLast]
        exact hFits.2

theorem lastOf_spine
    (items : Separated χ) :
    Spine.lastOf items.spine.head items.spine.tail =
      items.last := by
  cases items with
  | one item => rfl
  | more items comma item =>
      exact Spine.lastOf_append _ _ comma item

end Separated

/- Lists of items are told apart if the items are. -/
theorem unambiguous_separated
    {χ : Type}
    {shape : Shape χ}
    (hItem : shape.Unambiguous)
    (hComma :
      ∀ (tree : χ) (comma : Leaf .comma)
        (rest : List Token),
        shape.Stops tree (comma.token :: rest)) :
    shape.separated.Unambiguous := by
  have hSpine :
      (Spine.shape shape
        (Leaf.token : Leaf .comma → Token)).Unambiguous :=
    Spine.unambiguous_shape hItem hComma
      (fun _ _ => Leaf.token_inj.mp)
  apply hSpine.of_injective Separated.spine
    Separated.spine_inj
  · exact Separated.tokens_spine shape
  · exact Separated.fits_spine shape
  · intro items rest hStops
    constructor
    · rw [Separated.lastOf_spine]
      exact hStops.1
    · rintro comma more rfl
      exact hStops.2 rfl

/- As before, also if there may be no items. -/
theorem unambiguous_listed
    {χ : Type}
    {shape : Shape χ}
    (hItems : shape.separated.Unambiguous)
    (hFirst :
      ∀ (tree : χ) (rest : List Token),
        headKind (shape.tokens tree ++ rest) ≠
          some .rightParen) :
    shape.listed.Unambiguous := by
  have hStarts :
      ∀ (items : Separated χ) (rest : List Token),
        headKind (items.tokens shape.tokens ++ rest) ≠
          some .rightParen := by
    intro items rest
    rcases items.exists_tokens_eq shape.tokens with
      ⟨first, more, hTokens⟩
    rw [hTokens, List.append_assoc]
    exact hFirst first _
  rintro (_ | first) (_ | second) rest others hFits hFits'
    hStops hStops' hSame
  · exact ⟨rfl, hSame⟩
  · have hParen : headKind rest = some .rightParen := hStops
    rw [show rest = _ from hSame] at hParen
    exact absurd hParen (hStarts second others)
  · have hParen : headKind others = some .rightParen := hStops'
    rw [show others = _ from hSame.symm] at hParen
    exact absurd hParen (hStarts first rest)
  · rcases
        hItems first second rest others (hFits first rfl)
          (hFits' second rfl) hStops hStops' hSame with
      ⟨rfl, rfl⟩
    exact ⟨rfl, rfl⟩

end Grammar

end OnePass

------------------------------------------------------------
-- Operators
------------------------------------------------------------

namespace OnePass

namespace Grammar

namespace Expr

variable {layer : Nat}

/- The operands with the operators between them. -/
def spine :
    Expr (layer + 1) →
      Spine (Sign (operator? layer)) (Expr layer)
| .lift operand => ⟨operand, []⟩
| .binary left operator right =>
    left.spine.snoc operator right

theorem spine_inj
    (first second : Expr (layer + 1))
    (hSame : first.spine = second.spine) :
    first = second := by
  induction first using Expr.chain_induction generalizing
      second with
  | lift operand =>
      cases second with
      | lift operand' =>
          rw [spine, spine] at hSame
          cases hSame
          rfl
      | binary left operator right =>
          simp [spine, Spine.snoc] at hSame
  | binary left operator right ih =>
      cases second with
      | lift operand' => simp [spine, Spine.snoc] at hSame
      | binary left' operator' right' =>
          rw [spine, spine] at hSame
          rcases Spine.snoc_inj hSame with ⟨hLeft, rfl, rfl⟩
          rw [ih left' hLeft]

theorem tokens_spine
    (budget : Nat)
    (expr : Expr (layer + 1)) :
    (Spine.shape (exprShape layer budget) Sign.token).tokens
        expr.spine =
      expr.tokens := by
  induction expr using Expr.chain_induction with
  | lift operand =>
      simp [Spine.shape, spine, Spine.tailTokens, tokens,
        exprShape]
  | binary left operator right ih =>
      rw [tokens, ← ih]
      simp [Spine.shape, spine, Spine.snoc,
        Spine.tailTokens_append, exprShape]

theorem fits_spine
    {budget : Nat}
    (expr : Expr (layer + 1))
    (hFits : expr.nesting ≤ budget) :
    (Spine.shape (exprShape layer budget) Sign.token).Fits
      expr.spine := by
  induction expr using Expr.chain_induction with
  | lift operand =>
      rw [spine]
      refine ⟨hFits, ?_⟩
      intro pair hPair
      cases hPair
  | binary left operator right ih =>
      have hParts := Nat.max_le.mp hFits
      rcases ih hParts.1 with ⟨hHead, hTail⟩
      rw [spine]
      refine ⟨hHead, ?_⟩
      intro pair hPair
      rcases List.mem_append.mp hPair with hBefore | hLast
      · exact hTail pair hBefore
      · rw [List.mem_singleton.mp hLast]
        exact hParts.2

theorem stops_spine
    {budget : Nat}
    (expr : Expr (layer + 1))
    (rest : List Token)
    (hStops : expr.Stops rest) :
    (Spine.shape (exprShape layer budget) Sign.token).Stops
      expr.spine rest := by
  have hNone : NoOperator layer rest := by
    cases expr with
    | lift operand => exact hStops.2
    | binary left operator right => exact hStops.2
  constructor
  · cases expr with
    | lift operand =>
        rw [spine]
        exact hStops.1
    | binary left operator right =>
        rw [spine, Spine.snoc, Spine.lastOf_append]
        exact hStops.1
  · rintro operator more rfl
    have hMeans := operator.means
    rw [show operator? layer operator.token.kind = none from
      hNone] at hMeans
    cases hMeans

end Expr

/- A layer is told apart if the layer below it is. -/
theorem unambiguous_layer
    {layer budget : Nat}
    (hOperand : (exprShape layer budget).Unambiguous) :
    (exprShape (layer + 1) budget).Unambiguous := by
  have hSpine :
      (Spine.shape (exprShape layer budget)
        (Sign.token :
          Sign (operator? layer) → Token)).Unambiguous :=
    Spine.unambiguous_shape hOperand
      (fun tree operator rest =>
        tree.stops_of_separates
          (separates_of_operator? rest operator.means))
      (fun _ _ => Sign.token_inj.mp)
  exact
    hSpine.of_injective Expr.spine Expr.spine_inj
      (Expr.tokens_spine budget) Expr.fits_spine
      Expr.stops_spine

end Grammar

end OnePass

------------------------------------------------------------
-- Factors
------------------------------------------------------------

namespace OnePass

namespace Grammar

/- The forms of a factor. -/
inductive FactorForm where
  | negation
  | cast
  | paren
  | call
  | name
  | string
  | number
  | byte
  | bool
deriving DecidableEq

/- The form of a factor. -/
def Expr.form : Expr 0 → FactorForm
| .negation _ _ => .negation
| .cast _ _ _ _ => .cast
| .paren _ _ _ => .paren
| .call _ => .call
| .name _ => .name
| .string _ => .string
| .number _ => .number
| .byte _ _ => .byte
| .bool _ => .bool

/- The form of factor that starts with the given tokens. -/
def factorForm? (tokens : List Token) : Option FactorForm :=
  match headKind tokens, headKind tokens.tail with
  | some .kwNot, _ => some .negation
  | some .leftParen, second =>
      if second.any Kind.isTypeName then
        some .cast
      else
        some .paren
  | some .identifier, second =>
      if second = some .leftParen then
        some .call
      else
        some .name
  | some .string, _ => some .string
  | some .number, second =>
      if second = some .byteSuffix then
        some .byte
      else
        some .number
  | some .kwTrue, _ | some .kwFalse, _ => some .bool
  | _, _ => none

/- The first two tokens tell the form of a factor. -/
theorem factorForm?_tokens
    (tree : Expr 0)
    (rest : List Token)
    (hStops : tree.Stops rest) :
    factorForm? (tree.tokens ++ rest) = some tree.form := by
  cases tree with
  | negation word operand => rfl
  | cast left target right operand =>
      have hType : target.token.kind.isTypeName = true := by
        rw [isTypeName_eq, target.means]
        rfl
      change (if target.token.kind.isTypeName then _ else _) = _
      rw [if_pos hType]
      rfl
  | paren left inner right =>
      rcases inner.tokens_eq_cons with
        ⟨first, more, hInner, hStarts⟩
      have hType : ¬ first.kind.isTypeName = true := by
        rw [isTypeName_of_startsFactor hStarts]
        exact Bool.false_ne_true
      rw [Expr.tokens, hInner]
      change (if first.kind.isTypeName then _ else _) = _
      rw [if_neg hType]
      rfl
  | call parts =>
      cases parts with
      | bare callee left right => rfl
      | applied callee left arguments right => rfl
  | name leaf =>
      have hRest : ¬ headKind rest = some .leftParen := hStops
      exact if_neg hRest
  | string leaf => rfl
  | number digits =>
      have hRest : ¬ headKind rest = some .byteSuffix := hStops
      exact if_neg hRest
  | byte digits suffix => rfl
  | bool word =>
      rcases word with ⟨⟨kind, text, span⟩, truth, hTruth⟩
      cases kind with
      | kwTrue | kwFalse => rfl
      | _ => cases hTruth

/- Calls are told apart if their arguments are. -/
theorem unambiguous_call
    {budget : Nat}
    (hExpression : (exprShape topLayer budget).Unambiguous) :
    (callShape budget).Unambiguous := by
  have hItems : (exprShape topLayer budget).separated.Unambiguous :=
    unambiguous_separated hExpression
      (fun tree comma rest =>
        tree.stops_of_separates
          (comma.separates _ _ (by decide)))
  have hArguments : (exprShape topLayer budget).listed.Unambiguous :=
    unambiguous_listed hItems
      (fun tree rest => tree.headKind_tokens_ne rest rfl)
  have hStops :
      ∀ (arguments : Option (Separated Expression))
        (right : Leaf .rightParen) (rest : List Token),
        (exprShape topLayer budget).listed.Stops arguments
          (right.token :: rest) := by
    intro arguments right rest
    cases arguments with
    | none => rfl
    | some present =>
        refine ⟨?_, by simp [Leaf.token]⟩
        exact
          present.last.stops_of_separates
            (right.separates _ _ (by decide))
  intro first second rest others hFits hFits' _ _ hSame
  rcases exists_eq_callOf first with
    ⟨callee, left, arguments, right, rfl⟩
  rcases exists_eq_callOf second with
    ⟨callee', left', arguments', right', rfl⟩
  simp only [callShape, tokens_callOf, List.cons_append,
    List.append_assoc, List.nil_append, List.cons.injEq,
    Leaf.token_inj] at hSame
  rcases hSame with ⟨rfl, rfl, hSame⟩
  rcases
      hArguments _ _ _ _ (nesting_callOf_le_iff.mp hFits)
        (nesting_callOf_le_iff.mp hFits')
        (hStops arguments right rest)
        (hStops arguments' right' others) hSame with
    ⟨rfl, hRest⟩
  simp only [List.cons.injEq, Leaf.token_inj] at hRest
  rcases hRest with ⟨rfl, rfl⟩
  exact ⟨rfl, rfl⟩

section Pairs

variable {budget : Nat}

theorem tellsApart_negation
    (hFactor : (exprShape 0 budget).Unambiguous)
    {word word' : Leaf .kwNot}
    {operand operand' : Expr 0} :
    (exprShape 0 (budget + 1)).TellsApart
      (.negation word operand) (.negation word' operand') := by
  intro rest others hFits hFits' hStops hStops' hSame
  simp only [exprShape, Expr.tokens, List.cons_append,
    List.cons.injEq, Leaf.token_inj] at hSame
  rcases hSame with ⟨rfl, hSame⟩
  rcases
      hFactor operand operand' rest others
        (Nat.le_of_succ_le_succ hFits)
        (Nat.le_of_succ_le_succ hFits') hStops hStops'
        hSame with
    ⟨rfl, rfl⟩
  exact ⟨rfl, rfl⟩

theorem tellsApart_cast
    (hFactor : (exprShape 0 budget).Unambiguous)
    {left left' : Leaf .leftParen}
    {target target' : Sign Kind.valueType?}
    {right right' : Leaf .rightParen}
    {operand operand' : Expr 0} :
    (exprShape 0 (budget + 1)).TellsApart
      (.cast left target right operand)
      (.cast left' target' right' operand') := by
  intro rest others hFits hFits' hStops hStops' hSame
  simp only [exprShape, Expr.tokens, List.cons_append,
    List.cons.injEq, Leaf.token_inj, Sign.token_inj] at hSame
  rcases hSame with ⟨rfl, rfl, rfl, hSame⟩
  rcases
      hFactor operand operand' rest others
        (Nat.le_of_succ_le_succ hFits)
        (Nat.le_of_succ_le_succ hFits') hStops hStops'
        hSame with
    ⟨rfl, rfl⟩
  exact ⟨rfl, rfl⟩

theorem tellsApart_paren
    (hExpression : (exprShape topLayer budget).Unambiguous)
    {left left' : Leaf .leftParen}
    {inner inner' : Expression}
    {right right' : Leaf .rightParen} :
    (exprShape 0 (budget + 1)).TellsApart
      (.paren left inner right)
      (.paren left' inner' right') := by
  intro rest others hFits hFits' _ _ hSame
  simp only [exprShape, Expr.tokens, List.cons_append,
    List.append_assoc, List.nil_append, List.cons.injEq,
    Leaf.token_inj] at hSame
  rcases hSame with ⟨rfl, hSame⟩
  rcases
      hExpression inner inner' _ _
        (Nat.le_of_succ_le_succ hFits)
        (Nat.le_of_succ_le_succ hFits')
        (inner.stops_of_separates
          (right.separates _ _ (by decide)))
        (inner'.stops_of_separates
          (right'.separates _ _ (by decide)))
        hSame with
    ⟨rfl, hRest⟩
  simp only [List.cons.injEq, Leaf.token_inj] at hRest
  rcases hRest with ⟨rfl, rfl⟩
  exact ⟨rfl, rfl⟩

theorem tellsApart_callFactor
    (hExpression : (exprShape topLayer budget).Unambiguous)
    {parts parts' : Call} :
    (exprShape 0 (budget + 1)).TellsApart
      (.call parts) (.call parts') := by
  intro rest others hFits hFits' _ _ hSame
  rcases
      unambiguous_call hExpression parts parts' rest others
        (Nat.le_of_succ_le_succ hFits)
        (Nat.le_of_succ_le_succ hFits') trivial trivial
        hSame with
    ⟨rfl, rfl⟩
  exact ⟨rfl, rfl⟩

end Pairs

/- Factors are told apart if what is inside them is. -/
theorem unambiguous_factor_step
    {budget : Nat}
    (hFactor : (exprShape 0 budget).Unambiguous)
    (hExpression : (exprShape topLayer budget).Unambiguous) :
    (exprShape 0 (budget + 1)).Unambiguous := by
  intro first second rest others hFits hFits' hStops hStops'
    hSame
  have hForm : first.form = second.form := by
    have hFirst := factorForm?_tokens first rest hStops
    have hSecond := factorForm?_tokens second others hStops'
    have hTokens :
        first.tokens ++ rest = second.tokens ++ others :=
      hSame
    rw [hTokens, hSecond] at hFirst
    exact (Option.some.inj hFirst).symm
  cases first with
  | negation word operand =>
      cases second with
      | negation word' operand' =>
          exact
            tellsApart_negation hFactor rest others hFits
              hFits' hStops hStops' hSame
      | _ => cases hForm
  | cast left target right operand =>
      cases second with
      | cast left' target' right' operand' =>
          exact
            tellsApart_cast hFactor rest others hFits hFits'
              hStops hStops' hSame
      | _ => cases hForm
  | paren left inner right =>
      cases second with
      | paren left' inner' right' =>
          exact
            tellsApart_paren hExpression rest others hFits
              hFits' hStops hStops' hSame
      | _ => cases hForm
  | call parts =>
      cases second with
      | call parts' =>
          exact
            tellsApart_callFactor hExpression rest others
              hFits hFits' hStops hStops' hSame
      | _ => cases hForm
  | name leaf =>
      cases second with
      | name leaf' =>
          simp only [exprShape, Expr.tokens,
            List.cons_append, List.nil_append,
            List.cons.injEq, Leaf.token_inj] at hSame
          rcases hSame with ⟨rfl, rfl⟩
          exact ⟨rfl, rfl⟩
      | _ => cases hForm
  | string leaf =>
      cases second with
      | string leaf' =>
          simp only [exprShape, Expr.tokens,
            List.cons_append, List.nil_append,
            List.cons.injEq, Leaf.token_inj] at hSame
          rcases hSame with ⟨rfl, rfl⟩
          exact ⟨rfl, rfl⟩
      | _ => cases hForm
  | number digits =>
      cases second with
      | number digits' =>
          simp only [exprShape, Expr.tokens,
            List.cons_append, List.nil_append,
            List.cons.injEq, Leaf.token_inj] at hSame
          rcases hSame with ⟨rfl, rfl⟩
          exact ⟨rfl, rfl⟩
      | _ => cases hForm
  | byte digits suffix =>
      cases second with
      | byte digits' suffix' =>
          simp only [exprShape, Expr.tokens,
            List.cons_append, List.nil_append,
            List.cons.injEq, Leaf.token_inj] at hSame
          rcases hSame with ⟨rfl, rfl, rfl⟩
          exact ⟨rfl, rfl⟩
      | _ => cases hForm
  | bool word =>
      cases second with
      | bool word' =>
          simp only [exprShape, Expr.tokens,
            List.cons_append, List.nil_append,
            List.cons.injEq, Sign.token_inj] at hSame
          rcases hSame with ⟨rfl, rfl⟩
          exact ⟨rfl, rfl⟩
      | _ => cases hForm

/- Every layer is told apart if the factors are. -/
theorem unambiguous_layers
    {budget : Nat}
    (hFactor : (exprShape 0 budget).Unambiguous)
    (layer : Nat) :
    (exprShape layer budget).Unambiguous := by
  induction layer with
  | zero => exact hFactor
  | succ layer ih => exact unambiguous_layer ih

theorem unambiguous_factor
    (budget : Nat) :
    (exprShape 0 budget).Unambiguous := by
  induction budget with
  | zero =>
      intro first second rest others hFits
      have hPositive := first.nesting_pos
      have hZero : first.nesting ≤ 0 := hFits
      omega
  | succ budget ih =>
      exact
        unambiguous_factor_step ih (unambiguous_layers ih _)

theorem unambiguous_expr
    (layer budget : Nat) :
    (exprShape layer budget).Unambiguous :=
  unambiguous_layers (unambiguous_factor budget) layer

end Grammar

end OnePass

------------------------------------------------------------
-- Statements
------------------------------------------------------------

namespace OnePass

namespace Grammar

/- The forms of a statement that its first tokens tell. -/
inductive StmtForm where
  | block
  | declaration
  | assignment
  | call
  | return
  | conditional
  | loop
  | jump
deriving DecidableEq

/- The form of a statement. -/
def Stmt.form : Stmt → StmtForm
| .block _ _ _ => .block
| .declaration _ _ _ => .declaration
| .assignment _ _ _ _ => .assignment
| .call _ _ => .call
| .returnVoid _ _ => .return
| .returnValue _ _ _ => .return
| .ifThen _ _ _ => .conditional
| .ifElse _ _ _ _ _ => .conditional
| .whileLoop _ _ _ => .loop
| .jump _ _ => .jump

/- The form of statement that starts with the given tokens. -/
def stmtForm? (tokens : List Token) : Option StmtForm :=
  match headKind tokens, headKind tokens.tail with
  | some .leftBrace, _ => some .block
  | some .identifier, some .assign => some .assignment
  | some .identifier, _ => some .call
  | some .kwReturn, _ => some .return
  | some .kwIf, _ => some .conditional
  | some .kwWhile, _ => some .loop
  | some .kwBreak, _ => some .jump
  | some .kwContinue, _ => some .jump
  | _, _ => some .declaration

/- The first two tokens tell the form of a statement. -/
theorem stmtForm?_tokens
    (tree : Stmt)
    (rest : List Token) :
    stmtForm? (tree.tokens ++ rest) = some tree.form := by
  cases tree with
  | declaration declarator initializer stop =>
      rcases declarator.tokens_eq_cons with
        ⟨⟨kind, text, span⟩, more, hTokens, -, hKind⟩
      rw [Stmt.tokens, hTokens]
      cases kind with
      | kwConst | kwInt | kwByte | kwBool => rfl
      | _ =>
          rcases hKind with hConst | hType
          · cases hConst
          · cases hType
  | call parts stop =>
      cases parts with
      | bare callee left right => rfl
      | applied callee left arguments right => rfl
  | jump word stop =>
      rcases word with ⟨⟨kind, text, span⟩, meaning, hMeans⟩
      cases kind with
      | kwBreak | kwContinue => rfl
      | _ => cases hMeans
  | _ => rfl

/- An expression is told apart from a token that closes it. -/
theorem Expr.eq_of_closed
    {budget : Nat}
    {kind : Kind}
    (hKind :
      operandLayer? kind = none ∧ kind ≠ .leftParen ∧
        kind ≠ .byteSuffix)
    {value value' : Expression}
    {stop stop' : Leaf kind}
    {rest others : List Token}
    (hFits : value.nesting ≤ budget)
    (hFits' : value'.nesting ≤ budget)
    (hSame :
      value.tokens ++ stop.token :: rest =
        value'.tokens ++ stop'.token :: others) :
    value = value' ∧ stop = stop' ∧ rest = others := by
  rcases
      unambiguous_expr topLayer budget value value' _ _ hFits
        hFits'
        (value.stops_of_separates
          (stop.separates _ _ hKind))
        (value'.stops_of_separates
          (stop'.separates _ _ hKind))
        hSame with
    ⟨rfl, hRest⟩
  simp only [List.cons.injEq, Leaf.token_inj] at hRest
  exact ⟨rfl, hRest⟩

/- Declarations are told apart by their first tokens. -/
theorem unambiguous_declarator :
    declaratorShape.Unambiguous := by
  intro first second rest others _ _ _ _ hSame
  rcases first with ⟨_ | word, ty, name⟩
  · rcases second with ⟨_ | word', ty', name'⟩
    · simp only [declaratorShape, Declarator.tokens,
        Option.toList_none, List.map_nil, List.nil_append,
        List.cons_append, List.cons.injEq, Sign.token_inj,
        Leaf.token_inj] at hSame
      rcases hSame with ⟨rfl, rfl, rfl⟩
      exact ⟨rfl, rfl⟩
    · have hMeans := ty.means
      rw [(List.cons.inj hSame).1] at hMeans
      cases hMeans
  · rcases second with ⟨_ | word', ty', name'⟩
    · have hMeans := ty'.means
      rw [← (List.cons.inj hSame).1] at hMeans
      cases hMeans
    · simp only [declaratorShape, Declarator.tokens,
        Option.toList_some, List.map_cons, List.map_nil,
        List.nil_append, List.cons_append, List.cons.injEq,
        Sign.token_inj, Leaf.token_inj] at hSame
      rcases hSame with ⟨rfl, rfl, rfl, rfl⟩
      exact ⟨rfl, rfl⟩

/- First values are told apart by the sign before them. -/
theorem unambiguous_initializer
    (budget : Nat) :
    (initializerShape budget).Unambiguous := by
  rintro (_ | ⟨sign, value⟩) (_ | ⟨sign', value'⟩) rest others
    hFits hFits' hStops hStops' hSame
  · exact ⟨rfl, hSame⟩
  · refine absurd ?_ hStops
    rw [show rest = _ from hSame]
    rfl
  · refine absurd ?_ hStops'
    rw [show others = _ from hSame.symm]
    rfl
  · simp only [initializerShape, Option.elim_some,
      Initializer.tokens, List.cons_append, List.cons.injEq,
      Leaf.token_inj] at hSame
    rcases hSame with ⟨rfl, hSame⟩
    rcases
        unambiguous_expr topLayer budget value value' rest
          others hFits hFits' hStops hStops' hSame with
      ⟨rfl, rfl⟩
    exact ⟨rfl, rfl⟩

theorem unambiguous_condition
    (budget : Nat) :
    (conditionShape budget).Unambiguous := by
  rintro ⟨left, value, right⟩ ⟨left', value', right'⟩ rest
    others hFits hFits' - - hSame
  simp only [conditionShape, Condition.tokens,
    List.cons_append, List.append_assoc, List.nil_append,
    List.cons.injEq, Leaf.token_inj] at hSame
  rcases hSame with ⟨rfl, hSame⟩
  rcases Expr.eq_of_closed (by decide) hFits hFits' hSame with
    ⟨rfl, rfl, rfl⟩
  exact ⟨rfl, rfl⟩

/- Lists of statements are told apart if statements are. -/
theorem unambiguous_stmts
    {budget : Nat}
    (hStatement : (stmtShape budget).Unambiguous) :
    (stmtsShape budget).Unambiguous := by
  intro first second rest others hFits hFits' hEnds hEnds'
    hSame
  simp only [stmtsShape] at hFits hFits' hEnds hEnds' hSame
  induction first using Stmts.list_induction generalizing
      second with
  | one tree =>
      cases second with
      | one tree' =>
          rcases
              hStatement tree tree' rest others hFits hFits'
                (fun _ => hEnds.not_else)
                (fun _ => hEnds'.not_else) hSame with
            ⟨rfl, rfl⟩
          exact ⟨rfl, rfl⟩
      | more tree' trees' =>
          have hParts := Nat.max_le.mp hFits'.1
          simp only [Stmts.tokens, List.append_assoc] at hSame
          have hRest :=
            (hStatement tree tree' rest _ hFits
              ⟨hParts.1, hFits'.2.1⟩
              (fun _ => hEnds.not_else)
              (fun _ => trees'.headKind_tokens_ne _ rfl)
              hSame).2
          rw [hRest] at hEnds
          exact absurd hEnds (trees'.not_listEnds_tokens _)
  | more tree trees ih =>
      have hParts := Nat.max_le.mp hFits.1
      cases second with
      | one tree' =>
          simp only [Stmts.tokens, List.append_assoc] at hSame
          have hRest :=
            (hStatement tree tree' _ others
              ⟨hParts.1, hFits.2.1⟩ hFits'
              (fun _ => trees.headKind_tokens_ne _ rfl)
              (fun _ => hEnds'.not_else) hSame).2
          rw [← hRest] at hEnds'
          exact absurd hEnds' (trees.not_listEnds_tokens _)
      | more tree' trees' =>
          have hParts' := Nat.max_le.mp hFits'.1
          simp only [Stmts.tokens, List.append_assoc] at hSame
          rcases
              hStatement tree tree' _ _
                ⟨hParts.1, hFits.2.1⟩
                ⟨hParts'.1, hFits'.2.1⟩
                (fun _ => trees.headKind_tokens_ne _ rfl)
                (fun _ => trees'.headKind_tokens_ne _ rfl)
                hSame with
            ⟨rfl, hMore⟩
          rcases
              ih trees' ⟨hParts.2, hFits.2.2⟩
                ⟨hParts'.2, hFits'.2.2⟩ hMore with
            ⟨rfl, rfl⟩
          exact ⟨rfl, rfl⟩

/- No `else` follows the branch of an `if` that has one. -/
theorem Stmt.stops_of_closed
    {budget : Nat}
    {tree : Stmt}
    (hClosed : tree.endsOpen = false)
    (rest : List Token) :
    (stmtShape budget).Stops tree rest := by
  intro hOpen
  rw [hClosed] at hOpen
  cases hOpen

/-
  An `else` after the branch of an `if` is the one that this
  `if` has.
-/
theorem Stmt.branch_ne_of_else
    {budget : Nat}
    (hStatement : (stmtShape budget).Unambiguous)
    {branch branch' : Stmt}
    {other : Leaf .kwElse}
    {rest more : List Token}
    (hFits : (stmtShape budget).Fits branch)
    (hFits' : (stmtShape budget).Fits branch')
    (hRest : headKind rest ≠ some .kwElse)
    (hClosed : branch'.endsOpen = false) :
    branch.tokens ++ rest ≠
      branch'.tokens ++ other.token :: more := by
  intro hSame
  have hElse :=
    (hStatement branch branch' rest _ hFits hFits'
      (fun _ => hRest) (stops_of_closed hClosed _) hSame).2
  rw [hElse] at hRest
  exact hRest rfl

/-
  A word and the condition after it are told apart from what
  follows them.
-/
theorem Condition.eq_of_headed
    {budget : Nat}
    {kind : Kind}
    {word word' : Leaf kind}
    {condition condition' : Condition}
    {rest others : List Token}
    (hFits : condition.value.nesting ≤ budget)
    (hFits' : condition'.value.nesting ≤ budget)
    (hSame :
      word.token :: (condition.tokens ++ rest) =
        word'.token :: (condition'.tokens ++ others)) :
    word = word' ∧ condition = condition' ∧ rest = others := by
  simp only [List.cons.injEq, Leaf.token_inj] at hSame
  rcases hSame with ⟨rfl, hSame⟩
  rcases
      unambiguous_condition budget condition condition' rest
        others hFits hFits' trivial trivial hSame with
    ⟨rfl, rfl⟩
  exact ⟨rfl, rfl, rfl⟩

section Pairs

variable {budget : Nat}

theorem tellsApart_block
    (hStatement : (stmtShape budget).Unambiguous)
    {left left' : Leaf .leftBrace}
    {body body' : Stmts}
    {right right' : Leaf .rightBrace} :
    (stmtShape (budget + 1)).TellsApart
      (.block left body right) (.block left' body' right') := by
  intro rest others hFits hFits' _ _ hSame
  simp only [stmtShape, Stmt.tokens, List.cons_append,
    List.append_assoc, List.nil_append, List.cons.injEq,
    Leaf.token_inj] at hSame
  rcases hSame with ⟨rfl, hSame⟩
  rcases
      unambiguous_stmts hStatement body body' _ _
        ⟨Nat.le_of_succ_le_succ hFits.1, hFits.2⟩
        ⟨Nat.le_of_succ_le_succ hFits'.1, hFits'.2⟩
        (listEnds_rightBrace right rest)
        (listEnds_rightBrace right' others) hSame with
    ⟨rfl, hRest⟩
  simp only [List.cons.injEq, Leaf.token_inj] at hRest
  rcases hRest with ⟨rfl, rfl⟩
  exact ⟨rfl, rfl⟩

theorem tellsApart_declaration
    {declarator declarator' : Declarator}
    {initializer initializer' : Option Initializer}
    {stop stop' : Leaf .semicolon} :
    (stmtShape (budget + 1)).TellsApart
      (.declaration declarator initializer stop)
      (.declaration declarator' initializer' stop') := by
  intro rest others hFits hFits' _ _ hSame
  simp only [stmtShape, Stmt.tokens, List.append_assoc,
    List.cons_append, List.nil_append] at hSame
  rcases
      unambiguous_declarator declarator declarator' _ _
        trivial trivial trivial trivial hSame with
    ⟨rfl, hMore⟩
  rcases
      unambiguous_initializer budget initializer initializer'
        _ _ (Nat.le_of_succ_le_succ hFits.1)
        (Nat.le_of_succ_le_succ hFits'.1)
        (initializer_stops initializer stop rest)
        (initializer_stops initializer' stop' others)
        hMore with
    ⟨rfl, hRest⟩
  simp only [List.cons.injEq, Leaf.token_inj] at hRest
  rcases hRest with ⟨rfl, rfl⟩
  exact ⟨rfl, rfl⟩

theorem tellsApart_assignment
    {name name' : Leaf .identifier}
    {sign sign' : Leaf .assign}
    {value value' : Expression}
    {stop stop' : Leaf .semicolon} :
    (stmtShape (budget + 1)).TellsApart
      (.assignment name sign value stop)
      (.assignment name' sign' value' stop') := by
  intro rest others hFits hFits' _ _ hSame
  simp only [stmtShape, Stmt.tokens, List.cons_append,
    List.append_assoc, List.nil_append, List.cons.injEq,
    Leaf.token_inj] at hSame
  rcases hSame with ⟨rfl, rfl, hSame⟩
  rcases
      Expr.eq_of_closed (by decide)
        (Nat.le_of_succ_le_succ hFits.1)
        (Nat.le_of_succ_le_succ hFits'.1) hSame with
    ⟨rfl, rfl, rfl⟩
  exact ⟨rfl, rfl⟩

theorem tellsApart_call
    {parts parts' : Call}
    {stop stop' : Leaf .semicolon} :
    (stmtShape (budget + 1)).TellsApart
      (.call parts stop) (.call parts' stop') := by
  intro rest others hFits hFits' _ _ hSame
  simp only [stmtShape, Stmt.tokens, List.append_assoc,
    List.cons_append, List.nil_append] at hSame
  rcases
      unambiguous_call (unambiguous_expr topLayer budget)
        parts parts' _ _ (Nat.le_of_succ_le_succ hFits.1)
        (Nat.le_of_succ_le_succ hFits'.1) trivial trivial
        hSame with
    ⟨rfl, hRest⟩
  simp only [List.cons.injEq, Leaf.token_inj] at hRest
  rcases hRest with ⟨rfl, rfl⟩
  exact ⟨rfl, rfl⟩

/- A statement of two tokens is those tokens. -/
theorem tellsApart_returnVoid
    {word word' : Leaf .kwReturn}
    {stop stop' : Leaf .semicolon} :
    (stmtShape budget).TellsApart
      (.returnVoid word stop) (.returnVoid word' stop') := by
  intro rest others _ _ _ _ hSame
  simp only [stmtShape, Stmt.tokens, List.cons_append,
    List.nil_append, List.cons.injEq, Leaf.token_inj] at hSame
  obtain ⟨rfl, rfl, rfl⟩ := hSame
  exact ⟨rfl, rfl⟩

/- A value does not start with a semicolon. -/
theorem tellsApart_return
    {word word' : Leaf .kwReturn}
    {value' : Expression}
    {stop stop' : Leaf .semicolon} :
    (stmtShape budget).TellsApart
      (.returnVoid word stop)
      (.returnValue word' value' stop') := by
  intro rest others _ _ _ _ hSame
  simp only [stmtShape, Stmt.tokens, List.cons_append,
    List.append_assoc, List.nil_append, List.cons.injEq]
    at hSame
  have hHead := congrArg headKind hSame.2.symm
  exact absurd hHead (value'.headKind_tokens_ne _ rfl)

theorem tellsApart_returnValue
    {word word' : Leaf .kwReturn}
    {value value' : Expression}
    {stop stop' : Leaf .semicolon} :
    (stmtShape (budget + 1)).TellsApart
      (.returnValue word value stop)
      (.returnValue word' value' stop') := by
  intro rest others hFits hFits' _ _ hSame
  simp only [stmtShape, Stmt.tokens, List.cons_append,
    List.append_assoc, List.nil_append, List.cons.injEq,
    Leaf.token_inj] at hSame
  rcases hSame with ⟨rfl, hSame⟩
  rcases
      Expr.eq_of_closed (by decide)
        (Nat.le_of_succ_le_succ hFits.1)
        (Nat.le_of_succ_le_succ hFits'.1) hSame with
    ⟨rfl, rfl, rfl⟩
  exact ⟨rfl, rfl⟩

theorem tellsApart_ifThen
    (hStatement : (stmtShape budget).Unambiguous)
    {word word' : Leaf .kwIf}
    {condition condition' : Condition}
    {branch branch' : Stmt} :
    (stmtShape (budget + 1)).TellsApart
      (.ifThen word condition branch)
      (.ifThen word' condition' branch') := by
  intro rest others hFits hFits' hStops hStops' hSame
  have hParts :=
    Nat.max_le.mp (Nat.le_of_succ_le_succ hFits.1)
  have hParts' :=
    Nat.max_le.mp (Nat.le_of_succ_le_succ hFits'.1)
  simp only [stmtShape, Stmt.tokens, List.cons_append,
    List.append_assoc] at hSame
  rcases
      Condition.eq_of_headed hParts.1 hParts'.1 hSame with
    ⟨rfl, rfl, hMore⟩
  rcases
      hStatement branch branch' rest others
        ⟨hParts.2, hFits.2⟩ ⟨hParts'.2, hFits'.2⟩
        (fun _ => hStops rfl) (fun _ => hStops' rfl)
        hMore with
    ⟨rfl, rfl⟩
  exact ⟨rfl, rfl⟩

/- The `else` after a branch belongs to its own `if`. -/
theorem tellsApart_if
    (hStatement : (stmtShape budget).Unambiguous)
    {word word' : Leaf .kwIf}
    {condition condition' : Condition}
    {branch branch' otherwise' : Stmt}
    {other' : Leaf .kwElse} :
    (stmtShape (budget + 1)).TellsApart
      (.ifThen word condition branch)
      (.ifElse word' condition' branch' other'
        otherwise') := by
  intro rest others hFits hFits' hStops _ hSame
  have hParts :=
    Nat.max_le.mp (Nat.le_of_succ_le_succ hFits.1)
  have hParts' :=
    Nat.max_le.mp (Nat.le_of_succ_le_succ hFits'.1)
  have hBranches' := Nat.max_le.mp hParts'.2
  simp only [stmtShape, Stmt.tokens, List.cons_append,
    List.append_assoc] at hSame
  have hBoth :=
    (Condition.eq_of_headed hParts.1 hParts'.1 hSame).2.2
  exact
    absurd hBoth
      (Stmt.branch_ne_of_else hStatement
        ⟨hParts.2, hFits.2⟩ ⟨hBranches'.1, hFits'.2.2.1⟩
        (hStops rfl) hFits'.2.1)

theorem tellsApart_ifElse
    (hStatement : (stmtShape budget).Unambiguous)
    {word word' : Leaf .kwIf}
    {condition condition' : Condition}
    {branch branch' otherwise otherwise' : Stmt}
    {other other' : Leaf .kwElse} :
    (stmtShape (budget + 1)).TellsApart
      (.ifElse word condition branch other otherwise)
      (.ifElse word' condition' branch' other'
        otherwise') := by
  intro rest others hFits hFits' hStops hStops' hSame
  have hParts :=
    Nat.max_le.mp (Nat.le_of_succ_le_succ hFits.1)
  have hParts' :=
    Nat.max_le.mp (Nat.le_of_succ_le_succ hFits'.1)
  have hBranches := Nat.max_le.mp hParts.2
  have hBranches' := Nat.max_le.mp hParts'.2
  simp only [stmtShape, Stmt.tokens, List.cons_append,
    List.append_assoc] at hSame
  rcases
      Condition.eq_of_headed hParts.1 hParts'.1 hSame with
    ⟨rfl, rfl, hMore⟩
  rcases
      hStatement branch branch' _ _
        ⟨hBranches.1, hFits.2.2.1⟩
        ⟨hBranches'.1, hFits'.2.2.1⟩
        (Stmt.stops_of_closed hFits.2.1 _)
        (Stmt.stops_of_closed hFits'.2.1 _) hMore with
    ⟨rfl, hLast⟩
  simp only [List.cons.injEq, Leaf.token_inj] at hLast
  rcases hLast with ⟨rfl, hLast⟩
  rcases
      hStatement otherwise otherwise' rest others
        ⟨hBranches.2, hFits.2.2.2⟩
        ⟨hBranches'.2, hFits'.2.2.2⟩ hStops hStops'
        hLast with
    ⟨rfl, rfl⟩
  exact ⟨rfl, rfl⟩

theorem tellsApart_whileLoop
    (hStatement : (stmtShape budget).Unambiguous)
    {word word' : Leaf .kwWhile}
    {condition condition' : Condition}
    {body body' : Stmt} :
    (stmtShape (budget + 1)).TellsApart
      (.whileLoop word condition body)
      (.whileLoop word' condition' body') := by
  intro rest others hFits hFits' hStops hStops' hSame
  have hParts :=
    Nat.max_le.mp (Nat.le_of_succ_le_succ hFits.1)
  have hParts' :=
    Nat.max_le.mp (Nat.le_of_succ_le_succ hFits'.1)
  simp only [stmtShape, Stmt.tokens, List.cons_append,
    List.append_assoc] at hSame
  rcases
      Condition.eq_of_headed hParts.1 hParts'.1 hSame with
    ⟨rfl, rfl, hMore⟩
  rcases
      hStatement body body' rest others ⟨hParts.2, hFits.2⟩
        ⟨hParts'.2, hFits'.2⟩ hStops hStops' hMore with
    ⟨rfl, rfl⟩
  exact ⟨rfl, rfl⟩

theorem tellsApart_jump
    {word word' : Sign jump?}
    {stop stop' : Leaf .semicolon} :
    (stmtShape budget).TellsApart
      (.jump word stop) (.jump word' stop') := by
  intro rest others _ _ _ _ hSame
  simp only [stmtShape, Stmt.tokens, List.cons_append,
    List.nil_append, List.cons.injEq, Sign.token_inj,
    Leaf.token_inj] at hSame
  obtain ⟨rfl, rfl, rfl⟩ := hSame
  exact ⟨rfl, rfl⟩

end Pairs

/- Statements are told apart if what is inside them is. -/
theorem unambiguous_stmt_step
    {budget : Nat}
    (hStatement : (stmtShape budget).Unambiguous) :
    (stmtShape (budget + 1)).Unambiguous := by
  intro first second rest others hFits hFits' hStops hStops'
    hSame
  have hForm : first.form = second.form := by
    have hFirst := stmtForm?_tokens first rest
    have hTokens :
        first.tokens ++ rest = second.tokens ++ others :=
      hSame
    rw [hTokens, stmtForm?_tokens second others] at hFirst
    exact (Option.some.inj hFirst).symm
  -- Only two trees of one form are left to be compared.
  have hApart :
      (stmtShape (budget + 1)).TellsApart first second := by
    clear hFits hFits' hStops hStops' hSame
    cases first with
    | block left body right =>
        cases second with
        | block left' body' right' =>
            exact tellsApart_block hStatement
        | _ => cases hForm
    | declaration declarator initializer stop =>
        cases second with
        | declaration declarator' initializer' stop' =>
            exact tellsApart_declaration
        | _ => cases hForm
    | assignment name sign value stop =>
        cases second with
        | assignment name' sign' value' stop' =>
            exact tellsApart_assignment
        | _ => cases hForm
    | call parts stop =>
        cases second with
        | call parts' stop' => exact tellsApart_call
        | _ => cases hForm
    | returnVoid word stop =>
        cases second with
        | returnVoid word' stop' =>
            exact tellsApart_returnVoid
        | returnValue word' value' stop' =>
            exact tellsApart_return
        | _ => cases hForm
    | returnValue word value stop =>
        cases second with
        | returnVoid word' stop' =>
            exact tellsApart_return.symm
        | returnValue word' value' stop' =>
            exact tellsApart_returnValue
        | _ => cases hForm
    | ifThen word condition branch =>
        cases second with
        | ifThen word' condition' branch' =>
            exact tellsApart_ifThen hStatement
        | ifElse word' condition' branch' other' otherwise' =>
            exact tellsApart_if hStatement
        | _ => cases hForm
    | ifElse word condition branch other otherwise =>
        cases second with
        | ifThen word' condition' branch' =>
            exact (tellsApart_if hStatement).symm
        | ifElse word' condition' branch' other' otherwise' =>
            exact tellsApart_ifElse hStatement
        | _ => cases hForm
    | whileLoop word condition body =>
        cases second with
        | whileLoop word' condition' body' =>
            exact tellsApart_whileLoop hStatement
        | _ => cases hForm
    | jump word stop =>
        cases second with
        | jump word' stop' => exact tellsApart_jump
        | _ => cases hForm
  exact
    hApart rest others hFits hFits' hStops hStops' hSame

theorem unambiguous_stmt
    (budget : Nat) :
    (stmtShape budget).Unambiguous := by
  induction budget with
  | zero =>
      intro first second rest others hFits
      have hPositive := first.nesting_pos
      have hZero : first.nesting ≤ 0 := hFits.1
      omega
  | succ budget ih => exact unambiguous_stmt_step ih

end Grammar

end OnePass

------------------------------------------------------------
-- Programs
------------------------------------------------------------

namespace OnePass

namespace Grammar

/-
  The header of a function is determined by its tokens, and
  so is where its body starts.
-/
theorem Function.header_eq_of_tokens_eq
    {first second : Function}
    {rest others : List Token}
    (hSame :
      first.tokens ++ rest = second.tokens ++ others) :
    second =
        { first with
          body := second.body
          stop := second.stop } ∧
      first.body.tokens ++ first.stop.token :: rest =
        second.body.tokens ++
          second.stop.token :: others := by
  have hFormals :
      declaratorShape.listed.Unambiguous :=
    unambiguous_listed
      (unambiguous_separated unambiguous_declarator
        (fun _ _ _ => trivial))
      (fun tree rest => tree.headKind_tokens_ne rest rfl)
  rcases first with
    ⟨returns, name, left, formals, right, start, body, stop⟩
  rcases second with
    ⟨returns', name', left', formals', right', start', body',
      stop'⟩
  simp only [Function.tokens, List.cons_append,
    List.append_assoc, List.nil_append, List.cons.injEq,
    Leaf.token_inj, Sign.token_inj] at hSame
  rcases hSame with ⟨rfl, rfl, rfl, hSame⟩
  rcases
      hFormals formals formals' _ _ (fits_formals formals)
        (fits_formals formals')
        (stops_formals formals right _)
        (stops_formals formals' right' _) hSame with
    ⟨rfl, hMore⟩
  simp only [List.cons.injEq, Leaf.token_inj] at hMore
  rcases hMore with ⟨rfl, rfl, hBody⟩
  exact ⟨rfl, hBody⟩

theorem unambiguous_function
    (budget : Nat) :
    (functionShape budget).Unambiguous := by
  intro first second rest others hFits hFits' _ _ hSame
  rcases Function.header_eq_of_tokens_eq hSame with
    ⟨hHeader, hBody⟩
  rcases
      unambiguous_stmts (unambiguous_stmt budget) first.body
        second.body _ _ hFits hFits'
        (listEnds_rightBrace first.stop rest)
        (listEnds_rightBrace second.stop others) hBody with
    ⟨hSameBody, hRest⟩
  simp only [List.cons.injEq, Leaf.token_inj] at hRest
  rw [hHeader, ← hSameBody, ← hRest.1]
  exact ⟨rfl, hRest.2⟩

/-
  A program whose `else`s are at the nearest `if` is
  determined by its tokens.
-/
theorem Program.eq_of_tokens_eq
    {first second : Program}
    (hFirst : first.ElseNearest)
    (hSecond : second.ElseNearest)
    (hSame : first.tokens = second.tokens) :
    first = second := by
  rcases first with ⟨functions⟩
  rcases second with ⟨functions'⟩
  change
    functions.flatMap Function.tokens =
      functions'.flatMap Function.tokens at hSame
  congr
  induction functions generalizing functions' with
  | nil =>
      cases functions' with
      | nil => rfl
      | cons function' functions' =>
          simp [Function.tokens] at hSame
  | cons function functions ih =>
      cases functions' with
      | nil => simp [Function.tokens] at hSame
      | cons function' functions' =>
          have hFits := List.forall_mem_cons.mp hFirst
          have hFits' := List.forall_mem_cons.mp hSecond
          simp only [List.flatMap_cons] at hSame
          rcases
              unambiguous_function
                (max function.body.nesting
                  function'.body.nesting)
                function function' _ _
                ⟨Nat.le_max_left _ _, hFits.1⟩
                ⟨Nat.le_max_right _ _, hFits'.1⟩ trivial
                trivial hSame with
            ⟨rfl, hMore⟩
          rw [ih hFits.2 functions' hFits'.2 hMore]

end Grammar

end OnePass
