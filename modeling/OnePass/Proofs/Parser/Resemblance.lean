import Mathlib.Data.List.Forall2
import OnePass.Event
import OnePass.Token.Basic

/-
  Tokens and events that are alike.

  Two lists of tokens that are alike have the same kinds,
  while their texts and places may differ. Events that are
  made from them have the same form, and their names, places
  and attributes correspond.

  Key definitions include:
    * `Parser.Resemblance`
    * `ValueEvent.Alike`, `EffectEvent.Alike`
-/

------------------------------------------------------------
-- Resemblance Of Tokens
------------------------------------------------------------

namespace OnePass

namespace Parser

/-
  What the unread tokens of two runs have in common, and
  what follows for the parts of events that are taken from
  them.
-/
structure Resemblance where
  Rest : List Token → List Token → Prop
  Place : Span → Span → Prop
  Name : Identifier → Identifier → Prop
  /- The digits of numbers without the byte suffix. -/
  Digits : String → String → Prop
  eq_nil_iff :
    ∀ {left right : List Token},
      Rest left right → (left = [] ↔ right = [])
  kind_eq :
    ∀ {left right : Token} {lefts rights : List Token},
      Rest (left :: lefts) (right :: rights) →
        left.kind = right.kind
  tail :
    ∀ {left right : Token} {lefts rights : List Token},
      Rest (left :: lefts) (right :: rights) →
        Rest lefts rights
  place :
    ∀ {left right : Token} {lefts rights : List Token},
      Rest (left :: lefts) (right :: rights) →
        Place left.span right.span
  name :
    ∀ {left right : Token} {lefts rights : List Token},
      Rest (left :: lefts) (right :: rights) →
        left.kind = .identifier →
          Name ⟨left.text, left.span⟩ ⟨right.text, right.span⟩
  digits :
    ∀ {left right : Token} {lefts rights : List Token},
      Rest (left :: lefts) (right :: rights) →
        left.kind = .number → Digits left.text right.text
  byteDigits :
    ∀ {left right leftNext rightNext : Token}
      {lefts rights : List Token},
      Rest (left :: leftNext :: lefts)
          (right :: rightNext :: rights) →
        left.kind = .number →
          leftNext.kind = .byteSuffix →
            left.text = right.text
  cover :
    ∀ {left right left' right' : Span},
      Place left right →
        Place left' right' →
          Place (left.cover left') (right.cover right')
  place_of_name :
    ∀ {left right : Identifier},
      Name left right → Place left.span right.span

/- The same tokens. -/
def Resemblance.exact : Resemblance where
  Rest := Eq
  Place := Eq
  Name := Eq
  Digits := Eq
  eq_nil_iff hRest := by rw [hRest]
  kind_eq hRest := by cases hRest; rfl
  tail hRest := by cases hRest; rfl
  place hRest := by cases hRest; rfl
  name hRest _ := by cases hRest; rfl
  digits hRest _ := by cases hRest; rfl
  byteDigits hRest _ _ := by cases hRest; rfl
  cover hLeft hRight := by rw [hLeft, hRight]
  place_of_name hName := by rw [hName]

/- Everything on the right has a counterpart. -/
structure Resemblance.Total
    (like : Resemblance) : Prop where
  place : ∀ right, ∃ left, like.Place left right
  name : ∀ right, ∃ left, like.Name left right
  digits : ∀ digits, like.Digits digits digits

theorem Resemblance.total_exact :
    Resemblance.exact.Total where
  place right := ⟨right, rfl⟩
  name right := ⟨right, rfl⟩
  digits _ := rfl

/- What follows from two lists of tokens being alike. -/
theorem Resemblance.rest_cases
    (like : Resemblance)
    {left right : List Token}
    (hRest : like.Rest left right) :
    left = [] ∧ right = [] ∨
      ∃ first second lefts rights,
        left = first :: lefts ∧
          right = second :: rights ∧
            first.kind = second.kind := by
  have hNil := like.eq_nil_iff hRest
  cases left with
  | nil => exact .inl ⟨rfl, hNil.mp rfl⟩
  | cons first lefts =>
      cases right with
      | nil => cases hNil.mpr rfl
      | cons second rights =>
          exact
            .inr
              ⟨first, second, lefts, rights, rfl, rfl,
                like.kind_eq hRest⟩

theorem Resemblance.length_eq
    (like : Resemblance)
    {left right : List Token}
    (hRest : like.Rest left right) :
    left.length = right.length := by
  induction left generalizing right with
  | nil =>
      have hRight := (like.eq_nil_iff hRest).mp rfl
      rw [hRight]
  | cons first lefts ih =>
      cases right with
      | nil => cases (like.eq_nil_iff hRest).mpr rfl
      | cons second rights =>
          have hLength := ih (like.tail hRest)
          rw [List.length_cons, List.length_cons, hLength]

end Parser

end OnePass

------------------------------------------------------------
-- Resemblance Of Events
------------------------------------------------------------

namespace OnePass

section Alike

variable {τ τ' : Type}
variable (like : Parser.Resemblance)
variable (Attribute : τ → τ' → Prop)

/- Expressions with attributes and places that are alike. -/
structure Typed.Alike
    (left : Typed τ)
    (right : Typed τ') : Prop where
  ty : Attribute left.ty right.ty
  span : like.Place left.span right.span

structure Formal.Alike
    (left right : Formal) : Prop where
  isConst : left.isConst = right.isConst
  ty : left.ty = right.ty
  name : like.Name left.name right.name

/- Events of one form whose parts are alike. -/
inductive ValueEvent.Alike :
    ValueEvent τ → ValueEvent τ' → Prop where
  | call
      {callee callee' arguments arguments' span span'}
      (hCallee : like.Name callee callee')
      (hArguments :
        List.Forall₂ (Typed.Alike like Attribute)
          arguments arguments')
      (hSpan : like.Place span span') :
      Alike (.call callee arguments span)
        (.call callee' arguments' span')
  | identifier
      {name name'}
      (hName : like.Name name name') :
      Alike (.identifier name) (.identifier name')
  | numberLiteral
      {digits digits' span span'}
      (hDigits : like.Digits digits digits')
      (hSpan : like.Place span span') :
      Alike (.numberLiteral digits span)
        (.numberLiteral digits' span')
  | byteLiteral
      {digits span span'}
      (hSpan : like.Place span span') :
      Alike (.byteLiteral digits span)
        (.byteLiteral digits span')
  | stringLiteral
      {span span'}
      (hSpan : like.Place span span') :
      Alike (.stringLiteral span) (.stringLiteral span')
  | boolLiteral
      {truth span span'}
      (hSpan : like.Place span span') :
      Alike (.boolLiteral truth span)
        (.boolLiteral truth span')
  | cast
      {target operand operand' span span'}
      (hOperand :
        Typed.Alike like Attribute operand operand')
      (hSpan : like.Place span span') :
      Alike (.cast target operand span)
        (.cast target operand' span')
  | numeric
      {left left' operator right right' span span'}
      (hLeft : Typed.Alike like Attribute left left')
      (hRight : Typed.Alike like Attribute right right')
      (hSpan : like.Place span span') :
      Alike (.numeric left operator right span)
        (.numeric left' operator right' span')
  | relational
      {left left' operator right right' span span'}
      (hLeft : Typed.Alike like Attribute left left')
      (hRight : Typed.Alike like Attribute right right')
      (hSpan : like.Place span span') :
      Alike (.relational left operator right span)
        (.relational left' operator right' span')
  | logical
      {left left' operator right right' span span'}
      (hLeft : Typed.Alike like Attribute left left')
      (hRight : Typed.Alike like Attribute right right')
      (hSpan : like.Place span span') :
      Alike (.logical left operator right span)
        (.logical left' operator right' span')
  | negation
      {operand operand' span span'}
      (hOperand :
        Typed.Alike like Attribute operand operand')
      (hSpan : like.Place span span') :
      Alike (.negation operand span)
        (.negation operand' span')

/- Events of one form whose parts are alike. -/
inductive EffectEvent.Alike :
    EffectEvent τ → EffectEvent τ' → Prop where
  | functionHeader
      {returns name name'}
      (hName : like.Name name name') :
      Alike (.functionHeader returns name)
        (.functionHeader returns name')
  | functionSignature
      {returns name name' formals formals'}
      (hName : like.Name name name')
      (hFormals :
        List.Forall₂ (Formal.Alike like) formals formals') :
      Alike (.functionSignature returns name formals)
        (.functionSignature returns name' formals')
  | functionEnd
      {span span'}
      (hSpan : like.Place span span') :
      Alike (.functionEnd span) (.functionEnd span')
  | openScope : Alike .openScope .openScope
  | closeScope : Alike .closeScope .closeScope
  | openLoop : Alike .openLoop .openLoop
  | closeLoop : Alike .closeLoop .closeLoop
  | condition
      {value value'}
      (hValue : Typed.Alike like Attribute value value') :
      Alike (.condition value) (.condition value')
  | declarationStart
      {isConst ty name name'}
      (hName : like.Name name name') :
      Alike (.declarationStart isConst ty name)
        (.declarationStart isConst ty name')
  | declaration
      {isConst ty name name' initializer initializer'}
      {span span'}
      (hName : like.Name name name')
      (hInitializer :
        Option.Rel (Typed.Alike like Attribute)
          initializer initializer')
      (hSpan : like.Place span span') :
      Alike (.declaration isConst ty name initializer span)
        (.declaration isConst ty name' initializer' span')
  | assignment
      {name name' value value' span span'}
      (hName : like.Name name name')
      (hValue : Typed.Alike like Attribute value value')
      (hSpan : like.Place span span') :
      Alike (.assignment name value span)
        (.assignment name' value' span')
  | returnVoid
      {span span'}
      (hSpan : like.Place span span') :
      Alike (.returnVoid span) (.returnVoid span')
  | returnValue
      {value value' span span'}
      (hValue : Typed.Alike like Attribute value value')
      (hSpan : like.Place span span') :
      Alike (.returnValue value span)
        (.returnValue value' span')
  | breakStatement
      {span span'}
      (hSpan : like.Place span span') :
      Alike (.breakStatement span) (.breakStatement span')
  | continueStatement
      {span span'}
      (hSpan : like.Place span span') :
      Alike (.continueStatement span)
        (.continueStatement span')
  | programEnd : Alike .programEnd .programEnd

end Alike

end OnePass
