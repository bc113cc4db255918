import OnePass.Event
import OnePass.Token.Basic

/-
  The parts that every grammar rule is built from.

  A rule reads tokens from a cursor and announces events to
  a receiver, whose state the cursor carries along. A rule
  either answers a value, or halts: at a token that does not
  fit, at a construct nested too deeply, or because the
  receiver refused an event. When a rule halts, the cursor
  stands where it halted, and nothing is undone.

  Key definitions include:
    * `Receiver`
    * `Parser.Cursor`
    * `Parser.Halt`
    * `Parser.Rule`
    * `Parser.iterate`
    * `Parser.commaList`
-/

------------------------------------------------------------
-- Receivers
------------------------------------------------------------

namespace OnePass

/-
  A receiver of events, with state `σ`, attributes `τ` and
  reasons `ε` for refusing an event.
-/
structure Receiver (σ τ ε : Type) where
  value : ValueEvent τ → EStateM ε σ τ
  effect : EffectEvent τ → EStateM ε σ Unit

end OnePass

------------------------------------------------------------
-- Rules
------------------------------------------------------------

namespace OnePass

namespace Parser

/- The unread tokens, and the state of the receiver. -/
structure Cursor (σ : Type) where
  rest : List Token
  state : σ

/- Why the tokens cannot be read on. -/
inductive Obstacle where
  /- The next token, or the end of input, does not fit. -/
  | unexpected
  /- The nesting limit is reached. -/
  | tooDeep
deriving DecidableEq, Repr

/- Why a rule halts. -/
inductive Halt (ε : Type) where
  | stuck (obstacle : Obstacle)
  | refused (reason : ε)
deriving DecidableEq, Repr

/- A rule that answers a value of type `α`. -/
abbrev Rule (σ ε α : Type) : Type :=
  EStateM (Halt ε) (Cursor σ) α

end Parser

end OnePass

------------------------------------------------------------
-- Reading Tokens
------------------------------------------------------------

namespace OnePass

namespace Parser

variable {σ ε : Type}

/- The kinds of the next two tokens. -/
def lookahead : Rule σ ε (Option Kind × Option Kind) := do
  match (← get).rest with
  | [] => return (none, none)
  | [token] => return (some token.kind, none)
  | token :: next :: _ =>
      return (some token.kind, some next.kind)

/- The kind of the next token. -/
def peek : Rule σ ε (Option Kind) := do
  return (← get).rest.head?.map Token.kind

/- The next token does not fit. -/
def unexpected {α : Type} : Rule σ ε α :=
  throw (.stuck .unexpected)

/- The place of the next token, which is not read. -/
def nextSpan : Rule σ ε Span := do
  match (← get).rest with
  | next :: _ => return next.span
  | [] => unexpected

/- Read one token of the given kind. -/
def token (kind : Kind) : Rule σ ε Token := do
  let cursor ← get
  match cursor.rest with
  | next :: rest =>
      if next.kind = kind then
        set { cursor with rest }
        return next
      else
        unexpected
  | [] => unexpected

/- Read one token of the given kind, for its place. -/
def expect (kind : Kind) : Rule σ ε Span := do
  return (← token kind).span

/- Read a token of the given kind if it is next. -/
def accept (kind : Kind) : Rule σ ε Bool := do
  if (← peek) = some kind then
    let _ ← token kind
    return true
  else
    return false

/- Read a name. -/
def identifier : Rule σ ε Identifier := do
  let name ← token .identifier
  return ⟨name.text, name.span⟩

end Parser

end OnePass

------------------------------------------------------------
-- Announcing Events
------------------------------------------------------------

namespace OnePass

namespace Parser

variable {σ τ ε α : Type}

/- Let the receiver act on its own state. -/
def announce (act : EStateM ε σ α) : Rule σ ε α :=
  fun cursor =>
    match act cursor.state with
    | .ok answer state => .ok answer { cursor with state }
    | .error reason state =>
        .error (.refused reason) { cursor with state }

/- Announce an event that has no answer. -/
def effect
    (receiver : Receiver σ τ ε)
    (event : EffectEvent τ) : Rule σ ε Unit :=
  announce (receiver.effect event)

/- Announce a complete expression of the given extent. -/
def value
    (receiver : Receiver σ τ ε)
    (event : ValueEvent τ)
    (span : Span) : Rule σ ε (Typed τ) := do
  return ⟨← announce (receiver.value event), span⟩

end Parser

end OnePass

------------------------------------------------------------
-- Repetition
------------------------------------------------------------

namespace OnePass

namespace Parser

variable {σ ε α : Type}

/-
  Apply `step` to its own answers until it answers nothing,
  at most once for each token of the first argument.
-/
def iterateWithin
    (step : α → Rule σ ε (Option α)) :
    List Token → α → Rule σ ε α
| [], current => return current
| _ :: bound, current => do
    match ← step current with
    | none => return current
    | some next => iterateWithin step bound next

/-
  Apply `step` to its own answers until it answers nothing.
  A step that answers reads a token, and a step that finds
  no token left answers nothing, so that the unread tokens
  bound the number of steps.
-/
def iterate
    (step : α → Rule σ ε (Option α))
    (first : α) : Rule σ ε α := do
  iterateWithin step (← get).rest first

/- One more item, if a comma is next. -/
def itemStep
    (item : Rule σ ε α)
    (items : List α) : Rule σ ε (Option (List α)) := do
  if ← accept .comma then
    return some (items ++ [← item])
  else
    return none

/- One or more items, separated by commas. -/
def commaSeparated
    (item : Rule σ ε α) : Rule σ ε (List α) := do
  iterate (itemStep item) [← item]

/- Any number of items, before a closing parenthesis. -/
def commaList
    (item : Rule σ ε α) : Rule σ ε (List α) := do
  if (← peek) = some .rightParen then
    return []
  else
    commaSeparated item

end Parser

end OnePass
