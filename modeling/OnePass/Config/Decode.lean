import OnePass.Config.Basic
import OnePass.Toml.Document

/-
  Settings from a configuration document.

  The table `diagnostics` holds the style and the table
  `output` says whether a summary is wanted. What is not
  given has its default, and unknown keys are passed over.
  A table with known fields may also be written as an array
  of the values of its fields.

  Key definitions include:
    * `Style.ofValue?`
    * `Config.ofDocument?`
    * `Config.parse?`
-/

------------------------------------------------------------
-- Values Of Settings
------------------------------------------------------------

namespace OnePass

open Toml (Value Entries)

/- A value that holds nothing. -/
def Toml.Value.isHollow : Value → Bool
| .table _ [] | .array [] | .tables [] => true
| _ => false

/-
  The style that a value names: its word, or a table whose
  only key is the word and holds nothing.
-/
def Style.ofValue? : Value → Option Style
| .string word => Style.ofName? word
| .table _ [(word, payload)] =>
    if payload.isHollow then Style.ofName? word else none
| _ => none

/- A truth value. -/
def Toml.Value.truth? : Value → Option Bool
| .boolean truth => some truth
| _ => none

end OnePass

------------------------------------------------------------
-- Sections
------------------------------------------------------------

namespace OnePass

open Toml (Value Entries)

/-
  The value of the only field of a section, or nothing if
  the field is not given. It fails if the value cannot be a
  section. A date has fields of its own, none of them known.
-/
def Toml.Value.soleField?
    (name : String) : Value → Option (Option Value)
| .table _ entries => some (entries.lookup name)
| .array items => some items.head?
| .tables elements =>
    some (elements.head?.map (Value.table .header))
| .datetime _ => some none
| _ => none

/-
  The setting in a field of a section, or its default if the
  section or the field is not given.
-/
def Config.setting?
    {α : Type}
    (document : Entries)
    (part field : String)
    (decode : Value → Option α)
    (default : α) : Option α := do
  match document.lookup part with
  | none => return default
  | some found =>
      match ← found.soleField? field with
      | none => return default
      | some value => decode value

end OnePass

------------------------------------------------------------
-- Settings
------------------------------------------------------------

namespace OnePass

namespace Config

open Toml (Value Entries)

/- The settings that a document gives. -/
def ofDocument? (document : Entries) : Option Config := do
  let style ←
    setting? document "diagnostics" "style"
      Style.ofValue? default.style
  let summary ←
    setting? document "output" "summary"
      Value.truth? default.summary
  return { style, summary }

/- The settings that a text gives. -/
def parse? (text : String) : Option Config := do
  ofDocument? (← Toml.read? text)

end Config

end OnePass
