import HotkeyScript.Settings.Basic
import HotkeyScript.Toml.Document

/-!
# Settings in files

The settings of a file are the pairs of its top table under the six names below. A name that is
missing leaves its setting open; a value of the wrong sort, or out of range, spoils the file;
other names are ignored.
-/

namespace HotkeyScript

open Toml

namespace Toml

def Node.bool? : Node → Option Bool
  | .value (.boolean b) => some b
  | _ => none

def Node.word? : Node → Option UInt64
  | .value (.integer n) => if 0 ≤ n then Numeral.word n.toNat else none
  | _ => none

def Node.signed? : Node → Option Int32
  | .value (.integer n) => Numeral.signed n
  | _ => none

/-- The value under a name: none if there is no such name, and a failure if it is of another
sort. -/
def Table.field? {α : Type} (t : Table) (name : String) (read : Node → Option α) :
    Option (Option α) :=
  match t.get? name.toList with
  | none => some none
  | some n => (read n).map some

/-- The value under a name, or a default if there is no such name. -/
def Table.fieldD {α : Type} (t : Table) (name : String) (read : Node → Option α) (default : α) :
    Option α :=
  match t.get? name.toList with
  | none => some default
  | some n => read n

end Toml

def Overrides.ofTable? (t : Table) : Option Overrides := do
  return {
    tabWidth := ← t.field? "tab_width" Node.word?
    useSpaces := ← t.field? "use_spaces" Node.bool?
    maxBlankLines := ← t.field? "max_blank_lines" Node.signed?
    trimExtraSpaces := ← t.field? "trim_extra_spaces" Node.bool?
    imposeIndent := ← t.field? "impose_indent" Node.bool?
    preserveContinuation := ← t.field? "preserve_continuation_indent" Node.bool? }

/-- Complete settings from a table, where each missing name takes its default. -/
def Settings.ofTable? (t : Table) : Option Settings := do
  return {
    tabWidth := ← t.fieldD "tab_width" Node.word? 4
    useSpaces := ← t.fieldD "use_spaces" Node.bool? true
    maxBlankLines := ← t.fieldD "max_blank_lines" Node.signed? 1
    trimExtraSpaces := ← t.fieldD "trim_extra_spaces" Node.bool? true
    imposeIndent := ← t.fieldD "impose_indent" Node.bool? true
    preserveContinuation := ← t.fieldD "preserve_continuation_indent" Node.bool? false }

def Overrides.ofText? (s : List Char) : Option Overrides := (Toml.parse? s).bind ofTable?

def Settings.ofText? (s : List Char) : Option Settings := (Toml.parse? s).bind ofTable?

/-- The settings of a file on top of the defaults. -/
def Settings.ofLayer? (s : List Char) : Option Settings := (Overrides.ofText? s).map (·.apply {})

namespace Settings

def pairLine (name : String) (value : List Char) : List Char :=
  name.toList ++ " = ".toList ++ value ++ ['\n']

def boolText (b : Bool) : List Char := if b then "true".toList else "false".toList

def toText (s : Settings) : List Char :=
  pairLine "tab_width" (Numeral.ofWord s.tabWidth) ++
  pairLine "use_spaces" (boolText s.useSpaces) ++
  pairLine "max_blank_lines" (Numeral.ofSigned s.maxBlankLines) ++
  pairLine "trim_extra_spaces" (boolText s.trimExtraSpaces) ++
  pairLine "impose_indent" (boolText s.imposeIndent) ++
  pairLine "preserve_continuation_indent" (boolText s.preserveContinuation)

end Settings
end HotkeyScript
