import HotkeyScript.Settings.Basic
import HotkeyScript.Text.Basic

/-!
# Directives

A comment line that begins with the mark `ahkfmt:`, in any mixture of cases, is a directive: the
words after the mark override settings for the script that it stands in. Unknown words are
skipped. Of several directives in a script only the first counts.
-/

namespace HotkeyScript
namespace Directive

open Text

def mark : List Char := "ahkfmt:".toList

def arguments? (line : List Char) : Option (List Char) :=
  match trimStart line with
  | ';' :: comment =>
    match dropCaseless? mark (trimStart comment) with
    | some rest => if '\n' ∈ trim rest then none else some (trim rest)
    | none => none
  | _ => none

def isDirective (line : List Char) : Bool := (arguments? line).isSome

/-- Read option words into a layer of settings. An option with a value takes the next word as its
value, and is open again if that word is missing or no number. -/
def readWords (o : Overrides) : List (List Char) → Overrides
  | [] => o
  | w :: rest =>
    match String.ofList w with
    | "-t" | "--tab-width" =>
      match rest with
      | [] => { o with tabWidth := none }
      | v :: rest => readWords { o with tabWidth := Numeral.word? v } rest
    | "-b" | "--max-blank-lines" =>
      match rest with
      | [] => { o with maxBlankLines := none }
      | v :: rest => readWords { o with maxBlankLines := Numeral.signed? v } rest
    | "--use-tabs" => readWords { o with useSpaces := some false } rest
    | "--use-spaces" => readWords { o with useSpaces := some true } rest
    | "--trim-spaces" => readWords { o with trimExtraSpaces := some true } rest
    | "--no-trim-spaces" => readWords { o with trimExtraSpaces := some false } rest
    | "--no-indent" => readWords { o with imposeIndent := some false } rest
    | "--enable-indent" => readWords { o with imposeIndent := some true } rest
    | "--preserve-continuation-indent" =>
      readWords { o with preserveContinuation := some true } rest
    | _ => readWords o rest

/-- The overrides of a directive line, if it gives any. -/
def parse? (line : List Char) : Option Overrides := do
  let args ← arguments? line
  let o := readWords {} (words args)
  if o.isEmpty then none else some o

def find? (text : List Char) : Option Overrides := ((lines text).find? isDirective).bind parse?

/-- Settings for a script: its directive on top of the settings given. -/
def adjust (s : Settings) (text : List Char) : Settings :=
  match find? text with
  | none => s
  | some o => o.apply s

end Directive
end HotkeyScript
