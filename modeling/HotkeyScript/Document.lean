import HotkeyScript.Settings.Basic
import HotkeyScript.Text.Utf8

/-!
# Formatting a document

Three passes, each under its own setting: lines are re-indented, runs of blank lines are cut to the
limit, and runs of spaces after the indentation of a line are collapsed. Any text is accepted;
only settings out of bounds are refused.

A segment is blank if it holds only spaces and tabs before its line break. Blank segments before the
first other one are dropped, and of every later run of them only the first `limit` stay. Of spaces,
two or more in a row become one; tabs stay, and so do the spaces and tabs that a line starts with.
-/

namespace HotkeyScript
namespace BlankRun

open Text

def isBlankLine (t : List Char) : Bool :=
  (dropEndWhile isBreak t).all fun c => c == ' ' || c == '\t'

/-- The segments that stay after `run` blank ones, where no content has been seen yet or some
has. -/
def keep (limit : Nat) : (seen : Bool) → (run : Nat) → List (List Char) → List (List Char)
  | _, _, [] => []
  | seen, run, t :: ts =>
    if isBlankLine t then
      if seen then
        if run + 1 ≤ limit then t :: keep limit seen (run + 1) ts else keep limit seen (run + 1) ts
      else keep limit seen run ts
    else t :: keep limit true 0 ts

/-- A negative limit leaves the text as it is. -/
def limit (n : Int32) (text : List Char) : List Char :=
  if n < 0 then text else (keep n.toInt.toNat false 0 (segments text)).flatten

theorem keep_sublist (n : Nat) (seen : Bool) (run : Nat) (ts : List (List Char)) :
    (keep n seen run ts).Sublist ts := by
  fun_induction keep n seen run ts <;> simp_all [List.Sublist.cons]

end BlankRun

namespace Spacing

def collapse : List Char → List Char
  | [] => []
  | c :: s => if c = ' ' ∧ s.head? = some ' ' then collapse s else c :: collapse s

def isIndent (c : Char) : Bool := c == ' ' || c == '\t'

/-- The line with its content collapsed and its leading spaces and tabs as they are. -/
def collapseContent (s : List Char) : List Char :=
  s.takeWhile isIndent ++ collapse (s.dropWhile isIndent)

/-- No run of spaces stands after the leading spaces and tabs. -/
def isTight (s : List Char) : Bool := (Line.spaceRun? (s.dropWhile isIndent)).isNone

@[simp] theorem collapse_nil : collapse [] = [] := rfl

theorem collapse_of_spaceRun?_eq_none {s : List Char} (h : Line.spaceRun? s = none) :
    collapse s = s := by
  induction s with
  | nil => rfl
  | cons c s ih =>
    unfold Line.spaceRun? at h
    split at h
    · simp at h
    · next hc =>
      unfold collapse
      rw [if_neg hc, ih (by simpa using h)]

theorem collapseContent_of_isTight {s : List Char} (h : isTight s = true) :
    collapseContent s = s := by
  rw [collapseContent, collapse_of_spaceRun?_eq_none (by simpa [isTight] using h),
    List.takeWhile_append_dropWhile]

end Spacing

namespace Document

open Text

inductive Fault
  /-- The bytes are not UTF-8. -/
  | notText
  | settings (fault : Settings.Fault)
  deriving DecidableEq, Repr

def Fault.message : Fault → String
  | .notText => "stream did not contain valid UTF-8"
  | .settings f => "Invalid configuration: " ++ f.message

/-- A segment with its content collapsed, the line break at its end aside. -/
def collapseSegment (t : List Char) : List Char :=
  let content := dropEndWhile isBreak t
  Spacing.collapseContent content ++ t.drop content.length

def collapseSpaces (text : List Char) : List Char := (segments text).flatMap collapseSegment

/-- The three passes, for settings within bounds. -/
def layOut (s : Settings) (text : List Char) : List Char :=
  let indented := if s.imposeIndent then Reflow.reindent s.style text else text
  let limited := BlankRun.limit s.maxBlankLines indented
  if s.trimExtraSpaces then collapseSpaces limited else limited

def format (s : Settings) (text : List Char) : Except Settings.Fault (List Char) :=
  match s.fault? with
  | some f => .error f
  | none => .ok (layOut s text)

/-- Format a script given as bytes. The bytes are decoded before the settings are looked at. -/
def formatBytes (s : Settings) (bytes : ByteArray) : Except Fault ByteArray :=
  match Utf8.decode bytes with
  | .error _ => .error .notText
  | .ok text =>
    match format s text with
    | .error f => .error (.settings f)
    | .ok out => .ok (Utf8.encode out)

theorem format_eq_ok_iff {s : Settings} {text out : List Char} :
    format s text = .ok out ↔ s.fault? = none ∧ layOut s text = out := by
  unfold format
  split <;> simp_all

end Document
end HotkeyScript
