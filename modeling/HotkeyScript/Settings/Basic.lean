import HotkeyScript.Reflow
import HotkeyScript.Text.Numeral

/-!
# Settings

Six settings govern how a script is laid out. A layer of settings, `Overrides`, gives some of them
and leaves the others open; putting a layer on top of complete settings replaces exactly the
fields that the layer gives.
-/

namespace HotkeyScript

structure Settings where
  tabWidth : UInt64 := 4
  useSpaces : Bool := true
  /-- The longest run of blank lines that stays; `-1` stands for no limit. -/
  maxBlankLines : Int32 := 1
  trimExtraSpaces : Bool := true
  imposeIndent : Bool := true
  preserveContinuation : Bool := false
  deriving DecidableEq, Repr

structure Overrides where
  tabWidth : Option UInt64 := none
  useSpaces : Option Bool := none
  maxBlankLines : Option Int32 := none
  trimExtraSpaces : Option Bool := none
  imposeIndent : Option Bool := none
  preserveContinuation : Option Bool := none
  deriving DecidableEq, Repr

namespace Overrides

def isEmpty (o : Overrides) : Bool := o = {}

def apply (o : Overrides) (s : Settings) : Settings where
  tabWidth := o.tabWidth.getD s.tabWidth
  useSpaces := o.useSpaces.getD s.useSpaces
  maxBlankLines := o.maxBlankLines.getD s.maxBlankLines
  trimExtraSpaces := o.trimExtraSpaces.getD s.trimExtraSpaces
  imposeIndent := o.imposeIndent.getD s.imposeIndent
  preserveContinuation := o.preserveContinuation.getD s.preserveContinuation

@[simp] theorem apply_empty (s : Settings) : apply {} s = s := rfl

@[simp] theorem apply_apply (o : Overrides) (s : Settings) : o.apply (o.apply s) = o.apply s := by
  rcases o with ⟨_ | _, _ | _, _ | _, _ | _, _ | _, _ | _⟩ <;> rfl

end Overrides

namespace Settings

def style (s : Settings) : Style where
  useSpaces := s.useSpaces
  tabWidth := s.tabWidth
  keepContinuation := s.preserveContinuation

inductive Fault
  | zeroTabWidth
  | wideTab (width : UInt64)
  | negativeLimit (limit : Int32)
  | largeLimit (limit : Int32)
  deriving DecidableEq, Repr

def widestTab : UInt64 := 16

def largestLimit : Int32 := 100

def fault? (s : Settings) : Option Fault :=
  if s.tabWidth = 0 then some .zeroTabWidth
  else if widestTab < s.tabWidth then some (.wideTab s.tabWidth)
  else if s.maxBlankLines < -1 then some (.negativeLimit s.maxBlankLines)
  else if largestLimit < s.maxBlankLines then some (.largeLimit s.maxBlankLines)
  else none

def Fault.message : Fault → String
  | .zeroTabWidth => "tab_width must be at least 1"
  | .wideTab n =>
    "tab_width " ++ .ofList (Numeral.ofWord n) ++ " exceeds maximum of " ++
      .ofList (Numeral.ofWord widestTab)
  | .negativeLimit n =>
    "max_blank_lines " ++ .ofList (Numeral.ofSigned n) ++ " is invalid (use -1 for unlimited)"
  | .largeLimit n =>
    "max_blank_lines " ++ .ofList (Numeral.ofSigned n) ++ " exceeds maximum of " ++
      .ofList (Numeral.ofSigned largestLimit)

theorem fault?_default : fault? {} = none := by decide

end Settings
end HotkeyScript
