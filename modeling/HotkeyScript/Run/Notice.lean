import HotkeyScript.Document
import HotkeyScript.Files.Glob
import HotkeyScript.Settings.Discovery
import HotkeyScript.Text.Visible

/-!
# Notices

What a run has to say besides its output: notices about single files and patterns, which go to the
log, and remarks on the run as a whole.
-/

namespace HotkeyScript
namespace Run

def largestScript : Nat := 100 * 1024 * 1024

/-- How a script is too large, in whole megabytes. -/
def excess (bytes : Nat) : String :=
  .ofList (Numeral.ofNat (bytes / (1024 * 1024))) ++ " MB exceeds limit of " ++
    .ofList (Numeral.ofNat (largestScript / (1024 * 1024))) ++ " MB"

/-- Why a run, or the formatting of a script, ends before it has begun. -/
inductive Failure
  | settingsFile (fault : Discovery.Fault)
  | document (fault : Document.Fault)
  | stdinTooLarge (bytes : Nat)
  deriving DecidableEq, Repr

def Failure.message : Failure → String
  | .settingsFile f => f.message
  | .document f => f.message
  | .stdinTooLarge n => "stdin input too large (" ++ excess n ++ ")"

/-- Why a script was not formatted. -/
inductive Fault
  | unreadable (fault : FileTree.Fault)
  | notText (p : Path) (fault : Utf8.Fault)
  | failed (failure : Failure)
  deriving DecidableEq, Repr

def Fault.message : Fault → String
  | .unreadable f => f.message
  | .notText p f => p.toString ++ " is not valid UTF-8: " ++ f.message
  | .failed f => f.message

inductive Notice
  | inputNotFound (p : Path)
  | tooLarge (p : Path) (bytes : Nat)
  | tooManyLines (p : Path) (lines : Nat) (limit : UInt64)
  | invalidPattern (pattern : List Char) (fault : Glob.Fault)
  | settingsPassedOver (p : Path) (fault : Discovery.Fault)
  | notFormatted (p : Path) (fault : Fault)
  deriving DecidableEq, Repr

/-- Only a script that is not formatted is an error. -/
def Notice.level : Notice → String
  | .notFormatted _ _ => "ERROR"
  | _ => "WARN"

def Notice.sentence : Notice → String
  | .inputNotFound _ => "input not found"
  | .tooLarge p n => "skipping " ++ p.toString ++ " (" ++ excess n ++ ")"
  | .tooManyLines p n m =>
    "skipping " ++ p.toString ++ " (" ++ .ofList (Numeral.ofNat n) ++ " lines exceeds limit of " ++
      .ofList (Numeral.ofWord m) ++ ")"
  | .invalidPattern s f =>
    "ignoring invalid exclude pattern " ++ .ofList (Text.quoted s) ++ ": " ++ f.message
  | .settingsPassedOver _ .malformed => "failed to parse config: " ++ Discovery.Fault.message .malformed
  | .settingsPassedOver _ f => "failed to read config: " ++ f.message
  | .notFormatted p f => "error formatting " ++ p.toString ++ ": " ++ f.message

/-- The path that a notice names apart from its sentence. -/
def Notice.path? : Notice → Option Path
  | .inputNotFound p | .settingsPassedOver p _ => some p
  | _ => none

/-- The sentence is tame; a path after it is as it was given. -/
def Notice.message (n : Notice) : String :=
  .ofList (Text.tame n.sentence.toList) ++ n.path?.elim "" fun p => " path=" ++ p.toString

inductive Remark
  | nothingFound
  | summary (processed changed errors : Nat)
  | wouldChange (count : Nat)
  | failed (failure : Failure)
  deriving DecidableEq, Repr

def Remark.message : Remark → String
  | .nothingFound => "No AutoHotkey scripts found to format."
  | .summary n c e =>
    "Processed " ++ .ofList (Numeral.ofNat n) ++ " files, " ++ .ofList (Numeral.ofNat c) ++
      " reformatted" ++ (if e = 0 then "." else ", " ++ .ofList (Numeral.ofNat e) ++ " errors.")
  | .wouldChange n => .ofList (Numeral.ofNat n) ++ " file(s) would be reformatted."
  | .failed f => "Error: " ++ f.message

end Run
end HotkeyScript
