import HotkeyScript.Command.Arguments
import HotkeyScript.Directive
import HotkeyScript.Run.Notice

/-!
# Formatting one script

A script is read, formatted under its settings and its directive, and, depending on the mode of the
run, written back, printed, or only compared. A script that is too large or has too many lines is
skipped.
-/

namespace HotkeyScript
namespace Run

open Command

inductive Outcome
  | unchanged | changed | skipped
  deriving DecidableEq, Repr

/-- The world as it is by now, what has been printed, and the notices so far. -/
structure Progress where
  world : World
  stdout : ByteArray := .empty
  notices : List Notice := []

def Progress.note (g : Progress) (n : Notice) : Progress := { g with notices := g.notices ++ [n] }

def Progress.print (g : Progress) (bytes : ByteArray) : Progress :=
  { g with stdout := g.stdout ++ bytes }

def Progress.write (g : Progress) (p : Path) (bytes : ByteArray) : Progress :=
  match g.world.tree.locate g.world.cwd p with
  | .ok l => { g with world := { g.world with tree := g.world.tree.write l bytes } }
  | .error _ => g

/-- The number of lines of some bytes. The last line need not be terminated. -/
def lineCount (bytes : ByteArray) : Nat :=
  let newlines := bytes.toList.count 10
  if bytes.toList.getLast?.all (· = 10) then newlines else newlines + 1

def formatted (s : Settings) (p : Path) (bytes : ByteArray) : Except Fault ByteArray :=
  match Utf8.decode bytes with
  | .error f => .error (.notText p f)
  | .ok text =>
    match Document.format (Directive.adjust s text) text with
    | .error f => .error (.failed (.document (.settings f)))
    | .ok out => .ok (Utf8.encode out)

/-- Hand over the result: print it, name the file if it would change, or write it. -/
def deliver (a : Arguments) (p : Path) (before after : ByteArray) (g : Progress) : Progress :=
  if a.stdout then g.print after
  else if before.data = after.data then g
  else if a.check then
    if a.silent then g else g.print (Utf8.encode (p.text ++ ['\n']))
  else g.write p after

/-- Why a script is skipped. Its size is looked at before its lines are counted. -/
def skipped? (a : Arguments) (p : Path) (bytes : ByteArray) : Option Notice :=
  if largestScript < bytes.size then some (.tooLarge p bytes.size)
  else match a.maxLines with
    | none => none
    | some m =>
      if m.toNat < lineCount bytes then some (.tooManyLines p (lineCount bytes) m) else none

def formatScript (a : Arguments) (s : Settings) (p : Path) (g : Progress) :
    Except Fault Outcome × Progress :=
  match g.world.read p with
  | .error f => (.error (.unreadable f), g)
  | .ok bytes =>
    match skipped? a p bytes with
    | some n => (.ok .skipped, g.note n)
    | none =>
      match formatted s p bytes with
      | .error f => (.error f, g)
      | .ok out => (.ok (if bytes.data = out.data then .unchanged else .changed), deliver a p bytes out g)

/-- Settings of the explicit file, or of the files discovered from a starting point; in both cases
the command line goes on top. -/
def baseSettings (w : World) (a : Arguments) (start : Path) :
    Except Failure Settings × List Notice :=
  let (base, notices) : Except Failure Settings × List Notice :=
    match a.config with
    | some file =>
      match Discovery.readLayer w file with
      | .ok o => (.ok (o.apply {}), [])
      | .error f => (.error (.settingsFile f), [])
    | none =>
      let (s, passed) := Discovery.settings w start
      (.ok s, passed.map fun (p, f) => .settingsPassedOver p f)
  match base with
  | .error f => (.error f, notices)
  | .ok s =>
    let s := a.overrides.apply s
    match s.fault? with
    | some f => (.error (.document (.settings f)), notices)
    | none => (.ok s, notices)

/-- Format one script of a run, with the settings of the run or, failing those, its own. -/
def runScript (a : Arguments) (common : Option Settings) (p : Path) (g : Progress) :
    Except Fault Outcome × Progress :=
  match common with
  | some s => formatScript a s p g
  | none =>
    let (found, notices) := baseSettings g.world a p
    let g := { g with notices := g.notices ++ notices }
    match found with
    | .ok s => formatScript a s p g
    | .error f => (.error (.failed f), g)

end Run
end HotkeyScript
