import HotkeyScript.Run.Job

/-!
# A run

A run starts from its arguments, standard input, and the world around it, and ends with an exit code,
what it printed, its notices and remarks, and the tree as it left it. Without inputs, or with a
hyphen alone, it formats standard input.

An input that names a file is taken as it is. Of a directory, the files with the extension of a script
are taken, on all levels below it if the run is recursive. A file is left out if an exclusion
pattern matches its path or a name in it.
-/

namespace HotkeyScript
namespace Run

open Command

def scriptExtensions : List (List Char) := ["ahk".toList, "ah2".toList, "ahk2".toList]

/-- An extension without one full stop before it. -/
def bareExtension : List Char → List Char
  | '.' :: s => s
  | s => s

def isScript (p : Path) (more : List (List Char)) : Bool :=
  match p.extension? with
  | none => false
  | some ext =>
    scriptExtensions.any (Text.equalAscii ext) ||
      more.any fun e => Text.equalAscii ext (bareExtension e)

/-- The patterns that compile, and notices about the others. -/
def exclusions : List (List Char) → List (List Glob.Token) × List Notice
  | [] => ([], [])
  | s :: rest =>
    let (patterns, notices) := exclusions rest
    match Glob.compile s with
    | .ok tokens => (tokens :: patterns, notices)
    | .error f => (patterns, .invalidPattern s f :: notices)

def isExcluded (patterns : List (List Glob.Token)) (p : Path) : Bool := patterns.any p.isMatchedBy

def deepest : Nat := 256

/-- The scripts that one input stands for, or none if it leads nowhere. -/
def scriptsOf? (w : World) (a : Arguments) (patterns : List (List Glob.Token)) (input : Path) :
    Option (List Path) :=
  if w.isFile input then some (if isExcluded patterns input then [] else [input])
  else if w.isFolder input then
    some ((w.tree.filesBelow w.cwd input (if a.recursive then deepest else 1)).filter fun p =>
      w.isFile p && isScript p a.extensions && !isExcluded patterns p)
  else none

def scriptsOfAll (w : World) (a : Arguments) (patterns : List (List Glob.Token)) :
    List Path → List Path × List Notice
  | [] => ([], [])
  | input :: rest =>
    let (scripts, notices) := scriptsOfAll w a patterns rest
    match scriptsOf? w a patterns input with
    | some found => (found ++ scripts, notices)
    | none => (scripts, .inputNotFound input :: notices)

def collect (w : World) (a : Arguments) : List Path × List Notice :=
  let (patterns, invalid) := exclusions a.exclude
  let (scripts, missing) := scriptsOfAll w a patterns a.inputs
  (scripts, invalid ++ missing)

structure Report where
  exit : Nat := 0
  stdout : ByteArray := .empty
  notices : List Notice := []
  remarks : List Remark := []
  tree : FileTree := {}

/-- How many scripts were processed, were or would be changed, and were not formatted. -/
structure Tally where
  processed : Nat := 0
  changed : Nat := 0
  errors : Nat := 0
  deriving DecidableEq, Repr

def Tally.add (t : Tally) : Except Fault Outcome → Tally
  | .ok .changed => { t with processed := t.processed + 1, changed := t.changed + 1 }
  | .ok _ => { t with processed := t.processed + 1 }
  | .error _ => { t with errors := t.errors + 1 }

/-- One script, with its result entered into the tally and a notice if it was not formatted. -/
def countScript (a : Arguments) (common : Option Settings) (state : Tally × Progress) (p : Path) :
    Tally × Progress :=
  let (result, g) := runScript a common p state.2
  (state.1.add result,
    match result with
    | .ok _ => g
    | .error f => g.note (.notFormatted p f))

def runScripts (a : Arguments) (common : Option Settings) (scripts : List Path) (g : Progress) :
    Tally × Progress :=
  scripts.foldl (countScript a common) ({}, g)

/-- Scripts are taken one by one when they are printed or when one job is asked for; such a run gives
no summary. -/
def isSequential (a : Arguments) : Bool := a.stdout || a.jobs == some 1

def remarks (a : Arguments) (t : Tally) : List Remark :=
  (if isSequential a || a.check then [] else [.summary t.processed t.changed t.errors]) ++
    if a.check ∧ 0 < t.changed then [.wouldChange t.changed] else []

/-- A silent run keeps its notices, and its remarks other than a failure, to itself. -/
def Report.hush (a : Arguments) (r : Report) : Report :=
  if a.silent then
    { r with
      notices := []
      remarks := r.remarks.filter fun m => match m with
        | .failed _ => true
        | _ => false }
  else r

def failed (w : World) (f : Failure) (notices : List Notice) : Report where
  exit := 1
  notices := notices
  remarks := [.failed f]
  tree := w.tree

def runStdin (w : World) (a : Arguments) (stdin : ByteArray) : Report :=
  match baseSettings w a w.here with
  | (.error f, notices) => failed w f notices
  | (.ok s, notices) =>
    match Utf8.decode stdin with
    | .error _ => failed w (.document .notText) notices
    | .ok text =>
      if largestScript < stdin.size then failed w (.stdinTooLarge stdin.size) notices
      else
        match Document.format (Directive.adjust s text) text with
        | .error f => failed w (.document (.settings f)) notices
        | .ok out => { stdout := Utf8.encode out, notices := notices, tree := w.tree }

def runInputs (w : World) (a : Arguments) (common : Option Settings) : Report :=
  let (scripts, notices) := collect w a
  if scripts = [] then { notices := notices, remarks := [.nothingFound], tree := w.tree }
  else
    let (t, g) := runScripts a common scripts { world := w, notices := notices }
    { exit := if a.check ∧ 0 < t.changed then 1 else 0
      stdout := g.stdout
      notices := g.notices
      remarks := remarks a t
      tree := g.world.tree }

def readsStdin (a : Arguments) : Bool := a.inputs = [] || a.inputs = [⟨['-']⟩]

def runWith (w : World) (a : Arguments) (stdin : ByteArray) : Report :=
  if readsStdin a then runStdin w a stdin
  else if a.config.isSome then
    match baseSettings w a w.here with
    | (.error f, notices) => failed w f notices
    | (.ok s, _) => runInputs w a (some s)
  else runInputs w a none

def run (w : World) (words : List (List Char)) (stdin : ByteArray) : Report :=
  match Arguments.parse words with
  | .ok a => (runWith w a stdin).hush a
  | .error .help => { stdout := helpText.toUTF8, tree := w.tree }
  | .error .version => { stdout := versionText.toUTF8, tree := w.tree }
  | .error _ => { exit := 2, tree := w.tree }

end Run
end HotkeyScript
