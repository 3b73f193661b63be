import HotkeyScript.Command.Switch
import HotkeyScript.Files.Path
import HotkeyScript.Settings.Basic

/-!
# Arguments

The arguments of a run, read from left to right. A value may be attached to its parameter or follow
it; letters may be put together behind one hyphen; two hyphens end the switches. A value that
follows its parameter is looked at when the next argument settles it, so an argument that is not
known is reported before a bad value right in front of it.
-/

namespace HotkeyScript
namespace Command

structure Arguments where
  inputs : List Path := []
  tabWidth : Option UInt64 := none
  useTabs : Bool := false
  maxBlankLines : Option Int32 := none
  noTrimSpaces : Bool := false
  noIndent : Bool := false
  preserveContinuation : Bool := false
  stdout : Bool := false
  check : Bool := false
  config : Option Path := none
  recursive : Bool := false
  exclude : List (List Char) := []
  extensions : List (List Char) := []
  maxLines : Option UInt64 := none
  debug : Bool := false
  silent : Bool := false
  jobs : Option UInt64 := none
  deriving DecidableEq, Repr

/-- Why arguments do not start a run. Asking for help or for the version is among the reasons. -/
inductive Refusal
  | unknownArgument
  /-- A value is missing, or a path is empty. -/
  | invalidValue
  /-- A value is not the number that it should be. -/
  | valueValidation
  /-- A switch is repeated, or two switches exclude each other. -/
  | argumentConflict
  /-- A flag has a value. -/
  | tooManyValues
  | help
  | version
  deriving DecidableEq, Repr

namespace Arguments

def hasFlag (a : Arguments) : Flag → Bool
  | .useTabs => a.useTabs
  | .noTrimSpaces => a.noTrimSpaces
  | .noIndent => a.noIndent
  | .preserveContinuation => a.preserveContinuation
  | .stdout => a.stdout
  | .check => a.check
  | .recursive => a.recursive
  | .debug => a.debug
  | .silent => a.silent

def withFlag (a : Arguments) : Flag → Arguments
  | .useTabs => { a with useTabs := true }
  | .noTrimSpaces => { a with noTrimSpaces := true }
  | .noIndent => { a with noIndent := true }
  | .preserveContinuation => { a with preserveContinuation := true }
  | .stdout => { a with stdout := true }
  | .check => { a with check := true }
  | .recursive => { a with recursive := true }
  | .debug => { a with debug := true }
  | .silent => { a with silent := true }

@[simp] theorem hasFlag_withFlag (a : Arguments) (f g : Flag) :
    (a.withFlag f).hasFlag g = (decide (g = f) || a.hasFlag g) := by
  cases f <;> cases g <;> rfl

def addFlag (a : Arguments) (f : Flag) : Except Refusal Arguments :=
  if a.hasFlag f then .error .argumentConflict else .ok (a.withFlag f)

def path (v : List Char) : Except Refusal Path :=
  if v = [] then .error .invalidValue else .ok ⟨v⟩

/-- A parameter that is given at most once. -/
def once {α : Type} (given : Option α) (value : Except Refusal α) : Except Refusal (Option α) :=
  if given.isSome then .error .argumentConflict else value.map some

def number {α : Type} (n : Option α) : Except Refusal α :=
  match n with
  | some n => .ok n
  | none => .error .valueValidation

def addValue (a : Arguments) (v : List Char) : Parameter → Except Refusal Arguments
  | .tabWidth => do return { a with tabWidth := ← once a.tabWidth (number (Numeral.word? v)) }
  | .maxBlankLines => do
    return { a with maxBlankLines := ← once a.maxBlankLines (number (Numeral.signed? v)) }
  | .config => do return { a with config := ← once a.config (path v) }
  | .exclude => .ok { a with exclude := a.exclude ++ [v] }
  | .extension => .ok { a with extensions := a.extensions ++ [v] }
  | .maxLines => do return { a with maxLines := ← once a.maxLines (number (Numeral.word? v)) }
  | .jobs => do return { a with jobs := ← once a.jobs (number (Numeral.word? v)) }

def addInputs (a : Arguments) (vs : List (List Char)) : Except Refusal Arguments := do
  return { a with inputs := a.inputs ++ (← vs.mapM path) }

def overrides (a : Arguments) : Overrides where
  tabWidth := a.tabWidth
  useSpaces := if a.useTabs then some false else none
  maxBlankLines := a.maxBlankLines
  trimExtraSpaces := if a.noTrimSpaces then some false else none
  imposeIndent := if a.noIndent then some false else none
  preserveContinuation := if a.preserveContinuation then some true else none

end Arguments

/-- What has been read and is not settled yet. -/
inductive Pending
  | nothing
  | waiting (p : Parameter)
  | value (p : Parameter) (v : List Char)
  | inputs (vs : List (List Char))
  deriving DecidableEq, Repr

structure Reading where
  args : Arguments := {}
  pending : Pending := .nothing
  /-- Two hyphens have been read. -/
  ended : Bool := false
  deriving DecidableEq, Repr

namespace Reading

def settle (r : Reading) : Except Refusal Arguments :=
  match r.pending with
  | .nothing => .ok r.args
  | .waiting _ => .error .invalidValue
  | .value p v => r.args.addValue v p
  | .inputs vs => r.args.addInputs vs

def addFlag (r : Reading) (f : Flag) : Except Refusal Reading := do
  return { r with args := ← (← r.settle).addFlag f, pending := .nothing }

def await (r : Reading) (p : Parameter) : Except Refusal Reading := do
  return { r with args := ← r.settle, pending := .waiting p }

def addValue (r : Reading) (p : Parameter) (v : List Char) : Except Refusal Reading := do
  return { r with args := ← (← r.settle).addValue v p, pending := .nothing }

def refuse (r : Reading) (why : Refusal) : Except Refusal Reading := do
  let _ ← r.settle
  .error why

def addInput (r : Reading) (v : List Char) : Except Refusal Reading :=
  match r.pending with
  | .inputs vs => .ok { r with pending := .inputs (vs ++ [v]) }
  | _ => do return { r with args := ← r.settle, pending := .inputs [v] }

/-- A long name and the value attached to it. -/
def splitName (s : List Char) : List Char × Option (List Char) :=
  let name := s.takeWhile (· != '=')
  (name, if '=' ∈ s then some (s.drop (name.length + 1)) else none)

def readName (r : Reading) (s : List Char) : Except Refusal Reading :=
  let (name, value) := splitName s
  match Switch.ofName? name, value with
  | none, _ => .error .unknownArgument
  | some (.parameter p), some v => r.addValue p v
  | some (.parameter p), none => r.await p
  | some _, some _ => .error .tooManyValues
  | some (.flag f), none => r.addFlag f
  | some .help, none => r.refuse .help
  | some .version, none => r.refuse .version

/-- A value attached to a letter, after an equals sign or not. -/
def attached : List Char → List Char
  | '=' :: v => v
  | v => v

def readLetters (r : Reading) : List Char → Except Refusal Reading
  | [] => .ok r
  | c :: rest =>
    match Switch.ofLetter? c with
    | none => .error .unknownArgument
    | some (.flag f) => do readLetters (← r.addFlag f) rest
    | some (.parameter p) => if rest = [] then r.await p else r.addValue p (attached rest)
    | some .help => r.refuse .help
    | some .version => r.refuse .version

/-- The digits of a number as they may follow a hyphen: a point after the first digit and an
exponent are allowed. -/
def isNumber (s : List Char) : Bool :=
  let whole := s.takeWhile Char.isDigit
  let rest := s.dropWhile Char.isDigit
  let exponent (t : List Char) : Bool :=
    match t with
    | [] => true
    | c :: t => (c == 'e' || c == 'E') && !t.isEmpty && t.all Char.isDigit
  match whole, rest with
  | _, [] => true
  | [], _ => false
  | _, '.' :: t => exponent (t.dropWhile Char.isDigit)
  | _, t => exponent t

/-- A parameter is waiting for a value, and takes negative numbers. -/
def takesNegative (r : Reading) : Bool := r.pending == .waiting .maxBlankLines

def addWord (r : Reading) (s : List Char) : Except Refusal Reading :=
  match r.pending with
  | .waiting p => .ok { r with pending := .value p s }
  | _ => r.addInput s

def read (r : Reading) (s : List Char) : Except Refusal Reading :=
  if r.ended then r.addInput s
  else match s with
    | ['-', '-'] => .ok { r with ended := true }
    | '-' :: '-' :: name => r.readName name
    | ['-'] => r.addWord s
    | '-' :: letters =>
      if r.takesNegative && isNumber letters then r.addWord s else r.readLetters letters
    | _ => r.addWord s

end Reading

namespace Arguments

def parse (words : List (List Char)) : Except Refusal Arguments := do
  let a ← (← words.foldlM Reading.read {}).settle
  if a.check && a.stdout then .error .argumentConflict else return a

end Arguments

def versionText : String := "ahkfmt 0.1.0\n"

def helpText : String :=
"Formatter for AutoHotkey scripts

Usage: ahkfmt [OPTIONS] [FILE]...

Arguments:
  [FILE]...  Files or directories to format (- reads stdin)

Options:
  -t, --tab-width <NUM>               Columns per indent level [default: 4]
      --use-tabs                      Indent with tabs instead of spaces
  -b, --max-blank-lines <NUM>         Maximum consecutive blank lines, -1 for unlimited [default: 1]
      --no-trim-spaces                Keep runs of spaces inside lines
      --no-indent                     Disable re-indentation
      --preserve-continuation-indent  Keep original indentation of continuation lines
  -s, --stdout                        Output to stdout instead of modifying files in-place
      --check                         List files that would change and exit with status 1
  -c, --config <FILE>                 Path to configuration file (overrides auto-discovery)
  -r, --recursive                     Recursively format directories
  -e, --exclude <PATTERN>             Exclude files/directories matching pattern (glob syntax, can be repeated)
  -x, --ext <EXT>                     Additional script extension (can be repeated, e.g., -x ahk1 -x txt)
  -m, --exclude-max-lines <NUM>       Exclude files with more than this many lines
  -D, --debug                         Enable debug output (shows config, discovered files, directives)
  -S, --silent                        Silent mode (no output, for editor integration)
  -j, --jobs <NUM>                    Number of parallel jobs (0=auto, 1=sequential)
  -h, --help                          Print help
  -V, --version                       Print version
"

end Command
end HotkeyScript
