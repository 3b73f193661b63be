/-!
# Switches

The switches of the command line. A flag is given or not; a parameter takes a value. Every switch
has a long name, and some have a letter.
-/

namespace HotkeyScript
namespace Command

inductive Flag
  | useTabs | noTrimSpaces | noIndent | preserveContinuation | stdout | check | recursive | debug
  | silent
  deriving DecidableEq, Repr

inductive Parameter
  | tabWidth | maxBlankLines | config | exclude | extension | maxLines | jobs
  deriving DecidableEq, Repr

inductive Switch
  | flag (f : Flag)
  | parameter (p : Parameter)
  | help
  | version
  deriving DecidableEq, Repr

def Flag.all : List Flag :=
  [.useTabs, .noTrimSpaces, .noIndent, .preserveContinuation, .stdout, .check, .recursive, .debug,
    .silent]

def Parameter.all : List Parameter :=
  [.tabWidth, .maxBlankLines, .config, .exclude, .extension, .maxLines, .jobs]

def Switch.all : List Switch :=
  Flag.all.map .flag ++ Parameter.all.map .parameter ++ [.help, .version]

def Flag.name : Flag → String
  | .useTabs => "use-tabs"
  | .noTrimSpaces => "no-trim-spaces"
  | .noIndent => "no-indent"
  | .preserveContinuation => "preserve-continuation-indent"
  | .stdout => "stdout"
  | .check => "check"
  | .recursive => "recursive"
  | .debug => "debug"
  | .silent => "silent"

def Flag.letter? : Flag → Option Char
  | .stdout => some 's'
  | .recursive => some 'r'
  | .debug => some 'D'
  | .silent => some 'S'
  | _ => none

def Parameter.name : Parameter → String
  | .tabWidth => "tab-width"
  | .maxBlankLines => "max-blank-lines"
  | .config => "config"
  | .exclude => "exclude"
  | .extension => "ext"
  | .maxLines => "exclude-max-lines"
  | .jobs => "jobs"

def Parameter.letter : Parameter → Char
  | .tabWidth => 't'
  | .maxBlankLines => 'b'
  | .config => 'c'
  | .exclude => 'e'
  | .extension => 'x'
  | .maxLines => 'm'
  | .jobs => 'j'

def Switch.name : Switch → String
  | .flag f => f.name
  | .parameter p => p.name
  | .help => "help"
  | .version => "version"

def Switch.letter? : Switch → Option Char
  | .flag f => f.letter?
  | .parameter p => some p.letter
  | .help => some 'h'
  | .version => some 'V'

def Switch.ofName? (s : List Char) : Option Switch := all.find? fun w => w.name.toList == s

def Switch.ofLetter? (c : Char) : Option Switch := all.find? fun w => w.letter? == some c

theorem Switch.ofName?_name (w : Switch) : ofName? w.name.toList = some w := by
  rcases w with f | p | _ | _
  · cases f <;> decide
  · cases p <;> decide
  · decide
  · decide

theorem Switch.ofLetter?_letter {w : Switch} {c : Char} (h : w.letter? = some c) :
    ofLetter? c = some w := by
  rcases w with f | p | _ | _
  · cases f <;> simp_all [Switch.letter?, Flag.letter?] <;> subst h <;> decide
  · cases p <;> simp_all [Switch.letter?, Parameter.letter] <;> subst h <;> decide
  · simp_all [Switch.letter?]; subst h; decide
  · simp_all [Switch.letter?]; subst h; decide

end Command
end HotkeyScript
