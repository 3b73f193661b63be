/-!
# Completion

Suggestions at a cursor, from what is declared in a set of scripts: every method, the parameters and
variables of the methods that enclose the cursor, and the variables at the top level of the
cursor's script. After a full stop a member is being named, and nothing is suggested.
-/

namespace HotkeyScript
namespace Completion

/-- A method: its name and declaration, the script that declares it, and the lines of its body. -/
structure Method where
  name : String
  declaration : String
  params : List String
  comment : String
  document : String
  firstLine : UInt64
  lastLine : UInt64
  locals : List String
  deriving DecidableEq, Repr

def Method.encloses (m : Method) (document : String) (line : UInt64) : Bool :=
  m.document == document && m.firstLine ≤ line && line ≤ m.lastLine

/-- The call that a suggestion of the method inserts. -/
def Method.call (m : Method) : String := m.name ++ "(" ++ String.intercalate ", " m.params ++ ")"

inductive Kind
  | method | variableName
  deriving DecidableEq, Repr

def Kind.name : Kind → String
  | .method => "method"
  | .variableName => "variable"

structure Item where
  label : String
  kind : Kind
  insertText : Option String := none
  detail : Option String := none
  deriving DecidableEq, Repr

def Item.ofMethod (m : Method) : Item where
  label := m.name
  kind := .method
  insertText := some m.call
  detail := some m.comment

def Item.ofVariable (name : String) : Item where
  label := name
  kind := .variableName

structure Scripts where
  methods : List Method := []
  globals : List (String × List String) := []
  deriving DecidableEq, Repr

def Scripts.topLevel (scripts : Scripts) (document : String) : List String :=
  (scripts.globals.lookup document).getD []

/-- A method, followed by its parameters and variables if it encloses the cursor. -/
def suggest (document : String) (line : UInt64) (m : Method) : List Item :=
  .ofMethod m :: if m.encloses document line then (m.params ++ m.locals).map .ofVariable else []

def items (scripts : Scripts) (document : String) (line : UInt64) (before : Option Char) :
    List Item :=
  if before = some '.' then []
  else scripts.methods.flatMap (suggest document line) ++
    (scripts.topLevel document).map .ofVariable

@[simp] theorem items_after_stop (scripts : Scripts) (document : String) (line : UInt64) :
    items scripts document line (some '.') = [] := rfl

end Completion
end HotkeyScript
