/-!
# Tables

Settings files are TOML 1.0. A file is a sequence of pairs and table headers; read in order, they
build one table. A table is either made by its own header or braces, or it is implied: by a longer
header, or by a dotted key. What may be added to a table later depends on how it was made.
-/

namespace HotkeyScript
namespace Toml

abbrev Key := List Char

inductive Value
  | string (s : List Char)
  | integer (n : Int)
  | boolean (b : Bool)
  /-- A float, or a date or time. No setting is of these sorts, so their values are not kept. -/
  | float
  | datetime
  | array (items : List Value)
  | inline (pairs : List (List Key × Value))
  deriving Repr

inductive Node
  | value (v : Value)
  | table (implied dotted : Bool) (entries : List (Key × Node))
  /-- The elements of an array of tables. -/
  | tables (elements : List (List (Key × Node)))

abbrev Entries := List (Key × Node)

structure Table where
  implied : Bool := false
  dotted : Bool := false
  entries : Entries := []

namespace Table

def get? (t : Table) (k : Key) : Option Node := t.entries.lookup k

def put (t : Table) (k : Key) (n : Node) : Table :=
  { t with entries := t.entries.filter (fun e => e.1 != k) ++ [(k, n)] }

def node (t : Table) : Node := .table t.implied t.dotted t.entries

/-- Change the table at the end of a path. Tables missing on the way are implied by the path, which
comes from a dotted key or from a header; a dotted key may not pass through a table that has a
header of its own. A path through an array of tables goes on in its last element. -/
def modify (dotted : Bool) : List Key → (Table → Option Table) → Table → Option Table
  | [], f, t => f t
  | k :: path, f, t =>
    match t.get? k with
    | none => (modify dotted path f { implied := true, dotted }).map fun u => t.put k u.node
    | some (.value _) => none
    | some (.table implied made entries) =>
      if dotted && !implied then none
      else (modify dotted path f ⟨implied, made, entries⟩).map fun u => t.put k u.node
    | some (.tables elements) =>
      match elements.getLast? with
      | none => none
      | some last =>
        (modify dotted path f { entries := last }).map fun u =>
          t.put k (.tables (elements.dropLast ++ [u.entries]))

/-- Add a pair. Only a table made by a dotted key takes pairs from another dotted key, and no key is
given twice. -/
def addPair (t : Table) (path : List Key) (k : Key) (v : Value) : Option Table :=
  modify true path (fun u =>
    if u.dotted == path.isEmpty then none
    else match u.get? k with
      | some _ => none
      | none => some (u.put k (.value v))) t

def splitLast : List Key → Option (List Key × Key)
  | [] => none
  | path => path.getLast?.map fun k => (path.dropLast, k)

def addPairs (t : Table) : List (List Key × Value) → Option Table
  | [] => some t
  | (path, v) :: rest => do
    let (parents, k) ← splitLast path
    addPairs (← t.addPair parents k v) rest

end Table

/-- What stands in square brackets before a group of pairs: a table, or one more element of an array
of tables. -/
inductive Header
  | table (path : List Key)
  | element (path : List Key)

structure Section where
  header : Header
  pairs : List (List Key × Value)

namespace Table

/-- Add a section. A header makes a table once; before that, the table may have been implied by a
longer header. -/
def addSection (t : Table) (s : Section) : Option Table :=
  match s.header with
  | .table path => do
    let (parents, k) ← splitLast path
    modify false parents (fun u =>
      match u.get? k with
      | none => (addPairs {} s.pairs).map fun made => u.put k made.node
      | some (.table true false entries) =>
        (addPairs { entries } s.pairs).map fun made => u.put k made.node
      | some _ => none) t
  | .element path => do
    let (parents, k) ← splitLast path
    modify false parents (fun u =>
      match u.get? k with
      | none => (addPairs {} s.pairs).map fun made => u.put k (.tables [made.entries])
      | some (.tables elements) =>
        (addPairs {} s.pairs).map fun made => u.put k (.tables (elements ++ [made.entries]))
      | some _ => none) t

def addSections (t : Table) : List Section → Option Table
  | [] => some t
  | s :: rest => (t.addSection s).bind fun t => addSections t rest

end Table

/-- The pairs of an inline table make a table of their own. -/
def consistent (pairs : List (List Key × Value)) : Bool := (Table.addPairs {} pairs).isSome

end Toml
end HotkeyScript
