import HotkeyScript.Line.Skeleton

/-!
# Reflow

One level of indentation is a tab, or `tabWidth` spaces. Depths and widths are words of 64 bits.

The lines of a document are indented one after another. Between lines there is the block depth, the
number of parentheses still open, and whether a block comment is open. A line that closes a block
stands one level out; a line that continues an open parenthesis stands one level in; the inside of
a block comment is left alone.
-/

namespace HotkeyScript

/-- How lines are indented. With `keepContinuation`, a line that continues an open parenthesis
keeps the blanks it starts with. -/
structure Style where
  useSpaces : Bool := true
  tabWidth : UInt64 := 4
  keepContinuation : Bool := false
  deriving DecidableEq, Repr

namespace Style

def indentation (style : Style) (depth : UInt64) : List Char :=
  if style.useSpaces then List.replicate (depth * style.tabWidth).toNat ' '
  else List.replicate depth.toNat '\t'

/-- The text at a depth. An empty text stays empty. -/
def indent (style : Style) (depth : UInt64) (s : List Char) : List Char :=
  if s = [] then [] else style.indentation depth ++ s

/-- Line `index` of a document of `count` lines, with a line feed unless it is the last one. An
empty line is indented only with `indentEmpty`. -/
def numberedLine (style : Style) (index count : UInt64) (s : List Char) (depth : UInt64)
    (indentEmpty : Bool) : List Char :=
  (if indentEmpty then style.indentation depth ++ s else style.indent depth s) ++
    if index + 1 = count then [] else ['\n']

@[simp] theorem indent_nil (style : Style) (depth : UInt64) : style.indent depth [] = [] := rfl

theorem mem_indentation {style : Style} {depth : UInt64} {c : Char}
    (h : c ∈ style.indentation depth) : c = ' ' ∨ c = '\t' := by
  unfold indentation at h
  split at h
  · exact .inl (List.eq_of_mem_replicate h)
  · exact .inr (List.eq_of_mem_replicate h)

end Style

namespace Reflow

open Text Line

structure State where
  depth : UInt64 := 0
  continuation : UInt64 := 0
  inComment : Bool := false
  deriving DecidableEq, Repr

def State.isContinued (q : State) : Bool := 0 < q.continuation

/-- A counter moved by a signed amount. It stops at zero and at the largest word. -/
def shift (n : UInt64) (d : Int) : UInt64 :=
  UInt64.ofNat (min (n.toNat + d).toNat (UInt64.size - 1))

@[simp] theorem toNat_shift (n : UInt64) (d : Int) :
    (shift n d).toNat = min (n.toNat + d).toNat (UInt64.size - 1) := by
  simp only [shift, UInt64.toNat_ofNat', UInt64.size]
  omega

@[simp] theorem shift_zero (n : UInt64) : shift n 0 = n := by
  apply UInt64.toNat_inj.mp
  have := n.toNat_lt
  simp only [toNat_shift, UInt64.size]
  omega

/-- The depth of a comment mark, or of a line inside open parentheses. -/
def State.markDepth (q : State) : UInt64 := if q.isContinued then q.depth + 1 else q.depth

def commentStep (style : Style) (q : State) (raw : List Char) : State × List Char :=
  if closesComment raw then
    ({ q with inComment := false }, style.indent q.markDepth (trimStart raw))
  else ({ q with inComment := !holds ['*', '/'] raw }, raw)

/-- A line that opens a block comment, and may close it again. -/
def openingStep (style : Style) (q : State) (raw : List Char) : State × List Char :=
  let body := trimStart raw
  ({ q with inComment := !holds ['*', '/'] (body.drop 2) }, style.indent q.markDepth body)

/-- A line inside open parentheses. It is part of an expression, whatever it begins with. -/
def continuedStep (style : Style) (q : State) (raw : List Char) : State × List Char :=
  let skeleton := scanned raw
  let body := trimStart raw
  ({ q with
      depth := shift q.depth (Bracket.braces skeleton)
      continuation := shift q.continuation (Bracket.parens skeleton) },
    if style.keepContinuation then
      if body = [] then style.indentation (q.depth + 1) else raw
    else style.indent (q.depth + 1) body)

/-- The depth at which a line stands, and by how much the depth is to move from there. -/
def openDepth (depth : UInt64) (skeleton : List Char) : UInt64 × Int :=
  if skeleton.head? = some '}' ∧ 0 < depth then (depth - 1, Bracket.braces skeleton + 1)
  else (depth, Bracket.braces skeleton)

/-- A line that begins a statement or closes a block. -/
def plainStep (style : Style) (q : State) (raw : List Char) : State × List Char :=
  let skeleton := skeleton raw
  let (depth, delta) := openDepth q.depth skeleton
  ({ q with
      depth := shift depth delta
      continuation := shift q.continuation (Bracket.parens skeleton) },
    style.indent depth (trimStart raw))

def step (style : Style) (q : State) (raw : List Char) : State × List Char :=
  if q.inComment then commentStep style q raw
  else if opensComment raw then openingStep style q raw
  else if q.isContinued then continuedStep style q raw
  else plainStep style q raw

theorem step_of_code {style : Style} {q : State} {raw : List Char} (hq : q.inComment = false)
    (hraw : opensComment raw = false) :
    step style q raw =
      if q.isContinued then continuedStep style q raw else plainStep style q raw := by
  simp [step, hq, hraw]

/-- Every line as rendered, with the state after it. -/
def trace (style : Style) : State → List (List Char) → List (State × List Char)
  | _, [] => []
  | q, raw :: rest => step style q raw :: trace style (step style q raw).1 rest

def after (style : Style) (q : State) (lines : List (List Char)) : State :=
  lines.foldl (fun q raw => (step style q raw).1) q

def render (style : Style) (q : State) (lines : List (List Char)) : List (List Char) :=
  (trace style q lines).map Prod.snd

@[simp] theorem after_nil (style : Style) (q : State) : after style q [] = q := rfl

@[simp] theorem after_cons (style : Style) (q : State) (raw : List Char) (rest : List (List Char)) :
    after style q (raw :: rest) = after style (step style q raw).1 rest := rfl

theorem after_append (style : Style) (q : State) (u v : List (List Char)) :
    after style q (u ++ v) = after style (after style q u) v := by
  simp [after]

@[simp] theorem render_nil (style : Style) (q : State) : render style q [] = [] := rfl

@[simp] theorem render_cons (style : Style) (q : State) (raw : List Char)
    (rest : List (List Char)) :
    render style q (raw :: rest) =
      (step style q raw).2 :: render style (step style q raw).1 rest := rfl

theorem render_append (style : Style) (q : State) (u v : List (List Char)) :
    render style q (u ++ v) = render style q u ++ render style (after style q u) v := by
  induction u generalizing q with
  | nil => rfl
  | cons raw u ih => simp [ih]

@[simp] theorem length_render (style : Style) (q : State) (lines : List (List Char)) :
    (render style q lines).length = lines.length := by
  induction lines generalizing q with
  | nil => rfl
  | cons raw rest ih => simp [ih]

/-- The line terminator of a document: with a carriage return if the document has one anywhere. -/
def terminator (text : List Char) : List Char :=
  if holds ['\r', '\n'] text then ['\r', '\n'] else ['\n']

/-- The lines of a document without their terminators, and whether the last one is terminated. -/
def rawLines (text : List Char) : List (List Char) × Bool :=
  let pieces := text.splitOn '\n'
  if 1 < pieces.length ∧ pieces.getLast? = some [] then (pieces.dropLast.map dropReturn, true)
  else (pieces.map dropReturn, false)

/-- Re-indent a document from a given state. The state after the last line is returned too. -/
def reindentFrom (style : Style) (q : State) (text : List Char) : List Char × State :=
  let (lines, terminated) := rawLines text
  let eol := terminator text
  (eol.intercalate (render style q lines) ++ if terminated then eol else [], after style q lines)

def reindent (style : Style) (text : List Char) : List Char := (reindentFrom style {} text).1

end Reflow
end HotkeyScript
