import HotkeyScript.Proofs.DirectiveLines
import HotkeyScript.Proofs.Layers

/-!
# The command line and the directive

Some options can be given on the command line and in the directive of a script. The two are read in
different ways: the command line knows all its switches, waits for values and refuses what is given
twice; a directive is cut into words, and what it does not know is skipped. Options that both of
them have mean the same in both.
-/

namespace HotkeyScript

namespace Text

theorem words_append_cons {c : Char} (hc : isBlank c = true) (s t : List Char) :
    words (s ++ c :: t) = words s ++ words t := by
  simp [words, List.splitOnP_append_cons _ _ hc]

theorem words_of_not_blank {w : List Char} (hne : w ≠ []) (hw : ∀ c ∈ w, isBlank c = false) :
    words w = [w] := by
  simp [words, List.splitOnP_eq_singleton hw, hne]

theorem words_append_of_blank (s : List Char) {e : List Char} (he : ∀ c ∈ e, isBlank c = true) :
    words (s ++ e) = words s := by
  induction e generalizing s with
  | nil => rw [List.append_nil]
  | cons c e ih =>
    have hrest : words e = [] := ih [] fun d hd => he d (by simp [hd])
    rw [words_append_cons (he c (by simp)), hrest, List.append_nil]

theorem words_trimStart (s : List Char) : words (trimStart s) = words s := by
  induction s with
  | nil => rfl
  | cons c s ih =>
    by_cases hc : isBlank c = true
    · have hcons : words (c :: s) = words s := words_append_cons hc [] s
      rw [trimStart_cons_of_blank hc, ih, hcons]
    · rw [trimStart_cons_of_not_blank (eq_false_of_ne_true hc)]

theorem words_trim (s : List Char) : words (trim s) = words s := by
  obtain ⟨e, hs, he⟩ := exists_dropEndWhile_append isBlank (trimStart s)
  have hend : words (trim s ++ e) = words (trim s) := words_append_of_blank _ he
  rw [← words_trimStart s, hs]
  exact hend.symm

theorem mem_of_mem_trim {s : List Char} {c : Char} (h : c ∈ trim s) : c ∈ s := by
  obtain ⟨e, hs, -⟩ := exists_dropEndWhile_append isBlank (trimStart s)
  have hstart : c ∈ trimStart s := hs ▸ List.mem_append_left e h
  exact (List.dropWhile_suffix isBlank).subset hstart

theorem words_intercalate {ws : List (List Char)}
    (hws : ∀ w ∈ ws, w ≠ [] ∧ ∀ c ∈ w, isBlank c = false) : words ([' '].intercalate ws) = ws := by
  induction ws with
  | nil => rfl
  | cons w ws ih =>
    obtain ⟨hne, hw⟩ := hws w (by simp)
    have hrest := ih fun w' hw' => hws w' (by simp [hw'])
    cases ws with
    | nil => simpa using words_of_not_blank hne hw
    | cons w' ws =>
      rw [List.intercalate_cons_cons, List.append_assoc, List.singleton_append,
        words_append_cons isBlank_space, hrest, words_of_not_blank hne hw]
      rfl

theorem mem_intercalate_space {ws : List (List Char)} {c : Char} (h : c ∈ [' '].intercalate ws) :
    c = ' ' ∨ ∃ w ∈ ws, c ∈ w := by
  induction ws with
  | nil => simp at h
  | cons w ws ih =>
    cases ws with
    | nil => exact .inr ⟨w, by simpa using h⟩
    | cons w' ws =>
      rw [List.intercalate_cons_cons, List.mem_append, List.mem_append, List.mem_singleton] at h
      rcases h with (h | h) | h
      · exact .inr ⟨w, by simp, h⟩
      · exact .inl h
      · rcases ih h with h | ⟨w'', hw'', h⟩
        · exact .inl h
        · exact .inr ⟨w'', by simp [hw''], h⟩

end Text

theorem Overrides.value?_empty (f : Setting) : value? {} f = none := by
  cases f <;> rfl

namespace Numeral

open Text

/-- Decimal digits behind one of some signs. -/
def IsNumeral (signs : List (List Char)) (v : List Char) : Prop :=
  ∃ sign ∈ signs, ∃ ds, v = sign ++ ds ∧ ds ≠ [] ∧ ∀ c ∈ ds, c.isDigit = true

theorem nat?_eq_some {s : List Char} {n : Nat} (h : nat? s = some n) :
    s ≠ [] ∧ ∀ c ∈ s, c.isDigit = true := by
  unfold nat? at h
  split at h
  · next hs => exact ⟨hs.1, List.all_eq_true.mp hs.2⟩
  · cases h

theorem isNumeral_of_word? {v : List Char} {n : UInt64} (h : word? v = some n) :
    IsNumeral [[], ['+']] v := by
  unfold word? at h
  split at h <;> obtain ⟨k, hk, -⟩ := Option.bind_eq_some_iff.mp h
  · exact ⟨['+'], by simp, _, rfl, nat?_eq_some hk⟩
  · exact ⟨[], by simp, _, rfl, nat?_eq_some hk⟩

theorem isNumeral_of_signed? {v : List Char} {n : Int32} (h : signed? v = some n) :
    IsNumeral [[], ['+'], ['-']] v := by
  unfold signed? at h
  split at h <;> obtain ⟨k, hk, -⟩ := Option.bind_eq_some_iff.mp h
  · exact ⟨['+'], by simp, _, rfl, nat?_eq_some hk⟩
  · exact ⟨['-'], by simp, _, rfl, nat?_eq_some hk⟩
  · exact ⟨[], by simp, _, rfl, nat?_eq_some hk⟩

theorem isBlank_of_isDigit {c : Char} (h : c.isDigit = true) : isBlank c = false := by
  have hall : ∀ n ∈ Line.blankCodes, (Char.ofNat n).isDigit = false := by decide
  refine eq_false_of_ne_true fun hc => ?_
  have := Line.forall_of_blankCodes (P := fun c => c.isDigit = false) hall hc
  simp_all

theorem IsNumeral.word {signs : List (List Char)} {v : List Char} (h : IsNumeral signs v)
    (hsigns : signs.flatten.all (!isBlank ·) = true) : v ≠ [] ∧ ∀ c ∈ v, isBlank c = false := by
  obtain ⟨sign, hsign, ds, rfl, hne, hds⟩ := h
  refine ⟨by simp [hne], ?_⟩
  intro c hc
  rcases List.mem_append.mp hc with hc | hc
  · have hall := List.all_eq_true.mp hsigns c (List.mem_flatten.mpr ⟨sign, hsign, hc⟩)
    simpa using hall
  · exact isBlank_of_isDigit (hds c hc)

end Numeral

namespace Command

open Numeral

def Flag.spelled (f : Flag) : List Char := '-' :: '-' :: f.name.toList

def Parameter.spelled (short : Bool) (p : Parameter) : List Char :=
  if short then ['-', p.letter] else '-' :: '-' :: p.name.toList

/-- A word that a waiting parameter takes as its value: one that does not look like a switch, or a
negative number where one may stand. -/
inductive Parameter.Takes : Parameter → List Char → Prop
  | plain {p : Parameter} {c : Char} {s : List Char} (hc : c ≠ '-') : Takes p (c :: s)
  | negative {ds : List Char} (hne : ds ≠ []) (hds : ∀ c ∈ ds, c.isDigit = true) :
      Takes .maxBlankLines ('-' :: ds)

namespace Reading

theorem splitName_of_notMem {s : List Char} (h : '=' ∉ s) : splitName s = (s, none) := by
  have htake : s.takeWhile (· != '=') = s := by
    rw [List.takeWhile_eq_self_iff]
    intro c hc
    simpa using fun he : c = '=' => h (he ▸ hc)
  simp [splitName, htake, h]

theorem read_name {r : Reading} (hr : r.ended = false) {name : List Char} (hne : name ≠ []) :
    r.read ('-' :: '-' :: name) = r.readName name := by
  obtain ⟨c, cs, rfl⟩ := List.exists_cons_of_ne_nil hne
  simp [read, hr]

theorem read_letter {r : Reading} (hr : r.ended = false) {c : Char} (hc : c ≠ '-')
    (hnumber : isNumber [c] = false) : r.read ['-', c] = r.readLetters [c] := by
  simp [read, hr, hc, hnumber]

theorem read_flag {r : Reading} (hr : r.ended = false) (f : Flag) :
    r.read f.spelled = r.addFlag f := by
  have hsplit : splitName f.name.toList = (f.name.toList, none) :=
    splitName_of_notMem (by cases f <;> decide)
  have hswitch : Switch.ofName? f.name.toList = some (.flag f) := Switch.ofName?_name (.flag f)
  rw [Flag.spelled, read_name hr (by cases f <;> decide)]
  simp only [readName, hsplit, hswitch]

theorem read_parameter {r : Reading} (hr : r.ended = false) (short : Bool) (p : Parameter) :
    r.read (p.spelled short) = r.await p := by
  cases short with
  | false =>
    have hsplit : splitName p.name.toList = (p.name.toList, none) :=
      splitName_of_notMem (by cases p <;> decide)
    have hswitch : Switch.ofName? p.name.toList = some (.parameter p) :=
      Switch.ofName?_name (.parameter p)
    show r.read ('-' :: '-' :: p.name.toList) = r.await p
    rw [read_name hr (by cases p <;> decide)]
    simp only [readName, hsplit, hswitch]
  | true =>
    have hswitch : Switch.ofLetter? p.letter = some (.parameter p) := Switch.ofLetter?_letter rfl
    show r.read ['-', p.letter] = r.await p
    rw [read_letter hr (by cases p <;> decide) (by cases p <;> decide)]
    simp only [readLetters, hswitch, if_true]

theorem read_value {r : Reading} (hr : r.ended = false) {p : Parameter}
    (hp : r.pending = .waiting p) {v : List Char} (hv : p.Takes v) :
    r.read v = .ok { r with pending := .value p v } := by
  cases hv with
  | @plain _ c s hc => simp [read, hr, hc, addWord, hp]
  | @negative ds hne hds =>
    obtain ⟨d, ds, rfl⟩ := List.exists_cons_of_ne_nil hne
    have hd : d ≠ '-' := Text.ne_of_class (hds d (by simp)) (by decide)
    have hdrop : (d :: ds).dropWhile Char.isDigit = [] := List.dropWhile_eq_nil_iff.mpr hds
    have hnumber : isNumber (d :: ds) = true := by
      simp only [isNumber, hdrop]
    simp [read, hr, hd, takesNegative, hp, hnumber, addWord]

/-- The switches go on, and what is not settled yet settles to these arguments. -/
structure Settles (r : Reading) (a : Arguments) : Prop where
  not_ended : r.ended = false
  settle : r.settle = .ok a

theorem Settles.flag {r : Reading} {a : Arguments} (h : r.Settles a) {f : Flag}
    (hf : a.hasFlag f = false) :
    ∃ r' : Reading, r.read f.spelled = .ok r' ∧ r'.Settles (a.withFlag f) := by
  refine ⟨{ r with args := a.withFlag f, pending := .nothing }, ?_, h.not_ended, rfl⟩
  rw [read_flag h.not_ended, addFlag, h.settle]
  simp only [bind, Except.bind, Arguments.addFlag, hf]
  rfl

theorem Settles.value {r : Reading} {a b : Arguments} (h : r.Settles a) (short : Bool)
    {p : Parameter} {v : List Char} (hv : p.Takes v) (hb : a.addValue v p = .ok b) :
    ∃ r' : Reading, [p.spelled short, v].foldlM read r = .ok r' ∧ r'.Settles b := by
  have hawait : r.read (p.spelled short) = .ok { r with args := a, pending := .waiting p } := by
    rw [read_parameter h.not_ended, await, h.settle]
    rfl
  have hvalue := read_value (r := { r with args := a, pending := .waiting p }) h.not_ended rfl hv
  refine ⟨{ r with args := a, pending := .value p v }, ?_, h.not_ended, hb⟩
  simp only [List.foldlM_cons, hawait, bind, Except.bind, hvalue]
  rfl

end Reading

inductive Preference
  | useTabs | noTrimSpaces | noIndent | preserveContinuation
  deriving DecidableEq, Repr

namespace Preference

def flag : Preference → Flag
  | .useTabs => .useTabs
  | .noTrimSpaces => .noTrimSpaces
  | .noIndent => .noIndent
  | .preserveContinuation => .preserveContinuation

def setting : Preference → Setting
  | .useTabs => .useSpaces
  | .noTrimSpaces => .trimExtraSpaces
  | .noIndent => .imposeIndent
  | .preserveContinuation => .preserveContinuation

def value : (p : Preference) → p.setting.Value
  | .useTabs => false
  | .noTrimSpaces => false
  | .noIndent => false
  | .preserveContinuation => true

end Preference

/-- An option that the command line and a directive have in common. A number is given by any of its
numerals, and its name by the letter or in full. -/
inductive Choice
  | tabWidth (short : Bool) (v : List Char) (n : UInt64) (hv : Numeral.word? v = some n)
  | maxBlankLines (short : Bool) (v : List Char) (n : Int32) (hv : Numeral.signed? v = some n)
  | preference (p : Preference)

namespace Choice

def words : Choice → List (List Char)
  | .tabWidth short v _ _ => [Parameter.tabWidth.spelled short, v]
  | .maxBlankLines short v _ _ => [Parameter.maxBlankLines.spelled short, v]
  | .preference p => [p.flag.spelled]

def setting : Choice → Setting
  | .tabWidth .. => .tabWidth
  | .maxBlankLines .. => .maxBlankLines
  | .preference p => p.setting

def value : (c : Choice) → c.setting.Value
  | .tabWidth _ _ n _ => n
  | .maxBlankLines _ _ n _ => n
  | .preference p => p.value

def addTo (c : Choice) (a : Arguments) : Arguments :=
  match c with
  | .tabWidth _ _ n _ => { a with tabWidth := some n }
  | .maxBlankLines _ _ n _ => { a with maxBlankLines := some n }
  | .preference p => a.withFlag p.flag

theorem given?_addTo_self (c : Choice) (a : Arguments) :
    (c.addTo a).given? c.setting = some c.value := by
  cases c with
  | tabWidth => rfl
  | maxBlankLines => rfl
  | preference p => cases p <;> rfl

theorem given?_addTo_of_ne {c : Choice} {f : Setting} (h : f ≠ c.setting) (a : Arguments) :
    (c.addTo a).given? f = a.given? f := by
  cases c with
  | tabWidth =>
    cases f <;> try rfl
    exact absurd rfl h
  | maxBlankLines =>
    cases f <;> try rfl
    exact absurd rfl h
  | preference p =>
    cases p <;> cases f <;> try rfl
    all_goals exact absurd rfl h

def addAll (cs : List Choice) (a : Arguments) : Arguments := cs.foldl (fun a c => c.addTo a) a

theorem addAll_cons (c : Choice) (cs : List Choice) (a : Arguments) :
    addAll (c :: cs) a = addAll cs (c.addTo a) := rfl

theorem given?_addAll_of_notMem {cs : List Choice} {f : Setting} (h : f ∉ cs.map setting)
    (a : Arguments) : (addAll cs a).given? f = a.given? f := by
  induction cs generalizing a with
  | nil => rfl
  | cons c cs ih =>
    rw [List.map_cons, List.mem_cons, not_or] at h
    rw [addAll_cons, ih h.2, given?_addTo_of_ne h.1]

theorem given?_addAll_of_mem {cs : List Choice} (hcs : (cs.map setting).Nodup) {c : Choice}
    (hc : c ∈ cs) (a : Arguments) :
    (addAll cs a).given? c.setting = some c.value := by
  induction cs generalizing a with
  | nil => cases hc
  | cons b cs ih =>
    rw [List.map_cons, List.nodup_cons] at hcs
    rw [addAll_cons]
    rcases List.mem_cons.mp hc with rfl | hc
    · rw [given?_addAll_of_notMem hcs.1, given?_addTo_self]
    · exact ih hcs.2 hc _

theorem check_addAll (cs : List Choice) (a : Arguments) :
    (addAll cs a).check = a.check := by
  induction cs generalizing a with
  | nil => rfl
  | cons c cs ih =>
    rw [addAll_cons, ih]
    cases c with
    | tabWidth => rfl
    | maxBlankLines => rfl
    | preference p => cases p <;> rfl

theorem takes_of_isNumeral {p : Parameter} {v : List Char} (h : Numeral.IsNumeral [[], ['+']] v) :
    p.Takes v := by
  obtain ⟨sign, hsign, ds, rfl, hne, hds⟩ := h
  obtain ⟨d, ds, rfl⟩ := List.exists_cons_of_ne_nil hne
  have hd : d ≠ '-' := Text.ne_of_class (hds d (by simp)) (by decide)
  simp only [List.mem_cons, List.not_mem_nil, or_false] at hsign
  rcases hsign with rfl | rfl
  · exact .plain hd
  · exact .plain (by decide)

theorem takes_of_signed? {v : List Char} {n : Int32} (h : Numeral.signed? v = some n) :
    Parameter.maxBlankLines.Takes v := by
  obtain ⟨sign, hsign, ds, rfl, hne, hds⟩ := Numeral.isNumeral_of_signed? h
  simp only [List.mem_cons, List.not_mem_nil, or_false] at hsign
  rcases hsign with rfl | rfl | rfl
  · exact takes_of_isNumeral ⟨[], by simp, ds, rfl, hne, hds⟩
  · exact takes_of_isNumeral ⟨['+'], by simp, ds, rfl, hne, hds⟩
  · exact .negative hne hds

/-- One more option, of a setting that has not been given. -/
theorem exists_settles (c : Choice) {r : Reading} {a : Arguments} (h : r.Settles a)
    (hc : a.given? c.setting = none) :
    ∃ r' : Reading, c.words.foldlM Reading.read r = .ok r' ∧ r'.Settles (c.addTo a) := by
  cases c with
  | tabWidth short v n hv =>
    have ha : a.tabWidth = none := hc
    apply h.value short (takes_of_isNumeral (Numeral.isNumeral_of_word? hv))
    simp only [Arguments.addValue, ha, hv]
    rfl
  | maxBlankLines short v n hv =>
    have ha : a.maxBlankLines = none := hc
    apply h.value short (takes_of_signed? hv)
    simp only [Arguments.addValue, ha, hv]
    rfl
  | preference p =>
    have hf : a.hasFlag p.flag = false := by
      cases p <;> simpa [setting, Preference.setting, Arguments.given?, Preference.flag,
        Arguments.hasFlag] using hc
    obtain ⟨r', hr', hsettles⟩ := h.flag hf
    exact ⟨r', by simp [words, hr'], hsettles⟩

theorem exists_settles_all {cs : List Choice} (hcs : (cs.map setting).Nodup) {r : Reading}
    {a : Arguments} (h : r.Settles a) (ha : ∀ c ∈ cs, a.given? c.setting = none) :
    ∃ r' : Reading, (cs.flatMap words).foldlM Reading.read r = .ok r' ∧
      r'.Settles (addAll cs a) := by
  induction cs generalizing r a with
  | nil => exact ⟨r, rfl, h⟩
  | cons c cs ih =>
    rw [List.map_cons, List.nodup_cons] at hcs
    obtain ⟨r', hr', h'⟩ := c.exists_settles h (ha c (by simp))
    have ha' : ∀ b ∈ cs, (c.addTo a).given? b.setting = none := by
      intro b hb
      have hne : b.setting ≠ c.setting := fun he => hcs.1 (he ▸ List.mem_map_of_mem hb)
      rw [given?_addTo_of_ne hne]
      exact ha b (by simp [hb])
    obtain ⟨r'', hr'', h''⟩ := ih hcs.2 h' ha'
    refine ⟨r'', ?_, h''⟩
    rw [List.flatMap_cons, List.foldlM_append, hr']
    exact hr''

theorem parse_words {cs : List Choice} (hcs : (cs.map setting).Nodup) :
    Arguments.parse (cs.flatMap words) = .ok (addAll cs {}) := by
  obtain ⟨r, hr, h⟩ := exists_settles_all hcs (r := {}) (a := {}) ⟨rfl, rfl⟩
    fun c _ => by cases c.setting <;> rfl
  have hcheck := check_addAll cs {}
  simp only [Arguments.parse, hr, bind, Except.bind, h.settle, hcheck]
  rfl

theorem readWords_words (c : Choice) (a : Arguments) (rest : List (List Char)) :
    Directive.readWords a.overrides (c.words ++ rest) =
      Directive.readWords (c.addTo a).overrides rest := by
  cases c with
  | tabWidth short v n hv =>
    have hread : Directive.readWords a.overrides (Parameter.tabWidth.spelled short :: v :: rest) =
        Directive.readWords { a.overrides with tabWidth := Numeral.word? v } rest := by
      cases short <;> rfl
    rw [hv] at hread
    exact hread
  | maxBlankLines short v n hv =>
    have hread : Directive.readWords a.overrides
        (Parameter.maxBlankLines.spelled short :: v :: rest) =
        Directive.readWords { a.overrides with maxBlankLines := Numeral.signed? v } rest := by
      cases short <;> rfl
    rw [hv] at hread
    exact hread
  | preference p => cases p <;> rfl

theorem readWords_flatMap (cs : List Choice) (a : Arguments) :
    Directive.readWords a.overrides (cs.flatMap words) =
      (addAll cs a).overrides := by
  induction cs generalizing a with
  | nil => rfl
  | cons c cs ih => rw [List.flatMap_cons, readWords_words, ih, addAll_cons]

theorem not_blank_of_mem_words {c : Choice} {w : List Char} (h : w ∈ c.words) :
    w ≠ [] ∧ ∀ x ∈ w, Text.isBlank x = false := by
  have hname : ∀ w : List Char, w ≠ [] → w.all (!Text.isBlank ·) = true →
      w ≠ [] ∧ ∀ x ∈ w, Text.isBlank x = false := by
    intro w hne hall
    exact ⟨hne, by simpa using hall⟩
  cases c with
  | tabWidth short v n hv =>
    rcases List.mem_cons.mp h with rfl | h
    · cases short <;> exact hname _ (by decide) (by decide)
    · rw [List.mem_singleton.mp h]
      exact (Numeral.isNumeral_of_word? hv).word (by decide)
  | maxBlankLines short v n hv =>
    rcases List.mem_cons.mp h with rfl | h
    · cases short <;> exact hname _ (by decide) (by decide)
    · rw [List.mem_singleton.mp h]
      exact (Numeral.isNumeral_of_signed? hv).word (by decide)
  | preference p =>
    rw [List.mem_singleton.mp h]
    cases p <;> exact hname _ (by decide) (by decide)

def directive (cs : List Choice) : List Char :=
  "; ahkfmt: ".toList ++ [' '].intercalate (cs.flatMap words)

theorem optionWords?_directive (cs : List Choice) :
    Directive.optionWords? (directive cs) = some (cs.flatMap words) := by
  let line : List Char := [' '].intercalate (cs.flatMap words)
  have hwords : ∀ w ∈ cs.flatMap words, w ≠ [] ∧ ∀ x ∈ w, Text.isBlank x = false := by
    intro w hw
    obtain ⟨c, -, hc⟩ := List.mem_flatMap.mp hw
    exact not_blank_of_mem_words hc
  have hfeed : '\n' ∉ Text.trim (' ' :: line) := by
    intro h
    rcases List.mem_cons.mp (Text.mem_of_mem_trim h) with h | h
    · exact absurd h (by decide)
    · rcases Text.mem_intercalate_space h with h | ⟨w, hw, h⟩
      · exact absurd h (by decide)
      · exact absurd ((hwords w hw).2 '\n' h) (by decide)
  have hargs : Directive.arguments? (directive cs) = some (Text.trim (' ' :: line)) :=
    if_neg hfeed
  have hline : Text.words (' ' :: line) = Text.words line :=
    Text.words_append_cons Text.isBlank_space [] line
  rw [Directive.optionWords?, hargs, Option.map_some, Text.words_trim, hline,
    Text.words_intercalate hwords]

theorem parse?_directive {cs : List Choice} (hne : cs ≠ []) (hcs : (cs.map setting).Nodup) :
    Directive.parse? (directive cs) = some (addAll cs {}).overrides := by
  have hread : Directive.readWords {} (cs.flatMap words) = _ := readWords_flatMap cs {}
  obtain ⟨c, hc⟩ := List.exists_mem_of_ne_nil cs hne
  have hgiven := given?_addAll_of_mem hcs hc {}
  have hempty : (addAll cs {}).overrides.isEmpty = false := by
    refine decide_eq_false fun h => ?_
    rw [← Arguments.value?_overrides, h, Overrides.value?_empty] at hgiven
    cases hgiven
  rw [Directive.parse?_eq, optionWords?_directive, Option.bind_some, Directive.overrides?, hread,
    hempty]
  rfl

end Choice

/-- Options that the command line and a directive have in common mean the same in both, whatever
their order: each of the two is read without a failure, and on top of any settings they give the
values that the options name and leave the other settings alone. -/
theorem directive_agrees_with_command_line {cs : List Choice} (hne : cs ≠ [])
    (hcs : (cs.map Choice.setting).Nodup) :
    ∃ a o, Arguments.parse (cs.flatMap Choice.words) = .ok a ∧
      Directive.parse? (Choice.directive cs) = some o ∧
      ∀ s : Settings, a.overrides.apply s = o.apply s ∧
        (∀ c ∈ cs, (o.apply s).value c.setting = c.value) ∧
        ∀ f ∉ cs.map Choice.setting, (o.apply s).value f = s.value f := by
  refine ⟨_, _, Choice.parse_words hcs, Choice.parse?_directive hne hcs, fun s => ⟨rfl, ?_, ?_⟩⟩
  · intro c hc
    rw [Overrides.value_apply, Arguments.value?_overrides, Choice.given?_addAll_of_mem hcs hc,
      Option.getD_some]
  · intro f hf
    rw [Overrides.value_apply, Arguments.value?_overrides, Choice.given?_addAll_of_notMem hf]
    cases f <;> rfl

def mixedChoices : List Choice :=
  [.maxBlankLines true (Numeral.ofSigned (-1)) (-1) (Numeral.signed?_ofSigned (-1)),
    .preference .useTabs,
    .tabWidth false "+08".toList 8 (by decide +kernel), .preference .preserveContinuation]

theorem directive_agrees_with_command_line_mixedChoices :
    ∃ a o, Arguments.parse ["-b".toList, "-1".toList, "--use-tabs".toList, "--tab-width".toList,
        "+08".toList, "--preserve-continuation-indent".toList] = .ok a ∧
      Directive.parse? ("; ahkfmt: -b -1 --use-tabs --tab-width +08 " ++
        "--preserve-continuation-indent").toList = some o ∧
      ∀ s : Settings, a.overrides.apply s = o.apply s ∧
        (o.apply s).value .tabWidth = (8 : UInt64) ∧
        (o.apply s).value .trimExtraSpaces = s.trimExtraSpaces := by
  have hwords : mixedChoices.flatMap Choice.words = ["-b".toList, "-1".toList,
      "--use-tabs".toList, "--tab-width".toList, "+08".toList,
      "--preserve-continuation-indent".toList] := by decide +kernel
  have hline : Choice.directive mixedChoices = ("; ahkfmt: -b -1 --use-tabs --tab-width +08 " ++
      "--preserve-continuation-indent").toList := by decide +kernel
  have hne : mixedChoices ≠ [] := List.cons_ne_nil _ _
  obtain ⟨a, o, ha, ho, h⟩ := directive_agrees_with_command_line hne (by decide)
  refine ⟨a, o, hwords ▸ ha, hline ▸ ho, fun s => ?_⟩
  obtain ⟨hboth, hvalue, hother⟩ := h s
  have hwidth := hvalue (.tabWidth false "+08".toList 8 (by decide +kernel))
    (by simp [mixedChoices])
  exact ⟨hboth, hwidth, hother .trimExtraSpaces (by decide)⟩

end Command
end HotkeyScript
