import HotkeyScript.Run.Job

/-!
# Layers of settings

A script is formatted under settings that come from its directive, from the command line, from
settings files and from the defaults. Each of the six settings is decided on its own: the most
specific layer that gives it a value wins, and a settings file that cannot be used is no layer at
all. A run has no settings only if the file named on the command line cannot be used, or if what the
layers below the directive give is out of bounds.
-/

namespace HotkeyScript

inductive Setting
  | tabWidth | useSpaces | maxBlankLines | trimExtraSpaces | imposeIndent | preserveContinuation
  deriving DecidableEq, Repr

namespace Setting

abbrev Value : Setting → Type
  | .tabWidth => UInt64
  | .maxBlankLines => Int32
  | _ => Bool

def all : List Setting :=
  [.tabWidth, .useSpaces, .maxBlankLines, .trimExtraSpaces, .imposeIndent, .preserveContinuation]

theorem mem_all (f : Setting) : f ∈ all := by
  cases f <;> decide

def standard : (f : Setting) → f.Value
  | .tabWidth => 4
  | .useSpaces => true
  | .maxBlankLines => 1
  | .trimExtraSpaces => true
  | .imposeIndent => true
  | .preserveContinuation => false

def key : Setting → String
  | .tabWidth => "tab_width"
  | .useSpaces => "use_spaces"
  | .maxBlankLines => "max_blank_lines"
  | .trimExtraSpaces => "trim_extra_spaces"
  | .imposeIndent => "impose_indent"
  | .preserveContinuation => "preserve_continuation_indent"

def read : (f : Setting) → Toml.Node → Option f.Value
  | .tabWidth => Toml.Node.word?
  | .useSpaces => Toml.Node.bool?
  | .maxBlankLines => Toml.Node.signed?
  | .trimExtraSpaces => Toml.Node.bool?
  | .imposeIndent => Toml.Node.bool?
  | .preserveContinuation => Toml.Node.bool?

end Setting

def Settings.value (s : Settings) : (f : Setting) → f.Value
  | .tabWidth => s.tabWidth
  | .useSpaces => s.useSpaces
  | .maxBlankLines => s.maxBlankLines
  | .trimExtraSpaces => s.trimExtraSpaces
  | .imposeIndent => s.imposeIndent
  | .preserveContinuation => s.preserveContinuation

def Settings.ofValues (v : (f : Setting) → f.Value) : Settings where
  tabWidth := v .tabWidth
  useSpaces := v .useSpaces
  maxBlankLines := v .maxBlankLines
  trimExtraSpaces := v .trimExtraSpaces
  imposeIndent := v .imposeIndent
  preserveContinuation := v .preserveContinuation

def Overrides.value? (o : Overrides) : (f : Setting) → Option f.Value
  | .tabWidth => o.tabWidth
  | .useSpaces => o.useSpaces
  | .maxBlankLines => o.maxBlankLines
  | .trimExtraSpaces => o.trimExtraSpaces
  | .imposeIndent => o.imposeIndent
  | .preserveContinuation => o.preserveContinuation

def Overrides.ofValues (v : (f : Setting) → Option f.Value) : Overrides where
  tabWidth := v .tabWidth
  useSpaces := v .useSpaces
  maxBlankLines := v .maxBlankLines
  trimExtraSpaces := v .trimExtraSpaces
  imposeIndent := v .imposeIndent
  preserveContinuation := v .preserveContinuation

@[simp] theorem Overrides.value?_ofValues (v : (f : Setting) → Option f.Value) (f : Setting) :
    (ofValues v).value? f = v f := by
  cases f <;> rfl

@[simp] theorem Settings.value_ofValues (v : (f : Setting) → f.Value) (f : Setting) :
    (ofValues v).value f = v f := by
  cases f <;> rfl

theorem Settings.eq_ofValues {s : Settings} {v : (f : Setting) → f.Value}
    (h : ∀ f, s.value f = v f) : s = ofValues v := by
  obtain rfl : s.value = v := funext h
  rfl

theorem Settings.value_default (f : Setting) : value {} f = f.standard := by
  cases f <;> rfl

@[simp] theorem Overrides.value_apply (o : Overrides) (s : Settings) (f : Setting) :
    (o.apply s).value f = (o.value? f).getD (s.value f) := by
  cases f <;> rfl

/-- A table gives a layer if no name of a setting has a value of another sort, and then each setting
is what stands under its name. -/
theorem Overrides.ofTable?_eq_some_iff {t : Toml.Table} {o : Overrides} :
    ofTable? t = some o ↔ ∀ f : Setting, t.field? f.key f.read = some (o.value? f) := by
  constructor
  · intro h f
    simp only [ofTable?, bind, Option.bind_eq_some_iff] at h
    obtain ⟨width, hwidth, spaces, hspaces, blank, hblank, trim, htrim, indent, hindent, keep,
      hkeep, ho⟩ := h
    cases ho
    cases f with
    | tabWidth => exact hwidth
    | useSpaces => exact hspaces
    | maxBlankLines => exact hblank
    | trimExtraSpaces => exact htrim
    | imposeIndent => exact hindent
    | preserveContinuation => exact hkeep
  · intro h
    have hwidth : t.field? "tab_width" Toml.Node.word? = some o.tabWidth := h .tabWidth
    have hspaces : t.field? "use_spaces" Toml.Node.bool? = some o.useSpaces := h .useSpaces
    have hblank : t.field? "max_blank_lines" Toml.Node.signed? = some o.maxBlankLines :=
      h .maxBlankLines
    have htrim : t.field? "trim_extra_spaces" Toml.Node.bool? = some o.trimExtraSpaces :=
      h .trimExtraSpaces
    have hindent : t.field? "impose_indent" Toml.Node.bool? = some o.imposeIndent := h .imposeIndent
    have hkeep : t.field? "preserve_continuation_indent" Toml.Node.bool? =
        some o.preserveContinuation := h .preserveContinuation
    simp only [ofTable?, hwidth, hspaces, hblank, htrim, hindent, hkeep]
    rfl

namespace Discovery

def table? (w : World) (file : Path) : Option Toml.Table :=
  (w.read file).toOption.bind fun bytes => (Utf8.decode bytes).toOption.bind Toml.parse?

/-- Every setting is missing in the table or has a value of its sort. -/
def isWellSorted (t : Toml.Table) : Bool :=
  Setting.all.all fun f => (t.field? f.key f.read).isSome

def usable? (w : World) (file : Path) : Option Toml.Table := (table? w file).filter isWellSorted

/-- The value that a settings file gives to a setting. A file that cannot be used gives none. -/
def given? (w : World) (file : Path) (f : Setting) : Option f.Value :=
  (usable? w file).bind fun t => (t.field? f.key f.read).join

theorem isSome_ofTable? (t : Toml.Table) : (Overrides.ofTable? t).isSome = isWellSorted t := by
  rw [Bool.eq_iff_iff, Option.isSome_iff_exists, isWellSorted, List.all_eq_true]
  constructor
  · rintro ⟨o, ho⟩ f -
    rw [Overrides.ofTable?_eq_some_iff.mp ho f, Option.isSome_some]
  · intro h
    refine ⟨.ofValues fun f => (t.field? f.key f.read).get (h f f.mem_all),
      Overrides.ofTable?_eq_some_iff.mpr fun f => ?_⟩
    rw [Overrides.value?_ofValues, Option.some_get]

theorem toOption_readLayer (w : World) (file : Path) :
    (readLayer w file).toOption = (table? w file).bind Overrides.ofTable? := by
  unfold readLayer table?
  cases w.read file with
  | error f => rfl
  | ok bytes =>
    simp only [Except.toOption, Option.bind_some]
    cases Utf8.decode bytes with
    | error f => rfl
    | ok text =>
      have htext : (Toml.parse? text).bind Overrides.ofTable? = Overrides.ofText? text := rfl
      simp only [Option.bind_some, htext]
      cases Overrides.ofText? text <;> rfl

theorem isSome_usable? (w : World) (file : Path) :
    (usable? w file).isSome = (readLayer w file).toOption.isSome := by
  rw [toOption_readLayer, usable?]
  cases table? w file with
  | none => rfl
  | some t =>
    rw [Option.bind_some, isSome_ofTable?]
    cases h : isWellSorted t <;> simp [Option.filter, h]

theorem given?_eq (w : World) (file : Path) (f : Setting) :
    given? w file f = (readLayer w file).toOption.bind (·.value? f) := by
  rw [toOption_readLayer, given?, usable?]
  cases table? w file with
  | none => rfl
  | some t =>
    have hsome := isSome_ofTable? t
    cases ho : Overrides.ofTable? t with
    | none =>
      rw [ho] at hsome
      simp [Option.filter, ← hsome, ho]
    | some o =>
      rw [ho] at hsome
      simp [Option.filter, ← hsome, ho, Overrides.ofTable?_eq_some_iff.mp ho f]

/-- Of several settings files, the last one that gives a setting decides it. -/
theorem value_layer (w : World) (s : Settings) (files : List Path) (f : Setting) :
    (layer w s files).1.value f = (files.reverse.findSome? (given? w · f)).getD (s.value f) := by
  induction files generalizing s with
  | nil => rfl
  | cons file files ih =>
    have hgiven := given?_eq w file f
    rw [List.reverse_cons, List.findSome?_append, Option.getD_or, List.findSome?_singleton]
    unfold layer
    cases hread : readLayer w file with
    | error fault =>
      rw [hread] at hgiven
      simp only [hgiven]
      exact ih s
    | ok o =>
      rw [hread] at hgiven
      simp only [hgiven]
      rw [ih, Overrides.value_apply]
      rfl

theorem value_settings (w : World) (start : Path) (f : Setting) :
    (settings w start).1.value f =
      ((files w start).reverse.findSome? (given? w · f)).getD f.standard := by
  rw [settings, value_layer, Settings.value_default]

end Discovery

/-- The value that the command line gives to a setting. Four flags each force a value. -/
def Command.Arguments.given? (a : Command.Arguments) : (f : Setting) → Option f.Value
  | .tabWidth => a.tabWidth
  | .useSpaces => if a.useTabs then some false else none
  | .maxBlankLines => a.maxBlankLines
  | .trimExtraSpaces => if a.noTrimSpaces then some false else none
  | .imposeIndent => if a.noIndent then some false else none
  | .preserveContinuation => if a.preserveContinuation then some true else none

theorem Command.Arguments.value?_overrides (a : Command.Arguments) (f : Setting) :
    a.overrides.value? f = a.given? f := by
  cases f <;> rfl

def Directive.given? (text : List Char) (f : Setting) : Option f.Value :=
  (find? text).bind (·.value? f)

theorem Directive.value_adjust (s : Settings) (text : List Char) (f : Setting) :
    (adjust s text).value f = (given? text f).getD (s.value f) := by
  unfold adjust given?
  cases find? text with
  | none => rfl
  | some o => exact o.value_apply s f

namespace Run

open Command

/-- The value that settings files give to a setting: the file named on the command line, or the last
discovered one that has a value for it. -/
def fileValue? (w : World) (a : Arguments) (start : Path) (f : Setting) : Option f.Value :=
  match a.config with
  | some file => Discovery.given? w file f
  | none => (Discovery.files w start).reverse.findSome? (Discovery.given? w · f)

/-- A setting before the directive of a script is looked at. -/
def runValue (w : World) (a : Arguments) (start : Path) (f : Setting) : f.Value :=
  ((a.given? f).or (fileValue? w a start f)).getD f.standard

def scriptValue (w : World) (a : Arguments) (start : Path) (text : List Char) (f : Setting) :
    f.Value :=
  ((Directive.given? text f).or ((a.given? f).or (fileValue? w a start f))).getD f.standard

theorem value_overrides_apply {w : World} {a : Arguments} {start : Path} {s : Settings}
    (h : ∀ f, s.value f = (fileValue? w a start f).getD f.standard) :
    a.overrides.apply s = .ofValues (runValue w a start) := by
  apply Settings.eq_ofValues
  intro f
  rw [Overrides.value_apply, Arguments.value?_overrides, h, runValue, Option.getD_or]

theorem checked_eq_ok_iff {s t : Settings} {notices : List Notice} :
    (match t.fault? with
      | some f => (Except.error (.document (.settings f)), notices)
      | none => (Except.ok t, notices) : Except Failure Settings × List Notice).1 = .ok s ↔
      s = t ∧ s.fault? = none := by
  cases hfault : t.fault? with
  | some f =>
    simp only [reduceCtorEq, false_iff, not_and]
    rintro rfl
    simp [hfault]
  | none =>
    simp only [Except.ok.injEq]
    constructor
    · rintro rfl
      exact ⟨rfl, hfault⟩
    · rintro ⟨rfl, -⟩
      rfl

/-- The settings of a run if no file stands in the way: those that the layers give, unless they are
out of bounds. -/
theorem baseSettings_eq_ok_iff {w : World} {a : Arguments} {start : Path} {s : Settings} :
    (baseSettings w a start).1 = .ok s ↔
      (∀ file, a.config = some file → (Discovery.usable? w file).isSome) ∧
        s = .ofValues (runValue w a start) ∧ s.fault? = none := by
  unfold baseSettings
  cases hconfig : a.config with
  | some file =>
    have hsome := Discovery.isSome_usable? w file
    have hgiven := Discovery.given?_eq w file
    simp only [Option.some.injEq, forall_eq', hsome]
    cases hread : Discovery.readLayer w file with
    | error f => simp [Except.toOption]
    | ok o =>
      have hlayers : a.overrides.apply (o.apply {}) = .ofValues (runValue w a start) := by
        apply value_overrides_apply
        intro f
        rw [Overrides.value_apply, Settings.value_default, fileValue?, hconfig]
        simp only [hgiven, hread]
        rfl
      simp only [hlayers, Except.toOption, Option.isSome_some, true_and]
      exact checked_eq_ok_iff
  | none =>
    have hlayers : a.overrides.apply (Discovery.settings w start).1 =
        .ofValues (runValue w a start) := by
      apply value_overrides_apply
      intro f
      rw [Discovery.value_settings, fileValue?, hconfig]
    simp only [hlayers, reduceCtorEq, false_implies, implies_true, true_and]
    exact checked_eq_ok_iff

theorem value_adjust_base {w : World} {a : Arguments} {start : Path} {s : Settings}
    (h : (baseSettings w a start).1 = .ok s) (text : List Char) (f : Setting) :
    (Directive.adjust s text).value f = scriptValue w a start text f := by
  obtain ⟨-, rfl, -⟩ := baseSettings_eq_ok_iff.mp h
  rw [Directive.value_adjust, Settings.value_ofValues, scriptValue, Option.getD_or, runValue]

theorem baseSettings_eq_error_iff {w : World} {a : Arguments} {start : Path} :
    (∃ e, (baseSettings w a start).1 = .error e) ↔
      (∃ file, a.config = some file ∧ Discovery.usable? w file = none) ∨
        (Settings.ofValues (runValue w a start)).fault? ≠ none := by
  have hdichotomy : (∃ e, (baseSettings w a start).1 = .error e) ↔
      ¬∃ s, (baseSettings w a start).1 = .ok s := by
    cases (baseSettings w a start).1 <;> simp
  rw [hdichotomy]
  constructor
  · intro hnone
    by_cases hfile : ∃ file, a.config = some file ∧ Discovery.usable? w file = none
    · exact .inl hfile
    · refine .inr fun hfault =>
        hnone ⟨_, baseSettings_eq_ok_iff.mpr ⟨fun file hconfig => ?_, rfl, hfault⟩⟩
      have hsome : Discovery.usable? w file ≠ none := fun h => hfile ⟨file, hconfig, h⟩
      exact Option.isSome_iff_ne_none.mpr hsome
  · rintro hfails ⟨s, hs⟩
    obtain ⟨hfile, rfl, hfault⟩ := baseSettings_eq_ok_iff.mp hs
    rcases hfails with ⟨file, hconfig, hnone⟩ | hfails
    · have hsome := hfile file hconfig
      rw [hnone] at hsome
      exact Bool.noConfusion hsome
    · exact hfails hfault

theorem formatted_encode (s : Settings) (p : Path) (text : List Char) :
    formatted s p (Utf8.encode text) =
      ((Document.format (Directive.adjust s text) text).map Utf8.encode).mapError
        fun f => .failed (.document (.settings f)) := by
  simp only [formatted, Utf8.decode_encode]
  cases Document.format (Directive.adjust s text) text <;> rfl

/-- Settings are layered, one by one. If a run has settings, then a script in it is formatted under
the values that its directive gives, that the command line gives, that settings files give, and the
defaults, in this order. A run has none if and only if the file named on the command line cannot be
used or the settings before directives are out of bounds. -/
theorem settings_are_layered (w : World) (a : Arguments) (start : Path) (text : List Char) :
    (∀ s, (baseSettings w a start).1 = .ok s →
      ∃ t : Settings, (∀ f, t.value f = scriptValue w a start text f) ∧
        ∀ p, formatted s p (Utf8.encode text) =
          ((Document.format t text).map Utf8.encode).mapError
            fun f => .failed (.document (.settings f))) ∧
    ((∃ e, (baseSettings w a start).1 = .error e) ↔
      (∃ file, a.config = some file ∧ Discovery.usable? w file = none) ∨
        (Settings.ofValues (runValue w a start)).fault? ≠ none) := by
  refine ⟨?_, baseSettings_eq_error_iff⟩
  intro s hs
  exact ⟨Directive.adjust s text, value_adjust_base hs text, fun p => formatted_encode s p text⟩

def layeredText : List Char := "; ahkfmt: --enable-indent\n".toList

/-- A home directory with a settings file, a second one above the script, and a third one beside the
script that has a value of the wrong sort. -/
def layeredWorld : World where
  tree := { files := [
    (["h".toList, "ahkfmt.toml".toList],
      Utf8.encode "use_spaces = false\ntab_width = 2\nimpose_indent = false\n".toList),
    (["w".toList, "ahkfmt.toml".toList], Utf8.encode "tab_width = 8\n".toList),
    (["w".toList, "x".toList, "ahkfmt.toml".toList], Utf8.encode "tab_width = true\n".toList),
    (["w".toList, "x".toList, "a.ahk".toList], Utf8.encode layeredText)] }
  home := some ⟨"/h".toList⟩

theorem settings_are_layered_layeredWorld :
    ∃ s, (baseSettings layeredWorld { noTrimSpaces := true } ⟨"/w/x/a.ahk".toList⟩).1 = .ok s ∧
      ∀ p, formatted s p (Utf8.encode layeredText) =
        ((Document.format { tabWidth := 8, useSpaces := false, trimExtraSpaces := false }
          layeredText).map Utf8.encode).mapError fun f => .failed (.document (.settings f)) := by
  have hbase : (baseSettings layeredWorld { noTrimSpaces := true } ⟨"/w/x/a.ahk".toList⟩).1 =
      .ok { tabWidth := 8, useSpaces := false, trimExtraSpaces := false, imposeIndent := false } :=
    baseSettings_eq_ok_iff.mpr ⟨(fun _ h => nomatch h), by decide +kernel, by decide⟩
  obtain ⟨t, hvalues, hformatted⟩ := (settings_are_layered layeredWorld { noTrimSpaces := true }
    ⟨"/w/x/a.ahk".toList⟩ layeredText).1 _ hbase
  have ht : t = { tabWidth := 8, useSpaces := false, trimExtraSpaces := false } := by
    rw [Settings.eq_ofValues hvalues]
    decide +kernel
  rw [ht] at hformatted
  exact ⟨_, hbase, hformatted⟩

end Run
end HotkeyScript
