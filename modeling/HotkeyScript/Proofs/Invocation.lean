import HotkeyScript.Proofs.Agreement

/-!
# Command lines for given arguments

The arguments of a run can be written out again: every flag that is set by its name, every value
attached to the name of its parameter, and the inputs behind two hyphens. Whatever the order of the
switches, reading such a command line gives the arguments back. A value is never taken for a switch,
because it is attached, and an input is never taken for one, because the switches have ended.
-/

namespace HotkeyScript
namespace Command

open Numeral

/-- A switch as it is written out: a flag, or a parameter with a value. -/
inductive Item
  | flag (f : Flag)
  | value (p : Parameter) (v : List Char)
  deriving DecidableEq, Repr

namespace Item

def word : Item → List Char
  | .flag f => f.spelled
  | .value p v => p.spelled false ++ '=' :: v

def flag? : Item → Option Flag
  | .flag f => some f
  | .value _ _ => none

def value? (p : Parameter) : Item → Option (List Char)
  | .flag _ => none
  | .value p' v => if p' = p then some v else none

def flags (items : List Item) : List Flag := items.filterMap flag?

def valuesOf (p : Parameter) (items : List Item) : List (List Char) := items.filterMap (value? p)

@[simp] theorem flags_nil : flags [] = [] := rfl

@[simp] theorem flags_flag (f : Flag) (items : List Item) :
    flags (.flag f :: items) = f :: flags items := rfl

@[simp] theorem flags_value (p : Parameter) (v : List Char) (items : List Item) :
    flags (.value p v :: items) = flags items := rfl

@[simp] theorem flags_append (items rest : List Item) :
    flags (items ++ rest) = flags items ++ flags rest :=
  List.filterMap_append

@[simp] theorem valuesOf_nil (p : Parameter) : valuesOf p [] = [] := rfl

@[simp] theorem valuesOf_flag (p : Parameter) (f : Flag) (items : List Item) :
    valuesOf p (.flag f :: items) = valuesOf p items := rfl

@[simp] theorem valuesOf_value (p p' : Parameter) (v : List Char) (items : List Item) :
    valuesOf p (.value p' v :: items) =
      if p' = p then v :: valuesOf p items else valuesOf p items := by
  by_cases h : p' = p <;> simp [valuesOf, value?, h]

@[simp] theorem valuesOf_append (p : Parameter) (items rest : List Item) :
    valuesOf p (items ++ rest) = valuesOf p items ++ valuesOf p rest :=
  List.filterMap_append

theorem flags_map_flag (fs : List Flag) : flags (fs.map .flag) = fs := by
  simp [flags, List.filterMap_map, Function.comp_def, flag?]

theorem flags_map_value (p : Parameter) (vs : List (List Char)) :
    flags (vs.map (.value p)) = [] := by
  simp [flags, List.filterMap_map, Function.comp_def, flag?]

theorem valuesOf_map_flag (p : Parameter) (fs : List Flag) : valuesOf p (fs.map .flag) = [] := by
  simp [valuesOf, List.filterMap_map, Function.comp_def, value?]

theorem valuesOf_map_value (p p' : Parameter) (vs : List (List Char)) :
    valuesOf p (vs.map (.value p')) = if p' = p then vs else [] := by
  by_cases h : p' = p <;> simp [valuesOf, List.filterMap_map, Function.comp_def, value?, h]

end Item

theorem ofWord_injective : Function.Injective ofWord := fun m n h =>
  Option.some.inj (by rw [← word?_ofWord m, h, word?_ofWord])

theorem ofSigned_injective : Function.Injective ofSigned := fun m n h =>
  Option.some.inj (by rw [← signed?_ofSigned m, h, signed?_ofSigned])

theorem Flag.mem_all (f : Flag) : f ∈ Flag.all := by cases f <;> decide

namespace Arguments

open Item

def values (a : Arguments) : Parameter → List (List Char)
  | .tabWidth => a.tabWidth.toList.map ofWord
  | .maxBlankLines => a.maxBlankLines.toList.map ofSigned
  | .config => a.config.toList.map Path.text
  | .exclude => a.exclude
  | .extension => a.extensions
  | .maxLines => a.maxLines.toList.map ofWord
  | .jobs => a.jobs.toList.map ofWord

/-- The items that give some arguments, inputs aside. -/
def items (a : Arguments) : List Item :=
  (Flag.all.filter a.hasFlag).map .flag ++
    Parameter.all.flatMap fun p => (a.values p).map (.value p)

theorem flags_items (a : Arguments) : flags a.items = Flag.all.filter a.hasFlag := by
  simp [items, Parameter.all, flags_map_flag, flags_map_value]

theorem valuesOf_items (a : Arguments) (p : Parameter) : valuesOf p a.items = a.values p := by
  cases p <;> simp [items, Parameter.all, valuesOf_map_flag, valuesOf_map_value]

theorem eq_of_map_toList {α : Type} {x y : Option α} {text : α → List Char}
    (htext : Function.Injective text) (h : x.toList.map text = y.toList.map text) : x = y := by
  cases x <;> cases y <;> simp_all [htext.eq_iff]

theorem eq_of_values {a b : Arguments} (hinputs : a.inputs = b.inputs)
    (hflags : ∀ f, a.hasFlag f = b.hasFlag f) (hvalues : ∀ p, a.values p = b.values p) : a = b := by
  have hpath : Function.Injective Path.text := fun p q h => by
    cases p
    cases q
    exact congrArg Path.mk h
  rw [Arguments.mk.injEq]
  refine ⟨hinputs, eq_of_map_toList ofWord_injective (hvalues .tabWidth), hflags .useTabs,
    eq_of_map_toList ofSigned_injective (hvalues .maxBlankLines), hflags .noTrimSpaces,
    hflags .noIndent, hflags .preserveContinuation, hflags .stdout, hflags .check,
    eq_of_map_toList hpath (hvalues .config), hflags .recursive, hvalues .exclude,
    hvalues .extension, eq_of_map_toList ofWord_injective (hvalues .maxLines), hflags .debug,
    hflags .silent, eq_of_map_toList ofWord_injective (hvalues .jobs)⟩

@[simp] theorem values_withFlag (a : Arguments) (f : Flag) (p : Parameter) :
    (a.withFlag f).values p = a.values p := by
  cases f <;> cases p <;> rfl

@[simp] theorem inputs_withFlag (a : Arguments) (f : Flag) : (a.withFlag f).inputs = a.inputs := by
  cases f <;> rfl

theorem bind_eq_ok {α β : Type} {x : Except Refusal α} {g : α → β} {y : β}
    (h : (do return g (← x)) = Except.ok y) : ∃ z, x = .ok z ∧ y = g z := by
  cases x with
  | error e => cases h
  | ok z => exact ⟨z, rfl, (Except.ok.inj h).symm⟩

theorem addValue_frame {a b : Arguments} {p : Parameter} {v : List Char}
    (h : a.addValue v p = .ok b) :
    b.inputs = a.inputs ∧ (∀ f, b.hasFlag f = a.hasFlag f) ∧
      ∀ p', p' ≠ p → b.values p' = a.values p' := by
  cases p
  case exclude | extension =>
    cases h
    exact ⟨rfl, fun f => by cases f <;> rfl, fun p' hp => by cases p' <;> simp_all [values]⟩
  all_goals
    obtain ⟨x, -, rfl⟩ := bind_eq_ok h
    exact ⟨rfl, fun f => by cases f <;> rfl, fun p' hp => by cases p' <;> simp_all [values]⟩

/-- A parameter that is given at most once takes the value of other arguments, of which nothing has
been taken yet. -/
theorem exists_once {α : Type} (read : List Char → Except Refusal α) {x y : Option α}
    {text : α → List Char} (hread : ∀ n ∈ x, read (text n) = .ok n) {v : List Char}
    {before rest : List (List Char)}
    (hx : x.toList.map text = before ++ v :: rest) (hy : y.toList.map text = before) :
    ∃ n, once y (read v) = .ok (some n) ∧ [text n] = before ++ [v] := by
  cases x with
  | none => simp at hx
  | some n =>
    obtain ⟨rfl, rfl, -⟩ : before = [] ∧ v = text n ∧ rest = [] := by
      cases before <;> simp_all
    have hnone : y = none := by simpa using hy
    refine ⟨n, ?_, rfl⟩
    rw [once, hnone, hread n rfl]
    rfl

theorem exists_addValue {a b : Arguments} (hb : ∀ p ∈ b.config, p.text ≠ []) {p : Parameter}
    {v : List Char} {rest : List (List Char)} (h : b.values p = a.values p ++ v :: rest) :
    ∃ a', a.addValue v p = .ok a' ∧ a'.values p = a.values p ++ [v] := by
  have hword : ∀ n : UInt64, number (word? (ofWord n)) = .ok n := fun n => by
    rw [word?_ofWord]
    rfl
  have hsigned : ∀ n : Int32, number (signed? (ofSigned n)) = .ok n := fun n => by
    rw [signed?_ofSigned]
    rfl
  cases p with
  | exclude => exact ⟨_, rfl, rfl⟩
  | extension => exact ⟨_, rfl, rfl⟩
  | tabWidth =>
    obtain ⟨n, hn, hv⟩ := exists_once (fun v => number (word? v)) (fun n _ => hword n) h rfl
    exact ⟨{ a with tabWidth := some n }, by simp only [addValue, hn]; rfl, hv⟩
  | maxBlankLines =>
    obtain ⟨n, hn, hv⟩ := exists_once (fun v => number (signed? v)) (fun n _ => hsigned n) h rfl
    exact ⟨{ a with maxBlankLines := some n }, by simp only [addValue, hn]; rfl, hv⟩
  | config =>
    obtain ⟨n, hn, hv⟩ := exists_once path (fun p hp => if_neg (hb p hp)) h rfl
    exact ⟨{ a with config := some n }, by simp only [addValue, hn]; rfl, hv⟩
  | maxLines =>
    obtain ⟨n, hn, hv⟩ := exists_once (fun v => number (word? v)) (fun n _ => hword n) h rfl
    exact ⟨{ a with maxLines := some n }, by simp only [addValue, hn]; rfl, hv⟩
  | jobs =>
    obtain ⟨n, hn, hv⟩ := exists_once (fun v => number (word? v)) (fun n _ => hword n) h rfl
    exact ⟨{ a with jobs := some n }, by simp only [addValue, hn]; rfl, hv⟩

structure Holds (a : Arguments) (items : List Item) : Prop where
  inputs : a.inputs = []
  flags : ∀ f, a.hasFlag f = true ↔ f ∈ flags items
  values : ∀ p, a.values p = valuesOf p items

end Arguments

namespace Reading

open Item Arguments

theorem splitName_attached {name : List Char} (h : '=' ∉ name) (v : List Char) :
    splitName (name ++ '=' :: v) = (name, some v) := by
  have htake : (name ++ '=' :: v).takeWhile (· != '=') = name := by
    rw [List.takeWhile_append_of_pos, List.takeWhile_cons_of_neg (by simp), List.append_nil]
    intro c hc
    simpa using fun he : c = '=' => h (he ▸ hc)
  have hdrop : (name ++ '=' :: v).drop (name.length + 1) = v := by
    rw [List.drop_append]
    simp
  simp [splitName, htake, hdrop]

theorem read_item_flag {a : Arguments} {f : Flag} (hf : a.hasFlag f = false) :
    read { args := a } (word (.flag f)) = .ok { args := a.withFlag f } := by
  rw [Item.word, read_flag rfl]
  simp only [addFlag, settle, bind, Except.bind, Arguments.addFlag, hf]
  rfl

theorem read_item_value {a b : Arguments} {p : Parameter} {v : List Char}
    (h : a.addValue v p = .ok b) : read { args := a } (word (.value p v)) = .ok { args := b } := by
  have hsplit : splitName (p.name.toList ++ '=' :: v) = (p.name.toList, some v) :=
    splitName_attached (by cases p <;> decide) v
  have hswitch : Switch.ofName? p.name.toList = some (.parameter p) :=
    Switch.ofName?_name (.parameter p)
  show read { args := a } ('-' :: '-' :: (p.name.toList ++ '=' :: v)) = _
  rw [read_name rfl (by simp)]
  simp only [readName, hsplit, hswitch, addValue, settle, bind, Except.bind, h]
  rfl

/-- One item more. What is still to come is in `rest`; the values of a parameter are taken in the
order in which the arguments `b` have them. -/
theorem exists_read_item {a b : Arguments} (hb : ∀ p ∈ b.config, p.text ≠ [])
    {before rest : List Item} {item : Item} (ha : a.Holds before)
    (hflags : (flags (before ++ item :: rest)).Nodup)
    (hvalues : ∀ p, valuesOf p (before ++ item :: rest) = b.values p) :
    ∃ a', read { args := a } item.word = .ok { args := a' } ∧ a'.Holds (before ++ [item]) := by
  cases item with
  | flag f =>
    have hf : a.hasFlag f = false := by
      rw [flags_append] at hflags
      refine eq_false_of_ne_true fun h => ?_
      exact (List.nodup_append.mp hflags).2.2 f ((ha.flags f).mp h) f List.mem_cons_self rfl
    refine ⟨a.withFlag f, read_item_flag hf, ?_⟩
    constructor
    · rw [inputs_withFlag, ha.inputs]
    · intro g
      simp [ha.flags g, or_comm]
    · intro p
      simp [ha.values p]
  | value p v =>
    have hnext : b.values p = a.values p ++ v :: valuesOf p rest := by
      rw [← hvalues p, ha.values p]
      simp
    obtain ⟨a', hread, hp⟩ := exists_addValue hb hnext
    obtain ⟨hinputs, hkept, hothers⟩ := addValue_frame hread
    refine ⟨a', read_item_value hread, ?_⟩
    constructor
    · rw [hinputs, ha.inputs]
    · intro f
      simp [hkept f, ha.flags f]
    · intro p'
      by_cases h : p' = p
      · simp [h, hp, ha.values p]
      · simp [hothers p' h, ha.values p', Ne.symm h]

theorem exists_read_items {a b : Arguments} (hb : ∀ p ∈ b.config, p.text ≠ [])
    (before : List Item) {rest : List Item} (ha : a.Holds before)
    (hflags : (flags (before ++ rest)).Nodup)
    (hvalues : ∀ p, valuesOf p (before ++ rest) = b.values p) :
    ∃ a', (rest.map Item.word).foldlM read { args := a } = .ok { args := a' } ∧
      a'.Holds (before ++ rest) := by
  induction rest generalizing a before with
  | nil => exact ⟨a, rfl, by rwa [List.append_nil]⟩
  | cons item rest ih =>
    obtain ⟨a', hread, ha'⟩ := exists_read_item hb ha hflags hvalues
    rw [List.append_cons] at hflags ⊢
    obtain ⟨a'', hrest, ha''⟩ := ih (before ++ [item]) ha' hflags fun p => by
      rw [← List.append_cons, hvalues p]
    refine ⟨a'', ?_, ha''⟩
    rw [List.map_cons, List.foldlM_cons, hread]
    exact hrest

theorem read_inputs (a : Arguments) (us vs : List (List Char)) :
    vs.foldlM read { args := a, pending := .inputs us, ended := true } =
      .ok { args := a, pending := .inputs (us ++ vs), ended := true } := by
  induction vs generalizing us with
  | nil => rw [List.append_nil]; rfl
  | cons v vs ih =>
    rw [List.foldlM_cons, List.append_cons]
    exact ih (us ++ [v])

theorem addInputs_texts (a : Arguments) {ps : List Path} (hps : ∀ p ∈ ps, p.text ≠ []) :
    a.addInputs (ps.map Path.text) = .ok { a with inputs := a.inputs ++ ps } := by
  have hpaths : (ps.map Path.text).mapM path = .ok ps := by
    induction ps with
    | nil => rfl
    | cons p ps ih =>
      have hp : path p.text = .ok p := if_neg (hps p List.mem_cons_self)
      rw [List.map_cons, List.mapM_cons, hp, ih fun q hq => hps q (List.mem_cons_of_mem p hq)]
      rfl
  rw [addInputs, hpaths]
  rfl

theorem exists_read_ended (a : Arguments) {ps : List Path} (hps : ∀ p ∈ ps, p.text ≠ []) :
    ∃ r : Reading, (['-', '-'] :: ps.map Path.text).foldlM read { args := a } = .ok r ∧
      r.settle = .ok { a with inputs := a.inputs ++ ps } := by
  cases ps with
  | nil => exact ⟨{ args := a, ended := true }, rfl, by rw [List.append_nil]; rfl⟩
  | cons p ps =>
    refine ⟨_, read_inputs a [p.text] (ps.map Path.text), ?_⟩
    exact addInputs_texts a hps

end Reading

namespace Arguments

open Item

/-- Items that give the arguments `a`, in any order in which the values of a parameter that may be
repeated come as `a` has them. -/
structure Lists (items : List Item) (a : Arguments) : Prop where
  perm : items.Perm a.items
  exclude : valuesOf .exclude items = a.exclude
  extension : valuesOf .extension items = a.extensions

theorem Lists.nodup_flags {items : List Item} {a : Arguments} (h : Lists items a) :
    (flags items).Nodup := by
  have hperm : (flags items).Perm (Flag.all.filter a.hasFlag) := by
    rw [← flags_items]
    exact h.perm.filterMap flag?
  have hall : Flag.all.Nodup := by decide
  exact hperm.nodup_iff.mpr (hall.filter _)

theorem Lists.mem_flags {items : List Item} {a : Arguments} (h : Lists items a) (f : Flag) :
    f ∈ flags items ↔ a.hasFlag f = true := by
  have hperm : (flags items).Perm (flags a.items) := h.perm.filterMap flag?
  rw [hperm.mem_iff, flags_items, List.mem_filter]
  exact and_iff_right (Flag.mem_all f)

/-- A parameter that may not be repeated has one value at most, so its order is no question. -/
theorem Lists.valuesOf_eq {items : List Item} {a : Arguments} (h : Lists items a)
    (p : Parameter) : valuesOf p items = a.values p := by
  have hperm : (valuesOf p items).Perm (a.values p) := by
    rw [← valuesOf_items]
    exact h.perm.filterMap (value? p)
  have honce : (a.values p).length ≤ 1 → valuesOf p items = a.values p := by
    intro hlength
    match hvs : a.values p with
    | [] => exact List.perm_nil.mp (hvs ▸ hperm)
    | [v] => exact List.perm_singleton.mp (hvs ▸ hperm)
    | _ :: _ :: _ => simp [hvs] at hlength
  cases p with
  | exclude => exact h.exclude
  | extension => exact h.extension
  | tabWidth => exact honce (by cases h : a.tabWidth <;> simp [values, h])
  | maxBlankLines => exact honce (by cases h : a.maxBlankLines <;> simp [values, h])
  | config => exact honce (by cases h : a.config <;> simp [values, h])
  | maxLines => exact honce (by cases h : a.maxLines <;> simp [values, h])
  | jobs => exact honce (by cases h : a.jobs <;> simp [values, h])

/-- What the items of `a` give, with the inputs of `a`, is `a`. -/
theorem Holds.eq_of_lists {a b : Arguments} {items : List Item} (hb : b.Holds items)
    (h : Lists items a) : { b with inputs := b.inputs ++ a.inputs } = a := by
  apply eq_of_values
  · rw [hb.inputs, List.nil_append]
  · intro f
    have hf : b.hasFlag f = a.hasFlag f := by
      rw [Bool.eq_iff_iff, hb.flags f, h.mem_flags f]
    rw [← hf]
    cases f <;> rfl
  · intro p
    rw [← h.valuesOf_eq p, ← hb.values p]
    cases p <;> rfl

def invocation (items : List Item) (inputs : List Path) : List (List Char) :=
  items.map Item.word ++ ['-', '-'] :: inputs.map Path.text

/-- Arguments are read back from every command line that is written for them, whatever the order of
the switches, unless they ask both to check and to print, or have an empty path. -/
theorem parse_invocation {a : Arguments} {items : List Item} (hitems : Lists items a)
    (hmode : ¬(a.check = true ∧ a.stdout = true)) (hinputs : ∀ p ∈ a.inputs, p.text ≠ [])
    (hconfig : ∀ p ∈ a.config, p.text ≠ []) : parse (invocation items a.inputs) = .ok a := by
  have hempty : Holds {} [] := by
    constructor
    · rfl
    · intro f
      cases f <;> simp [hasFlag]
    · intro p
      cases p <;> rfl
  obtain ⟨b, hread, hb⟩ := Reading.exists_read_items hconfig [] hempty hitems.nodup_flags
    hitems.valuesOf_eq
  obtain ⟨r, hended, hsettle⟩ := Reading.exists_read_ended b hinputs
  rw [hb.eq_of_lists hitems] at hsettle
  have hrun : (invocation items a.inputs).foldlM Reading.read {} = .ok r := by
    rw [invocation, List.foldlM_append, hread]
    exact hended
  have hboth : (a.check && a.stdout) = false := by simpa using hmode
  simp only [parse, hrun, bind, Except.bind, hsettle, hboth]
  rfl

/-- Numbers at the ends of their ranges, and values and inputs that look like switches. -/
def lookalikes : Arguments where
  inputs := ["--", "-", "-t", "--check", "--exclude=x"].map Path.ofString
  tabWidth := some 18446744073709551615
  maxBlankLines := some (-2147483648)
  check := true
  config := some (Path.ofString "-=x")
  exclude := ["--stdout", "a=b", "--stdout"].map String.toList
  extensions := ["--", "-"].map String.toList
  debug := true
  jobs := some 0

def mixedItems : List Item :=
  [.value .exclude "--stdout".toList, .flag .debug, .value .extension "--".toList,
    .value .jobs "0".toList, .value .exclude "a=b".toList,
    .value .maxBlankLines "-2147483648".toList, .flag .check, .value .exclude "--stdout".toList,
    .value .extension "-".toList, .value .tabWidth "18446744073709551615".toList,
    .value .config "-=x".toList]

theorem parse_invocation_lookalikes :
    parse (["--exclude=--stdout", "--debug", "--ext=--", "--jobs=0", "--exclude=a=b",
      "--max-blank-lines=-2147483648", "--check", "--exclude=--stdout", "--ext=-",
      "--tab-width=18446744073709551615", "--config=-=x", "--", "--", "-", "-t", "--check",
      "--exclude=x"].map String.toList) = .ok lookalikes := by
  have hitems : Lists mixedItems lookalikes := by
    constructor <;> decide +kernel
  have hparse := parse_invocation hitems (by decide) (by decide) (by decide)
  rw [← hparse]
  exact congrArg parse (by decide +kernel)

end Arguments
end Command
end HotkeyScript
