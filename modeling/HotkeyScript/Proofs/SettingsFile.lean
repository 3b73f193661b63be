import HotkeyScript.Proofs.Layers

/-!
# Settings as a file

Settings are read from a file in two ways: as a layer that leaves missing names open and is put on
top of the defaults, and as complete settings where a missing name takes its default. The two ways
accept the same files and read the same settings from them. A file that was written from settings is
read back as these settings: each line as one pair, numbers and truth values as they are spelled.
-/

namespace HotkeyScript

theorem Toml.Table.fieldD_eq {α : Type} (t : Table) (name : String) (read : Node → Option α)
    (default : α) : t.fieldD name read default = (t.field? name read).map (·.getD default) := by
  unfold fieldD field?
  cases t.get? name.toList with
  | none => rfl
  | some n => cases h : read n <;> simp [h]

theorem Settings.ofTable?_eq (t : Toml.Table) :
    ofTable? t = (Overrides.ofTable? t).map (·.apply {}) := by
  simp only [ofTable?, Overrides.ofTable?, Toml.Table.fieldD_eq, bind, Option.bind_map,
    Option.map_bind, Function.comp_def]
  rfl

theorem Settings.ofText?_eq_ofLayer? (text : List Char) : ofText? text = ofLayer? text := by
  unfold ofText? ofLayer? Overrides.ofText?
  cases Toml.parse? text with
  | none => rfl
  | some t => exact ofTable?_eq t

namespace Numeral

theorem head?_ofNat {n : Nat} (hn : n ≠ 0) : (ofNat n).head? ≠ some '0' := by
  induction n using Nat.strongRecOn with
  | _ n ih =>
    rw [ofNat, Nat.toDigits_eq_if (by decide)]
    split
    · next hlt =>
      have hdigit : ∀ d < 10, d ≠ 0 → Nat.digitChar d ≠ '0' := by decide
      simpa using hdigit n hlt hn
    · next hle =>
      obtain ⟨c, s, hc, -⟩ := ofNat_head_isDigit (n / 10)
      have hrest := ih (n / 10) (by omega) (by omega)
      rw [hc] at hrest
      rw [← ofNat, hc]
      simpa using hrest

theorem ofInt_eq (n : Int) : ofInt n = (if n < 0 then ['-'] else []) ++ ofNat n.natAbs := by
  cases n with
  | ofNat k => rfl
  | negSucc k => rw [if_pos (Int.negSucc_lt_zero k)]; rfl

theorem ofInt_head (n : Int) : ∃ c s, ofInt n = c :: s ∧ (c = '-' ∨ c.isDigit = true) := by
  rw [ofInt_eq]
  split
  · exact ⟨'-', _, rfl, .inl rfl⟩
  · obtain ⟨c, s, hs, hc⟩ := ofNat_head_isDigit n.natAbs
    exact ⟨c, s, hs, .inr hc⟩

end Numeral

namespace Toml

open Numeral

section

variable {ds rest : List Char}

theorem moreDigits_append (hds : ∀ c ∈ ds, c.isDigit = true) :
    moreDigits Char.isDigit (ds ++ '\n' :: rest) = (ds, '\n' :: rest) := by
  induction ds with
  | nil => simp [moreDigits]
  | cons c ds ih =>
    have hc : c.isDigit = true := hds c (by simp)
    have hunder : c ≠ '_' := Text.ne_of_class hc (by decide)
    have hrest := ih fun d hd => hds d (by simp [hd])
    simp [moreDigits, hunder, hc, hrest]

theorem decimal?_ofNat (n : Nat) (rest : List Char) :
    decimal? (ofNat n ++ '\n' :: rest) = some (ofNat n, '\n' :: rest) := by
  by_cases hn : n = 0
  · rw [hn]
    rfl
  · obtain ⟨c, s, hs, hc⟩ := ofNat_head_isDigit n
    have hzero : c ≠ '0' := by
      have hhead := head?_ofNat hn
      simpa [hs] using hhead
    have hmore : moreDigits Char.isDigit (s ++ '\n' :: rest) = (s, '\n' :: rest) := by
      refine moreDigits_append fun d hd => ofNat_isDigit (n := n) ?_
      simp [hs, hd]
    simp [hs, decimal?, hzero, digits?, hc, hmore]

theorem sign_ofInt (n : Int) (rest : List Char) :
    sign (ofInt n ++ rest) = (decide (n < 0), ofNat n.natAbs ++ rest) := by
  rw [ofInt_eq]
  by_cases hn : n < 0
  · simp [hn, sign]
  · obtain ⟨c, s, hs, hc⟩ := ofNat_head_isDigit n.natAbs
    have hplus : c ≠ '+' := Text.ne_of_class hc (by decide)
    have hminus : c ≠ '-' := Text.ne_of_class hc (by decide)
    simp [hn, hs, sign, hplus, hminus]

/-- A field of a date or time takes digits and leaves the rest of them. -/
theorem exists_of_field?_digits (hds : ∀ c ∈ ds, c.isDigit = true) {n lo hi : Nat}
    {p : Nat × List Char} (h : field? n lo hi (ds ++ '\n' :: rest) = some p) :
    ∃ es, p.2 = es ++ '\n' :: rest ∧ ∀ c ∈ es, c.isDigit = true := by
  simp only [field?] at h
  split at h
  · next hs =>
    cases h
    have hdigits := List.all_eq_true.mp hs.2.1
    by_cases hn : n ≤ ds.length
    · exact ⟨ds.drop n, List.drop_append_of_le_length hn,
        fun c hc => hds c (List.mem_of_mem_drop hc)⟩
    · have hfeed : '\n' ∈ (ds ++ '\n' :: rest).take n := by
        obtain ⟨k, hk⟩ := Nat.exists_eq_add_of_lt (Nat.lt_of_not_le hn)
        rw [hk, Nat.add_assoc, List.take_length_add_append]
        simp
      exact absurd (hdigits '\n' hfeed) (by decide)
  · cases h

theorem expect_digits {c : Char} (hc : c.isDigit = false) (hfeed : c ≠ '\n')
    (hds : ∀ c ∈ ds, c.isDigit = true) : expect [c] (ds ++ '\n' :: rest) = none := by
  cases ds with
  | nil => simp [expect, hfeed]
  | cons d ds =>
    have hd : d ≠ c := Text.ne_of_class (hds d (by simp)) hc
    simp [expect, Ne.symm hd]

theorem datetime?_digits (hds : ∀ c ∈ ds, c.isDigit = true) :
    datetime? (ds ++ '\n' :: rest) = none := by
  have hdate : date? (ds ++ '\n' :: rest) = none := by
    unfold date?
    cases h : field? 4 0 9999 (ds ++ '\n' :: rest) with
    | none => rfl
    | some p =>
      obtain ⟨es, hp, hes⟩ := exists_of_field?_digits hds h
      have hexpect : expect ['-'] p.2 = none := hp ▸ expect_digits (by decide) (by decide) hes
      simp [bind, hexpect]
  have htime : time? (ds ++ '\n' :: rest) = none := by
    unfold time?
    cases h : field? 2 0 23 (ds ++ '\n' :: rest) with
    | none => rfl
    | some p =>
      obtain ⟨es, hp, hes⟩ := exists_of_field?_digits hds h
      have hexpect : expect [':'] p.2 = none := hp ▸ expect_digits (by decide) (by decide) hes
      simp [bind, hexpect]
  simp [datetime?, hdate, htime]

theorem datetime?_minus (s : List Char) : datetime? ('-' :: s) = none := by
  have hfield : ∀ n lo hi, field? (n + 1) lo hi ('-' :: s) = none := by
    intro n lo hi
    simp [field?]
  simp [datetime?, date?, time?, hfield, bind]

theorem decimalFloat?_ofInt (n : Int) : decimalFloat? (ofInt n ++ '\n' :: rest) = none := by
  simp [decimalFloat?, sign_ofInt, decimal?_ofNat, fraction?, exponent?, bind]

theorem specialFloat?_ofInt (n : Int) : specialFloat? (ofInt n ++ '\n' :: rest) = none := by
  obtain ⟨c, s, hs, hc⟩ := ofNat_head_isDigit n.natAbs
  have hi : c ≠ 'i' := Text.ne_of_class hc (by decide)
  have hn : c ≠ 'n' := Text.ne_of_class hc (by decide)
  simp [specialFloat?, sign_ofInt, hs, expect, Ne.symm hi, Ne.symm hn]

theorem decimalInteger?_ofInt {n : Int} (hn : bounded n = some n) :
    decimalInteger? (ofInt n ++ '\n' :: rest) = some (n, '\n' :: rest) := by
  have hvalue : (Nat.ofDigitChars 10 (ofNat n.natAbs) 0 : Int) = n.natAbs := by
    rw [ofNat, Nat.ofDigitChars_ten_toDigits]
  have hsigned : (if decide (n < 0) = true then -(n.natAbs : Int) else n.natAbs) = n := by
    split
    · next hneg =>
      rw [decide_eq_true_eq] at hneg
      omega
    · next hneg =>
      rw [decide_eq_true_eq] at hneg
      omega
  simp only [decimalInteger?, sign_ofInt, decimal?_ofNat, bind, Option.bind_some, hvalue, hsigned,
    hn]
  rfl

theorem integer?_ofInt {n : Int} (hn : bounded n = some n) :
    integer? (ofInt n ++ '\n' :: rest) = some (n, '\n' :: rest) := by
  rw [← decimalInteger?_ofInt hn]
  by_cases hzero : n = 0
  · rw [hzero]
    rfl
  · have hhead : (ofInt n ++ '\n' :: rest).head? ≠ some '0' := by
      rw [ofInt_eq]
      split
      · simp
      · have hne := head?_ofNat (Int.natAbs_ne_zero.mpr hzero)
        obtain ⟨c, s, hs, -⟩ := ofNat_head_isDigit n.natAbs
        simpa [hs] using hne
    unfold integer?
    split
    · next hs => simp [hs] at hhead
    · next hs => simp [hs] at hhead
    · next hs => simp [hs] at hhead
    · rfl

/-- A number without a point or an exponent is an integer, and no date. -/
theorem number?_ofInt {n : Int} (hn : bounded n = some n) :
    number? (ofInt n ++ '\n' :: rest) = some (.integer n, '\n' :: rest) := by
  have hdate : datetime? (ofInt n ++ '\n' :: rest) = none := by
    rw [ofInt_eq]
    split
    · exact datetime?_minus _
    · exact datetime?_digits fun c hc => ofNat_isDigit hc
  simp [number?, hdate, decimalFloat?_ofInt, specialFloat?_ofInt, integer?_ofInt hn]

theorem value?_ofInt {n : Int} (hn : bounded n = some n) (depth : Nat) :
    value? (depth + 1) (ofInt n ++ '\n' :: rest) = some (.integer n, '\n' :: rest) := by
  obtain ⟨c, s, hs, hc⟩ := ofInt_head n
  have hne : c ≠ '[' ∧ c ≠ '{' ∧ c ≠ '"' ∧ c ≠ '\'' ∧ c ≠ 't' ∧ c ≠ 'f' := by
    rcases hc with rfl | hc
    · decide
    · refine ⟨?_, ?_, ?_, ?_, ?_, ?_⟩ <;> exact Text.ne_of_class hc (by decide)
  have hnumber : number? (c :: (s ++ '\n' :: rest)) = _ := hs ▸ number?_ofInt hn
  simp [hs, value?, scalar?, hne, hnumber]

theorem value?_boolText (b : Bool) (depth : Nat) :
    value? (depth + 1) (Settings.boolText b ++ '\n' :: rest) =
      some (.boolean b, '\n' :: rest) := by
  cases b <;> rfl

end

/-- Items that are read one after another until no further one can be read. -/
inductive Reads {α : Type} (item : Reader α) : List α → List Char → List Char → Prop
  | done {s : List Char} (h : item s = none) : Reads item [] s s
  | next {a : α} {as : List α} {s r t : List Char} (h : item s = some (a, r))
      (hrest : Reads item as r t) : Reads item (a :: as) s t

theorem Reads.manyAlong_eq {α : Type} {item : Reader α} {as : List α} {s t : List Char}
    (h : Reads item as s t) {fuel : List Char} (hfuel : as.length ≤ fuel.length) :
    manyAlong item fuel s = (as, t) := by
  induction h generalizing fuel with
  | done h => cases fuel <;> simp [manyAlong, h]
  | next h _ ih =>
    cases fuel with
    | nil => simp at hfuel
    | cons c fuel => simp [manyAlong, h, ih (Nat.le_of_succ_le_succ hfuel)]

theorem skipSpace_bare {c : Char} (hc : isBareChar c = true) (s : List Char) :
    skipSpace (c :: s) = c :: s := by
  have hspace : c ≠ ' ' := Text.ne_of_class hc (by decide)
  have htab : c ≠ '\t' := Text.ne_of_class hc (by decide)
  simp [skipSpace, isSpace, hspace, htab]

theorem key?_bare {name : List Char} (hne : name ≠ []) (hname : ∀ c ∈ name, isBareChar c = true)
    (r : List Char) : key? (name ++ ' ' :: '=' :: r) = some ([name], '=' :: r) := by
  obtain ⟨c, cs, rfl⟩ := List.exists_cons_of_ne_nil hne
  have hc : isBareChar c = true := hname c (by simp)
  have htake : (c :: cs ++ ' ' :: '=' :: r).takeWhile isBareChar = c :: cs := by
    rw [List.takeWhile_append_of_pos hname, List.takeWhile_cons_of_neg (by decide), List.append_nil]
  have hdrop : (c :: cs ++ ' ' :: '=' :: r).dropWhile isBareChar = ' ' :: '=' :: r := by
    rw [List.dropWhile_append_of_pos hname, List.dropWhile_cons_of_neg (by decide)]
  have hsimple : simpleKey? (c :: cs ++ ' ' :: '=' :: r) = some (c :: cs, ' ' :: '=' :: r) := by
    unfold simpleKey?
    split
    · next h => exact absurd (List.cons.inj h).1 (Text.ne_of_class hc (by decide))
    · next h => exact absurd (List.cons.inj h).1 (Text.ne_of_class hc (by decide))
    · rw [htake, hdrop]
      rfl
  have hpart : keyPart? (c :: cs ++ ' ' :: '=' :: r) = some (c :: cs, '=' :: r) := by
    rw [keyPart?, List.cons_append, skipSpace_bare hc, ← List.cons_append, hsimple]
    rfl
  simp only [key?, hpart, bind, Option.bind_some]
  rfl

theorem statement?_pairLine {name : String} {value rest : List Char} {v : Value}
    (hne : name.toList ≠ []) (hbare : name.toList.all isBareChar = true)
    (hspace : skipSpace (value ++ '\n' :: rest) = value ++ '\n' :: rest)
    (hv : value? (nestingBound - 1) (value ++ '\n' :: rest) = some (v, '\n' :: rest)) :
    statement? (Settings.pairLine name value ++ rest) = some (.pair [name.toList] v, rest) := by
  have hname : ∀ c ∈ name.toList, isBareChar c = true := List.all_eq_true.mp hbare
  have hline : Settings.pairLine name value ++ rest =
      name.toList ++ ' ' :: '=' :: ' ' :: (value ++ '\n' :: rest) := by
    simp [Settings.pairLine]
  have hpair : pair? (name.toList ++ ' ' :: '=' :: ' ' :: (value ++ '\n' :: rest)) =
      some (.pair [name.toList] v, rest) := by
    have hskip : skipSpace (' ' :: (value ++ '\n' :: rest)) = value ++ '\n' :: rest := hspace
    have hexpect : expect ['='] ('=' :: ' ' :: (value ++ '\n' :: rest)) =
      some (' ' :: (value ++ '\n' :: rest)) := rfl
    simp only [pair?, key?_bare hne hname, bind, Option.bind_some, hexpect, hskip, hv]
    rfl
  obtain ⟨c, cs, hcs⟩ := List.exists_cons_of_ne_nil hne
  have hc : isBareChar c = true := hname c (by simp [hcs])
  rw [hline, ← hpair, hcs, List.cons_append, statement?, skipSpace_bare hc]
  split
  · next h => cases h
  · next h => exact absurd (List.cons.inj h).1 (Text.ne_of_class hc (by decide))
  · next h => exact absurd (List.cons.inj h).1 (Text.ne_of_class hc (by decide))
  · next h =>
    cases h
    have hfeed : c ≠ '\n' := Text.ne_of_class hc (by decide)
    have hreturn : c ≠ '\r' := Text.ne_of_class hc (by decide)
    simp [hfeed, hreturn]

theorem Table.addPairs_plain {t : Table} (ht : t.dotted = false) {ps : List (Key × Value)}
    (hps : (t.entries.map Prod.fst ++ ps.map Prod.fst).Nodup) :
    t.addPairs (ps.map fun p => ([p.1], p.2)) =
      some { t with entries := t.entries ++ ps.map fun p => (p.1, .value p.2) } := by
  induction ps generalizing t with
  | nil => simp [addPairs]
  | cons p ps ih =>
    obtain ⟨k, v⟩ := p
    have hk : ∀ e ∈ t.entries, k ≠ e.1 := by
      intro e he hke
      have hdisjoint := (List.nodup_append.mp hps).2.2 e.1 (List.mem_map_of_mem he) k (by simp)
      exact hdisjoint hke.symm
    have hget : t.get? k = none := List.lookup_eq_none_iff.mpr fun e he => by simpa using hk e he
    have hput : t.put k (.value v) = { t with entries := t.entries ++ [(k, .value v)] } := by
      have hfilter : t.entries.filter (fun e => e.1 != k) = t.entries :=
        List.filter_eq_self.mpr fun e he => by simpa using Ne.symm (hk e he)
      rw [put, hfilter]
    have hadd : t.addPair [] k v = some (t.put k (.value v)) := by
      simp [addPair, modify, ht, hget]
    have hrest := ih (t := { t with entries := t.entries ++ [(k, .value v)] }) ht
      (by simpa using hps)
    rw [List.map_cons, addPairs]
    simpa [splitLast, hadd, hput, bind] using hrest

end Toml

namespace Setting

def write : (f : Setting) → f.Value → List Char
  | .tabWidth, n => Numeral.ofWord n
  | .maxBlankLines, n => Numeral.ofSigned n
  | .useSpaces, b | .trimExtraSpaces, b | .imposeIndent, b | .preserveContinuation, b =>
    Settings.boolText b

def toml : (f : Setting) → f.Value → Toml.Value
  | .tabWidth, n => .integer n.toNat
  | .maxBlankLines, n => .integer n.toInt
  | .useSpaces, b | .trimExtraSpaces, b | .imposeIndent, b | .preserveContinuation, b => .boolean b

theorem read_toml (f : Setting) (v : f.Value) : f.read (.value (f.toml v)) = some v := by
  cases f with
  | tabWidth => exact Numeral.word_toNat v
  | maxBlankLines => exact Numeral.signed_toInt v
  | _ => rfl

end Setting

namespace Settings

open Toml

variable {s : Settings}

def line (s : Settings) (f : Setting) : List Char := pairLine f.key (f.write (s.value f))

theorem toText_eq (s : Settings) : s.toText = Setting.all.flatMap s.line := by
  simp [toText, Setting.all, line, Setting.key, Setting.write, value]

def pair (s : Settings) (f : Setting) : Key × Value := (f.key.toList, f.toml (s.value f))

def statement (s : Settings) (f : Setting) : Statement := .pair [(s.pair f).1] (s.pair f).2

theorem value?_write (h : s.tabWidth.toNat ≤ Int64.maxValue.toInt) (f : Setting)
    (rest : List Char) :
    value? (nestingBound - 1) (f.write (s.value f) ++ '\n' :: rest) =
      some (f.toml (s.value f), '\n' :: rest) := by
  cases f with
  | tabWidth =>
    have hmin : Int64.minValue.toInt ≤ 0 := by decide
    exact value?_ofInt (if_pos ⟨Int.le_trans hmin (Int.natCast_nonneg _), h⟩) _
  | maxBlankLines =>
    have hmin : Int64.minValue.toInt ≤ Int32.minValue.toInt := by decide
    have hmax : Int32.maxValue.toInt ≤ Int64.maxValue.toInt := by decide
    exact value?_ofInt (if_pos ⟨Int.le_trans hmin s.maxBlankLines.minValue_le_toInt,
      Int.le_trans s.maxBlankLines.toInt_le hmax⟩) _
  | useSpaces => exact value?_boolText _ _
  | trimExtraSpaces => exact value?_boolText _ _
  | imposeIndent => exact value?_boolText _ _
  | preserveContinuation => exact value?_boolText _ _

theorem write_head (f : Setting) (v : f.Value) :
    ∃ c r, f.write v = c :: r ∧ isBareChar c = true := by
  have hint : ∀ n : Int, ∃ c r, Numeral.ofInt n = c :: r ∧ isBareChar c = true := by
    intro n
    obtain ⟨c, r, hr, hc⟩ := Numeral.ofInt_head n
    refine ⟨c, r, hr, ?_⟩
    rcases hc with rfl | hc
    · decide
    · simp [isBareChar, Char.isAlphanum, hc]
  have hbool : ∀ b : Bool, ∃ c r, boolText b = c :: r ∧ isBareChar c = true := by
    intro b
    cases b
    · exact ⟨'f', _, rfl, by decide⟩
    · exact ⟨'t', _, rfl, by decide⟩
  cases f with
  | tabWidth => exact hint (v.toNat : Int)
  | maxBlankLines => exact hint v.toInt
  | useSpaces => exact hbool v
  | trimExtraSpaces => exact hbool v
  | imposeIndent => exact hbool v
  | preserveContinuation => exact hbool v

theorem statement?_line (h : s.tabWidth.toNat ≤ Int64.maxValue.toInt) (f : Setting)
    (rest : List Char) :
    statement? (s.line f ++ rest) = some (s.statement f, rest) := by
  obtain ⟨c, r, hr, hc⟩ := write_head f (s.value f)
  refine statement?_pairLine ?_ ?_ ?_ (value?_write h f rest)
  · cases f <;> decide
  · cases f <;> decide
  · rw [hr]
    exact skipSpace_bare hc _

theorem reads_lines (h : s.tabWidth.toNat ≤ Int64.maxValue.toInt) (fs : List Setting) :
    Reads statement? (fs.map s.statement) (fs.flatMap s.line) [] := by
  induction fs with
  | nil => exact .done rfl
  | cons f fs ih => exact .next (statement?_line h f _) ih

theorem sections_statements (s : Settings) (fs : List Setting) :
    sections (fs.map s.statement) =
      ((fs.map s.pair).map fun p => ([p.1], p.2), []) := by
  induction fs with
  | nil => rfl
  | cons f fs ih => simp [sections, statement, ih]

theorem statements?_toText (h : s.tabWidth.toNat ≤ Int64.maxValue.toInt) :
    statements? s.toText = some (Setting.all.map s.statement) := by
  have hreads := reads_lines h Setting.all
  rw [← toText_eq] at hreads
  have hfuel : (Setting.all.map s.statement).length ≤ s.toText.length := by
    simp [Setting.all, toText, pairLine]
  have hmany : many statement? s.toText = (Setting.all.map s.statement, []) :=
    hreads.manyAlong_eq hfuel
  rw [statements?, hmany]
  rfl

theorem parse?_toText (h : s.tabWidth.toNat ≤ Int64.maxValue.toInt) :
    parse? s.toText =
      some { entries := (Setting.all.map s.pair).map fun p => (p.1, .value p.2) } := by
  have hmark : dropMark s.toText = s.toText := rfl
  have hkeys : ((Setting.all.map s.pair).map Prod.fst).Nodup := by
    have hall : (Setting.all.map fun f => f.key.toList).Nodup := by decide
    rw [List.map_map]
    exact hall
  have hpairs : Table.addPairs {} ((Setting.all.map s.pair).map fun p => ([p.1], p.2)) = some _ :=
    Table.addPairs_plain rfl hkeys
  rw [parse?, hmark, statements?_toText h]
  simp only [bind, Option.bind_some, sections_statements, hpairs]
  rfl

/-- A file that was written from settings is a layer that gives all of them. -/
theorem ofLayer?_toText (h : s.tabWidth.toNat ≤ Int64.maxValue.toInt) :
    ofLayer? s.toText = some s := by
  have hlayer : Overrides.ofText? s.toText = some (.ofValues fun f => some (s.value f)) := by
    rw [Overrides.ofText?, parse?_toText h, Option.bind_some, Overrides.ofTable?_eq_some_iff]
    intro f
    have hget : ((Setting.all.map s.pair).map fun p => (p.1, Node.value p.2)).lookup f.key.toList =
        some (.value (f.toml (s.value f))) := by
      cases f <;> rfl
    rw [Table.field?, Table.get?, hget, Overrides.value?_ofValues]
    exact congrArg (Option.map some) (f.read_toml (s.value f))
  rw [ofLayer?, hlayer]
  rfl

/-- The two ways of reading a file agree: both refuse it, or both read the same settings from it.
And both read settings back from the file that was written from them, if the width of a tab is a
number that a file can hold. -/
theorem readings_agree :
    (∀ text, ofText? text = ofLayer? text) ∧
    ∀ s : Settings, s.tabWidth.toNat ≤ Int64.maxValue.toInt →
      ofText? s.toText = some s ∧ ofLayer? s.toText = some s :=
  ⟨ofText?_eq_ofLayer?, fun _ h =>
    ⟨(ofText?_eq_ofLayer? _).trans (ofLayer?_toText h), ofLayer?_toText h⟩⟩

def extremeSettings : Settings where
  tabWidth := 9223372036854775807
  useSpaces := false
  maxBlankLines := -2147483648
  preserveContinuation := true

theorem readings_agree_extremeSettings :
    (ofText? extremeSettings.toText = some extremeSettings ∧
      ofLayer? extremeSettings.toText = some extremeSettings) ∧
    ofText? "tab_width = 9223372036854775808\n".toList =
      ofLayer? "tab_width = 9223372036854775808\n".toList := by
  have hfits : extremeSettings.tabWidth.toNat ≤ Int64.maxValue.toInt := by decide
  exact ⟨readings_agree.2 extremeSettings hfits, readings_agree.1 _⟩

end Settings
end HotkeyScript
