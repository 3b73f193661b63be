import HotkeyScript.Proofs.Places
import HotkeyScript.Proofs.Precedence

/-!
# Two spellings of a path

Settings files are looked for in the directories of a path as it is written. A path from the root
has them all; a path from the current directory ends there, and the directories above are not
searched. So the two spellings of a script give the same settings if and only if the files above the
current directory change nothing.
-/

namespace HotkeyScript
namespace Discovery

/-- The value of a setting in the last of some files that gives one. -/
def latest? (w : World) (files : List Path) (f : Setting) : Option f.Value :=
  files.reverse.findSome? (given? w · f)

section Latest

variable {w : World} {p q : Path} {ps qs : List Path} {f : Setting}

theorem latest?_append : latest? w (ps ++ qs) f = (latest? w qs f).or (latest? w ps f) := by
  simp only [latest?, List.reverse_append, List.findSome?_append]

theorem latest?_cons : latest? w (p :: ps) f = (latest? w ps f).or (given? w p f) := by
  simp only [latest?, List.reverse_cons, List.findSome?_append, List.findSome?_singleton]

theorem given?_congr (h : w.tree.locate w.cwd p = w.tree.locate w.cwd q) :
    given? w p f = given? w q f := by
  simp only [given?, usable?, table?, World.read, FileTree.read, h]

/-- Only the places count that the paths lead to. -/
theorem latest?_congr
    (h : ps.map (w.tree.locate w.cwd) = qs.map (w.tree.locate w.cwd)) :
    latest? w ps f = latest? w qs f := by
  induction ps generalizing qs with
  | nil => rw [List.map_eq_nil_iff.mp h.symm]
  | cons p ps ih =>
    obtain ⟨q, qs, rfl, hq, hqs⟩ := List.map_eq_cons_iff.mp h.symm
    rw [latest?_cons, latest?_cons, ih hqs.symm, given?_congr hq.symm]

theorem latest?_cons_cons (h : w.tree.locate w.cwd p = w.tree.locate w.cwd q) :
    latest? w (p :: q :: ps) f = latest? w (q :: ps) f := by
  rw [latest?_cons, latest?_cons, given?_congr h, Option.or_assoc, Option.or_self]

theorem given?_of_not_isFile (h : w.isFile p = false) : given? w p f = none := by
  have hread : (w.read p).toOption = none := by
    simp only [World.isFile, FileTree.isFile] at h
    simp only [World.read, FileTree.read, bind, Except.bind]
    cases hl : w.tree.locate w.cwd p with
    | error fault => rfl
    | ok l =>
      rw [hl] at h
      have hnone : w.tree.contents? l = none := by
        rw [FileTree.contents?, List.lookup_eq_none_iff]
        intro entry hentry
        have hne : ¬entry.1 = l := by simpa using List.any_eq_false.mp h entry hentry
        simpa using Ne.symm hne
      simp [hnone, Except.toOption]
  simp [given?, usable?, table?, hread]

theorem latest?_filter_isFile (keep : Path → Bool) :
    latest? w (ps.filter fun p => w.isFile p && keep p) f = latest? w (ps.filter keep) f := by
  induction ps with
  | nil => rfl
  | cons p ps ih =>
    cases hkeep : keep p with
    | false => simp [hkeep, ih]
    | true =>
      cases hfile : w.isFile p with
      | true => simp [hkeep, hfile, latest?_cons, ih]
      | false => simp [hkeep, hfile, latest?_cons, ih, given?_of_not_isFile hfile]

theorem latest?_or_of_forall {v : Option f.Value} (h : ∀ p ∈ ps, given? w p f = v) :
    (latest? w ps f).or v = v := by
  cases hlatest : latest? w ps f with
  | none => rfl
  | some x =>
    obtain ⟨p, hp, hx⟩ := List.exists_of_findSome?_eq_some hlatest
    rw [← h p (List.mem_reverse.mp hp), hx]
    rfl

end Latest

/-- Settings that are decided alike where `x` gives a value agree if they do where it gives none. -/
theorem settings_eq_iff_of_or {s t : Settings} {x y z : (f : Setting) → Option f.Value}
    (hs : ∀ f, s.value f = ((x f).or (y f)).getD f.standard)
    (ht : ∀ f, t.value f = ((x f).or (z f)).getD f.standard) :
    s = t ↔ ∀ f, x f = none → (y f).getD f.standard = (z f).getD f.standard := by
  constructor
  · intro heq f hnone
    have hvalue := (hs f).symm.trans ((congrArg (·.value f) heq).trans (ht f))
    simpa [hnone] using hvalue
  · intro hall
    rw [Settings.eq_ofValues hs, Settings.eq_ofValues ht]
    congr 1
    funext f
    cases hx : x f with
    | some v => rfl
    | none => exact hall f hx

/-- A place that the home directory has not given. -/
def isFresh (w : World) (p : Path) : Bool := !(homeFile w).any p.same

def filesIn (folders : List Path) : List Path := folders.map (·.join fileName)

theorem filesIn_append (ds es : List Path) : filesIn (ds ++ es) = filesIn ds ++ filesIn es :=
  List.map_append

/-- The path leaves room for the name of a settings file. -/
def Fits (p : Path) : Prop := Utf8.width p.text + Utf8.width fileName < FileTree.longestPath

section Home

variable {w : World} {p d : Path} {ds : List Path} {f : Setting}

theorem width_join_fileName (h : Fits p) (hd : d ∈ p.ancestors) :
    Utf8.width (d.join fileName).text ≤ FileTree.longestPath := by
  have hjoin := Path.width_join_le d fileName
  have hwidth := Path.width_of_mem_ancestors hd
  unfold Fits at h
  omega

theorem mem_homeFile {h : Path} : h ∈ homeFile w ↔
    ∃ home ∈ w.homeFolder, h = home.join fileName ∧ w.isFile (home.join fileName) = true := by
  simp only [homeFile, List.mem_filter, List.mem_map, Option.mem_toList]
  constructor
  · rintro ⟨⟨home, hhome, rfl⟩, hfile⟩
    exact ⟨home, hhome, rfl, hfile⟩
  · rintro ⟨home, hhome, rfl, hfile⟩
    exact ⟨⟨home, hhome, rfl⟩, hfile⟩

theorem given?_of_not_isFresh (hfits : Utf8.width (d.join fileName).text ≤ FileTree.longestPath)
    (h : isFresh w (d.join fileName) = false) :
    given? w (d.join fileName) f = latest? w (homeFile w) f := by
  simp only [isFresh, Bool.not_eq_false', List.any_eq_true] at h
  obtain ⟨file, hfile, hsame⟩ := h
  have hgiven : given? w (d.join fileName) f = given? w file f := by
    obtain ⟨home, -, rfl, hisFile⟩ := mem_homeFile.mp hfile
    obtain ⟨l, hl, -⟩ := World.isFile_eq_true_iff.mp hisFile
    exact given?_congr (FileTree.locate_join_of_same isName_fileName hsame hfits
      (FileTree.fits_of_locate hl).2)
  rcases homeFile_eq w with hnil | ⟨only, honly⟩
  · rw [hnil] at hfile
    cases hfile
  · rw [honly, List.mem_singleton] at hfile
    rw [hgiven, honly, latest?_cons, hfile]
    rfl

/-- On top of what the home directory gives, it makes no difference whether a place that the home
directory has given is left out, unless another place lies under it. -/
theorem latest?_filter_isFresh {es bs : List Path}
    (hes : ∀ d ∈ es, ∀ e ∈ es,
      w.tree.locate w.cwd (d.join fileName) = w.tree.locate w.cwd (e.join fileName))
    (hfits : ∀ d ∈ es, Utf8.width (d.join fileName).text ≤ FileTree.longestPath)
    (hbs : ∀ d ∈ bs, isFresh w (d.join fileName) = true) :
    (latest? w ((filesIn (es ++ bs)).filter (isFresh w)) f).or (latest? w (homeFile w) f) =
      (latest? w (filesIn (es ++ bs)) f).or (latest? w (homeFile w) f) := by
  have hfresh : (filesIn bs).filter (isFresh w) = filesIn bs := by
    simpa [filesIn] using hbs
  have hlow : (latest? w ((filesIn es).filter (isFresh w)) f).or (latest? w (homeFile w) f) =
      (latest? w (filesIn es) f).or (latest? w (homeFile w) f) := by
    by_cases hall : ∀ d ∈ es, isFresh w (d.join fileName) = true
    · rw [List.filter_eq_self.mpr (by simpa [filesIn] using hall)]
    · simp only [not_forall, Bool.not_eq_true] at hall
      obtain ⟨d, hd, hout⟩ := hall
      have hgiven : ∀ q ∈ filesIn es, given? w q f = latest? w (homeFile w) f := by
        intro q hq
        obtain ⟨e, he, rfl⟩ := List.mem_map.mp hq
        rw [given?_congr (hes e he d hd), given?_of_not_isFresh (hfits d hd) hout]
      rw [latest?_or_of_forall hgiven,
        latest?_or_of_forall fun q hq => hgiven q (List.mem_of_mem_filter hq)]
  rw [filesIn_append, List.filter_append, latest?_append, latest?_append, hfresh, Option.or_assoc,
    Option.or_assoc, hlow]

end Home

section Way

variable {w : World} {p d : Path} {ds : List Path} {f : Setting}

theorem locate_place (hfits : Fits p) (hd : d ∈ p.ancestors) :
    w.tree.locate w.cwd (d.join fileName) =
      w.tree.walk (p.start w.cwd) (d.steps ++ [fileName]) := by
  have hstart : d.start w.cwd = p.start w.cwd := by
    simp only [Path.start, Path.anchor_of_mem_ancestors hd]
  rw [FileTree.locate_join_name isName_fileName (width_join_fileName hfits hd), hstart]

theorem map_locate_filesIn (hfits : Fits p) (hds : ∀ d ∈ ds, d ∈ p.ancestors) :
    (filesIn ds).map (w.tree.locate w.cwd) =
      (ds.map Path.steps).map fun i => w.tree.walk (p.start w.cwd) (i ++ [fileName]) := by
  rw [filesIn, List.map_map, List.map_map]
  exact List.map_congr_left fun d hd => locate_place hfits (hds d hd)

theorem exists_split_of_inits {base ss : List (List Char)} {n : Nat}
    (h : ds.map Path.steps = List.replicate n base ++ ss.inits.map (base ++ ·)) :
    ∃ es bs, ds = es ++ bs ∧ (∀ d ∈ es, d.steps = base) ∧ ∀ d ∈ bs, d.steps ≠ base := by
  have hinits : ss.inits = [] :: ss.inits.tail := by cases ss <;> simp
  have htail : [] ∉ ss.inits.tail := by cases ss <;> simp
  rw [hinits, List.map_cons, List.append_cons, List.append_nil] at h
  obtain ⟨es, bs, rfl, hes, hbs⟩ := List.map_eq_append_iff.mp h
  refine ⟨es, bs, rfl, ?_, ?_⟩
  · intro d hd
    have hmem : d.steps ∈ List.replicate n base ++ [base] := hes ▸ List.mem_map_of_mem hd
    exact (List.mem_append.mp hmem).elim List.eq_of_mem_replicate List.mem_singleton.mp
  · intro d hd hbase
    have hmem : d.steps ∈ ss.inits.tail.map (base ++ ·) := hbs ▸ List.mem_map_of_mem hd
    obtain ⟨i, hi, hsteps⟩ := List.mem_map.mp hmem
    obtain rfl : i = [] := by simpa [hbase] using hsteps
    exact htail hi

theorem latest?_filter_isFresh_inits {base ss : List (List Char)} {n : Nat} (hfits : Fits p)
    (hds : ∀ d ∈ ds, d ∈ p.ancestors)
    (hsteps : ds.map Path.steps = List.replicate n base ++ ss.inits.map (base ++ ·))
    (hfresh : ∀ d ∈ ds, d.steps ≠ base → isFresh w (d.join fileName) = true) :
    (latest? w ((filesIn ds).filter (isFresh w)) f).or (latest? w (homeFile w) f) =
      (latest? w (filesIn ds) f).or (latest? w (homeFile w) f) := by
  obtain ⟨es, bs, rfl, hes, hbs⟩ := exists_split_of_inits hsteps
  have hmem : ∀ d ∈ es, d ∈ p.ancestors := fun d hd => hds d (List.mem_append_left bs hd)
  refine latest?_filter_isFresh ?_ (fun d hd => width_join_fileName hfits (hmem d hd)) ?_
  · intro d hd e he
    rw [locate_place hfits (hmem d hd), locate_place hfits (hmem e he), hes d hd, hes e he]
  · exact fun d hd => hfresh d (List.mem_append_right es hd) (hbs d hd)

theorem exists_inits_append (ss ts : List (List Char)) :
    ∃ above, (ss ++ ts).inits = above ++ ts.inits.map (ss ++ ·) ∧ ∀ i ∈ above, ¬ss <+: i := by
  induction ss with
  | nil => exact ⟨[], by simp, by simp⟩
  | cons s ss ih =>
    obtain ⟨above, hinits, habove⟩ := ih
    refine ⟨[] :: above.map (s :: ·), ?_, ?_⟩
    · simp [hinits, Function.comp_def]
    · simpa using habove

theorem steps_ancestors_or (p : Path) :
    p.ancestors.reverse.map Path.steps = p.steps.inits ∨
      p.ancestors.reverse.map Path.steps = [] :: p.steps.inits := by
  rw [Path.steps_ancestors]
  split
  · exact .inr rfl
  · exact .inl rfl

/-- A home directory with a settings file is not below the current directory on the way to a path. -/
def HomeAside (w : World) (p : Path) : Prop :=
  ∀ home ∈ w.homeFolder, w.isFile (home.join fileName) = true →
    w.cwd <+: home.resolve w.cwd → home.resolve w.cwd <+: p.resolve w.cwd →
      home.resolve w.cwd = w.cwd

theorem exists_home_of_not_isFresh (h : isFresh w (d.join fileName) = false) :
    ∃ home ∈ w.homeFolder, w.isFile (home.join fileName) = true ∧
      d.resolve w.cwd = home.resolve w.cwd := by
  simp only [isFresh, Bool.not_eq_false', List.any_eq_true] at h
  obtain ⟨file, hfile, hsame⟩ := h
  obtain ⟨home, hmem, rfl, hisFile⟩ := mem_homeFile.mp hfile
  have hjoin : (d.join fileName).resolve w.cwd = (home.join fileName).resolve w.cwd :=
    congrArg (List.foldl Path.Component.move w.cwd) ((Path.same_iff _ _).mp hsame)
  rw [Path.resolve_join_name _ _ isName_fileName, Path.resolve_join_name _ _ isName_fileName]
    at hjoin
  exact ⟨home, hmem, hisFile, List.append_cancel_right hjoin⟩

theorem isFresh_of_homeAside (hhome : HomeAside w p) (hcwd : w.cwd <+: d.resolve w.cwd)
    (hp : d.resolve w.cwd <+: p.resolve w.cwd) (hne : d.resolve w.cwd ≠ w.cwd) :
    isFresh w (d.join fileName) = true := by
  by_contra hout
  obtain ⟨home, hmem, hisFile, hresolve⟩ :=
    exists_home_of_not_isFresh (Bool.not_eq_true _ ▸ hout)
  rw [hresolve] at hcwd hp hne
  exact hne (hhome home hmem hisFile hcwd hp)

end Way

def isBelow (w : World) (p : Path) : Bool := (FileTree.below? w.cwd (p.resolve w.cwd)).isSome

/-- A path from the current directory, and one from the root with the same steps after it. -/
structure Respelled (w : World) (r a : Path) : Prop where
  relative : r.anchor ≠ .root
  absolute : a.anchor = .root
  steps : a.steps = w.cwd ++ r.steps
  down : ['.', '.'] ∉ a.steps
  fitsRelative : Fits r
  fitsAbsolute : Fits a

theorem onTheWay_eq {w : World} {folder : Path} {outer inner : List Path}
    (h : folder.ancestors.reverse = outer ++ inner) :
    onTheWay w folder = (filesIn outer).filter (fun p => w.isFile p && isFresh w p) ++
      (filesIn inner).filter (fun p => w.isFile p && isFresh w p) := by
  rw [← List.filter_append, ← filesIn_append, ← h]
  rfl

theorem filter_append_of_forall {ps qs : List Path} {b : Path → Bool} (hps : ∀ p ∈ ps, b p = false)
    (hqs : ∀ q ∈ qs, b q = true) : (ps ++ qs).filter b = qs ∧ (ps ++ qs).filter (!b ·) = ps := by
  have hnone : ps.filter b = [] := by simpa using hps
  have hall : qs.filter b = qs := by simpa using hqs
  have hnone' : qs.filter (!b ·) = [] := by simpa using hqs
  have hall' : ps.filter (!b ·) = ps := by simpa using hps
  simp [hnone, hall, hnone', hall']

namespace Respelled

variable {w : World} {r a d : Path}

theorem resolve_relative (h : Respelled w r a) (hd : d ∈ r.ancestors) :
    d.resolve w.cwd = w.cwd ++ d.steps := by
  have hsteps : d.steps ⊆ a.steps := by
    rw [h.steps]
    exact List.subset_append_of_subset_right _ (Path.steps_initial_of_mem_ancestors hd).subset
  have hanchor : d.anchor ≠ .root := mt (Path.anchor_of_mem_ancestors hd).mp h.relative
  rw [Path.resolve_of_up_notMem fun hup => h.down (hsteps hup), Path.start, if_neg hanchor]

theorem resolve_absolute (h : Respelled w r a) (hd : d ∈ a.ancestors) :
    d.resolve w.cwd = d.steps := by
  have hsteps : d.steps ⊆ a.steps := (Path.steps_initial_of_mem_ancestors hd).subset
  have hanchor : d.anchor = .root := (Path.anchor_of_mem_ancestors hd).mpr h.absolute
  rw [Path.resolve_of_up_notMem fun hup => h.down (hsteps hup), Path.start, if_pos hanchor,
    List.nil_append]

theorem exists_parents (h : Respelled w r a) (hr : r.steps ≠ []) :
    ∃ r' a', r.parent? = some r' ∧ a.parent? = some a' ∧ Respelled w r' a' ∧
      r' ∈ r.ancestors ∧ ∃ s, r.steps = r'.steps ++ [s] := by
  obtain ⟨ss, s, hss⟩ := (List.eq_nil_or_concat r.steps).resolve_left hr
  rw [List.concat_eq_append] at hss
  obtain ⟨r', hr', hmem, hsteps⟩ := Path.exists_parent hss
  have hass : a.steps = (w.cwd ++ ss) ++ [s] := by rw [h.steps, hss, List.append_assoc]
  obtain ⟨a', ha', hmem', hsteps'⟩ := Path.exists_parent hass
  have hfits : ∀ {p q : Path}, q ∈ p.ancestors → Fits p → Fits q := by
    intro p q hq hp
    have hwidth := Path.width_of_mem_ancestors hq
    unfold Fits at hp ⊢
    omega
  refine ⟨r', a', hr', ha', ?_, hmem, s, by rw [hss, hsteps]⟩
  exact {
    relative := mt (Path.anchor_of_mem_ancestors hmem).mp h.relative
    absolute := (Path.anchor_of_mem_ancestors hmem').mpr h.absolute
    steps := by rw [hsteps', hsteps]
    down := fun hup => h.down ((Path.steps_initial_of_mem_ancestors hmem').subset hup)
    fitsRelative := hfits hmem h.fitsRelative
    fitsAbsolute := hfits hmem' h.fitsAbsolute }

theorem isBelow_place (h : Respelled w r a) (hd : d ∈ a.ancestors) :
    isBelow w (d.join fileName) = true ↔ w.cwd <+: d.steps := by
  rw [isBelow, Path.resolve_join_name _ _ isName_fileName, h.resolve_absolute hd,
    FileTree.isSome_below?, List.prefix_concat_iff]
  constructor
  · rintro ⟨heq | hbelow, hne⟩
    · exact absurd heq hne
    · exact hbelow
  · intro hbelow
    refine ⟨.inr hbelow, ?_⟩
    intro heq
    have hlength := hbelow.length_le
    rw [heq, List.length_append, List.length_singleton] at hlength
    omega

theorem exists_split (h : Respelled w r a) :
    ∃ outer inner, a.ancestors.reverse = outer ++ inner ∧ (∀ d ∈ outer, ¬w.cwd <+: d.steps) ∧
      inner.map Path.steps = r.steps.inits.map (w.cwd ++ ·) := by
  obtain ⟨above, hinits, habove⟩ := exists_inits_append w.cwd r.steps
  have hsteps : a.ancestors.reverse.map Path.steps = above ++ r.steps.inits.map (w.cwd ++ ·) := by
    rw [Path.steps_ancestors, h.absolute, h.steps, ← hinits]
    rfl
  obtain ⟨outer, inner, hsplit, houter, hinner⟩ := List.map_eq_append_iff.mp hsteps
  exact ⟨outer, inner, hsplit, fun d hd => habove d.steps (houter ▸ List.mem_map_of_mem hd), hinner⟩

theorem prefix_of_mem_inner {inner : List Path}
    (hinner : inner.map Path.steps = r.steps.inits.map (w.cwd ++ ·)) (hd : d ∈ inner) :
    w.cwd <+: d.steps := by
  have hsteps : d.steps ∈ r.steps.inits.map (w.cwd ++ ·) := hinner ▸ List.mem_map_of_mem hd
  obtain ⟨i, -, hi⟩ := List.mem_map.mp hsteps
  exact ⟨i, hi⟩

theorem filter_isBelow (h : Respelled w r a) {outer inner : List Path}
    (hsplit : a.ancestors.reverse = outer ++ inner) (houter : ∀ d ∈ outer, ¬w.cwd <+: d.steps)
    (hinner : ∀ d ∈ inner, w.cwd <+: d.steps) :
    (onTheWay w a).filter (isBelow w) =
        (filesIn inner).filter (fun p => w.isFile p && isFresh w p) ∧
      (onTheWay w a).filter (!isBelow w ·) =
        (filesIn outer).filter (fun p => w.isFile p && isFresh w p) := by
  have hmem : ∀ d ∈ outer ++ inner, d ∈ a.ancestors := fun d hd =>
    List.mem_reverse.mp (hsplit ▸ hd)
  have hfar : ∀ p ∈ filesIn outer, isBelow w p = false := by
    intro p hp
    obtain ⟨d, hd, rfl⟩ := List.mem_map.mp hp
    rw [← Bool.not_eq_true, h.isBelow_place (hmem d (List.mem_append_left inner hd))]
    exact houter d hd
  have hnear : ∀ p ∈ filesIn inner, isBelow w p = true := by
    intro p hp
    obtain ⟨d, hd, rfl⟩ := List.mem_map.mp hp
    rw [h.isBelow_place (hmem d (List.mem_append_right outer hd))]
    exact hinner d hd
  rw [onTheWay_eq hsplit]
  exact filter_append_of_forall (fun p hp => hfar p (List.mem_of_mem_filter hp))
    fun p hp => hnear p (List.mem_of_mem_filter hp)

theorem onTheWay_eq_append (h : Respelled w r a) :
    onTheWay w a = (onTheWay w a).filter (!isBelow w ·) ++ (onTheWay w a).filter (isBelow w) := by
  obtain ⟨outer, inner, hsplit, houter, hinner⟩ := h.exists_split
  obtain ⟨hbelow, hrest⟩ := h.filter_isBelow hsplit houter fun d => prefix_of_mem_inner hinner
  rw [hbelow, hrest, onTheWay_eq hsplit]

theorem map_locate_inner (h : Respelled w r a) (ht : w.tree.WellFormed)
    (hcwd : w.tree.isFolderAt w.cwd = true) {inner : List Path} {is : List (List (List Char))}
    (hmem : ∀ d ∈ inner, d ∈ a.ancestors) (hinner : inner.map Path.steps = is.map (w.cwd ++ ·)) :
    (filesIn inner).map (w.tree.locate w.cwd) =
      is.map fun i => w.tree.walk w.cwd (i ++ [fileName]) := by
  rw [map_locate_filesIn h.fitsAbsolute hmem, hinner, List.map_map, Path.start, if_pos h.absolute]
  refine List.map_congr_left fun i _ => ?_
  rw [Function.comp_apply, List.append_assoc, World.walk_cwd_append ht hcwd]

/-- Seen from the current directory or from the root, directories hold the same settings files, also
if the current directory is there twice, without the full stop and with it. -/
theorem latest?_filesIn_eq (h : Respelled w r a) (ht : w.tree.WellFormed)
    (hcwd : w.tree.isFolderAt w.cwd = true) {ds inner : List Path}
    {is : List (List (List Char))} (hds : ∀ d ∈ ds, d ∈ r.ancestors)
    (hsteps : ds.map Path.steps = is ∨ ds.map Path.steps = [] :: is ∧ is.head? = some [])
    (hmem : ∀ d ∈ inner, d ∈ a.ancestors) (hinner : inner.map Path.steps = is.map (w.cwd ++ ·))
    (f : Setting) : latest? w (filesIn ds) f = latest? w (filesIn inner) f := by
  have honce : ∀ ds, (∀ d ∈ ds, d ∈ r.ancestors) → ds.map Path.steps = is →
      latest? w (filesIn ds) f = latest? w (filesIn inner) f := by
    intro ds hds hsteps
    apply latest?_congr
    rw [map_locate_filesIn h.fitsRelative hds, hsteps, h.map_locate_inner ht hcwd hmem hinner,
      Path.start, if_neg h.relative]
  rcases hsteps with hsteps | ⟨hsteps, hhead⟩
  · exact honce ds hds hsteps
  · obtain ⟨d, rest, rfl, hd, hrest⟩ := List.map_eq_cons_iff.mp hsteps
    obtain ⟨is, rfl⟩ : ∃ is', is = [] :: is' := ⟨is.tail, List.eq_cons_of_mem_head? hhead⟩
    obtain ⟨e, es, rfl, he, -⟩ := List.map_eq_cons_iff.mp hrest
    have hplace : w.tree.locate w.cwd (d.join fileName) = w.tree.locate w.cwd (e.join fileName) := by
      rw [locate_place h.fitsRelative (hds d (by simp)),
        locate_place h.fitsRelative (hds e (by simp)), hd, he]
    have htwice : filesIn (d :: e :: es) = d.join fileName :: e.join fileName :: filesIn es := rfl
    rw [htwice, latest?_cons_cons hplace]
    exact honce (e :: es) (fun q hq => hds q (List.mem_cons_of_mem d hq)) hrest

theorem isFresh_relative (h : Respelled w r a) (hhome : HomeAside w r) (hd : d ∈ r.ancestors)
    (hne : d.steps ≠ []) : isFresh w (d.join fileName) = true := by
  have hplace := h.resolve_relative hd
  have htarget := h.resolve_relative List.mem_cons_self
  refine isFresh_of_homeAside hhome ?_ ?_ ?_
  · rw [hplace]
    exact List.prefix_append _ _
  · rw [hplace, htarget, List.prefix_append_right_inj]
    exact Path.steps_initial_of_mem_ancestors hd
  · simpa [hplace] using hne

theorem isFresh_absolute (h : Respelled w r a) (hhome : HomeAside w r) (hd : d ∈ a.ancestors)
    (hcwd : w.cwd <+: d.steps) (hne : d.steps ≠ w.cwd) : isFresh w (d.join fileName) = true := by
  have hplace := h.resolve_absolute hd
  have htarget := h.resolve_relative List.mem_cons_self
  refine isFresh_of_homeAside hhome ?_ ?_ ?_
  · rwa [hplace]
  · rw [hplace, htarget, ← h.steps]
    exact Path.steps_initial_of_mem_ancestors hd
  · rwa [hplace]

/-- What is found from the current directory is what is found below it from the root. -/
theorem latest?_onTheWay (h : Respelled w r a) (ht : w.tree.WellFormed)
    (hcwd : w.tree.isFolderAt w.cwd = true) (hhome : HomeAside w r) (f : Setting) :
    (latest? w (onTheWay w r) f).or (latest? w (homeFile w) f) =
      (latest? w ((onTheWay w a).filter (isBelow w)) f).or (latest? w (homeFile w) f) := by
  obtain ⟨outer, inner, hsplit, houter, hinner⟩ := h.exists_split
  have hmem : ∀ d ∈ inner, d ∈ a.ancestors := fun d hd =>
    List.mem_reverse.mp (hsplit ▸ List.mem_append_right outer hd)
  have hrelative : ∀ d ∈ r.ancestors.reverse, d.steps ≠ [] →
      isFresh w (d.join fileName) = true :=
    fun d hd hne => h.isFresh_relative hhome (List.mem_reverse.mp hd) hne
  have habsolute : ∀ d ∈ inner, d.steps ≠ w.cwd → isFresh w (d.join fileName) = true :=
    fun d hd hne => h.isFresh_absolute hhome (hmem d hd) (prefix_of_mem_inner hinner hd) hne
  have hhead : r.steps.inits.head? = some [] := by cases r.steps <;> simp
  have hsteps : ∃ n, r.ancestors.reverse.map Path.steps =
      List.replicate n [] ++ r.steps.inits.map ([] ++ ·) := by
    rcases steps_ancestors_or r with honce | htwice
    · exact ⟨0, by simp [honce]⟩
    · exact ⟨1, by simp [htwice]⟩
  obtain ⟨n, hsteps⟩ := hsteps
  calc (latest? w (onTheWay w r) f).or (latest? w (homeFile w) f)
      = (latest? w ((filesIn r.ancestors.reverse).filter (isFresh w)) f).or
          (latest? w (homeFile w) f) := congrArg (Option.or · _) (latest?_filter_isFile _)
    _ = (latest? w (filesIn r.ancestors.reverse) f).or (latest? w (homeFile w) f) :=
        latest?_filter_isFresh_inits h.fitsRelative (fun d => List.mem_reverse.mp) hsteps hrelative
    _ = (latest? w (filesIn inner) f).or (latest? w (homeFile w) f) :=
        congrArg (Option.or · _) (h.latest?_filesIn_eq ht hcwd (fun d => List.mem_reverse.mp)
          ((steps_ancestors_or r).imp_right (⟨·, hhead⟩)) hmem hinner f)
    _ = (latest? w ((filesIn inner).filter (isFresh w)) f).or (latest? w (homeFile w) f) :=
        (latest?_filter_isFresh_inits h.fitsAbsolute hmem (n := 0) (by simpa using hinner)
          habsolute).symm
    _ = (latest? w ((onTheWay w a).filter (isBelow w)) f).or (latest? w (homeFile w) f) := by
        rw [(h.filter_isBelow hsplit houter fun d => prefix_of_mem_inner hinner).1,
          latest?_filter_isFile]

end Respelled

/-- The settings files on the way to a path, without that of the home directory. -/
def wayTo (w : World) (start : Path) : List Path :=
  (startFolder? w start).toList.flatMap (onTheWay w)

def filesInside (w : World) (start : Path) : List Path := (wayTo w start).filter (isBelow w)

def filesAbove (w : World) (start : Path) : List Path := (wayTo w start).filter (!isBelow w ·)

section Settings

variable {w : World} {r : Path}

theorem respelled_here_join (ht : w.tree.WellFormed) (hcwd : w.tree.isFolderAt w.cwd = true)
    (hr : r.anchor ≠ .root) (hup : .up ∉ r.components) (hfits : Fits (w.here.join r.text)) :
    Respelled w r (w.here.join r.text) := by
  obtain ⟨hhere, hroot⟩ := World.here_anchor w
  have hsteps : (w.here.join r.text).steps = w.cwd ++ r.steps := by
    rw [Path.steps_join, World.here_steps ht hcwd]
  have hdown : ['.', '.'] ∉ (w.here.join r.text).steps := by
    rw [hsteps, List.mem_append]
    rintro (hmem | hmem)
    · exact (FileTree.isName_of_isFolderAt ht hcwd _ hmem).up rfl
    · rw [Path.components_eq] at hup
      exact hup (List.mem_append_right _ (List.mem_map.mpr ⟨_, hmem, rfl⟩))
  have hwidth := Path.width_le_join hhere r.text
  exact {
    relative := hr
    absolute := (Path.anchor_join hhere r.text).trans hroot
    steps := hsteps
    down := hdown
    fitsRelative := by
      unfold Fits at hfits ⊢
      omega
    fitsAbsolute := hfits }

theorem exists_startFolders (ht : w.tree.WellFormed) (hcwd : w.tree.isFolderAt w.cwd = true)
    (hr : r.anchor ≠ .root) (hup : .up ∉ r.components)
    (hfound : w.isFile r = true ∨ w.isFolder r = true) (hfits : Fits (w.here.join r.text)) :
    ∃ r' a', startFolder? w r = some r' ∧ startFolder? w (w.here.join r.text) = some a' ∧
      Respelled w r' a' ∧ r' ∈ r.ancestors ∧
        ∀ l, w.tree.isFolderAt l = true → l <+: r.resolve w.cwd → l <+: r'.resolve w.cwd := by
  have h := respelled_here_join ht hcwd hr hup hfits
  have hne : r.text ≠ [] := by
    rcases hfound with hfile | hfolder
    · obtain ⟨l, hl, -⟩ := World.isFile_eq_true_iff.mp hfile
      exact (FileTree.fits_of_locate hl).1
    · obtain ⟨l, hl, -⟩ := World.isFolder_eq_true_iff.mp hfolder
      exact (FileTree.fits_of_locate hl).1
  have hlocate : w.tree.locate w.cwd (w.here.join r.text) = w.tree.locate w.cwd r := by
    refine World.locate_here_join ht hcwd hr hne ?_
    unfold Fits at hfits
    omega
  have hisFile : w.isFile (w.here.join r.text) = w.isFile r := by
    simp only [World.isFile, FileTree.isFile, hlocate]
  have hisFolder : w.isFolder (w.here.join r.text) = w.isFolder r := by
    simp only [World.isFolder, FileTree.isFolder, hlocate]
  unfold startFolder?
  rw [hisFile, hisFolder]
  by_cases hfile : w.isFile r = true
  · rw [if_pos hfile, if_pos hfile]
    have hnot : w.tree.isFolderAt (r.resolve w.cwd) = false := by
      obtain ⟨l, hl, hat⟩ := World.isFile_eq_true_iff.mp hfile
      obtain ⟨entry, hentry, heq⟩ := List.any_eq_true.mp hat
      have hplace : entry.1 = r.resolve w.cwd := by rw [beq_iff_eq.mp heq, FileTree.locate_eq_ok hl]
      exact hplace ▸ ht.leaves entry hentry
    have hpath := h.resolve_relative List.mem_cons_self
    have hsteps : r.steps ≠ [] := by
      intro hnil
      rw [hpath, hnil, List.append_nil, hcwd] at hnot
      cases hnot
    obtain ⟨r', a', hr', ha', h', hmem, s, hs⟩ := h.exists_parents hsteps
    refine ⟨r', a', hr', ha', h', hmem, ?_⟩
    intro l hl hinitial
    rw [h'.resolve_relative List.mem_cons_self]
    rw [hpath, hs, ← List.append_assoc, List.prefix_concat_iff] at hinitial
    refine hinitial.resolve_left ?_
    intro heq
    rw [hpath, hs, ← List.append_assoc, ← heq, hl] at hnot
    cases hnot
  · have hfolder : w.isFolder r = true := hfound.resolve_left hfile
    rw [if_neg hfile, if_neg hfile, if_pos hfolder, if_pos hfolder]
    exact ⟨r, w.here.join r.text, rfl, rfl, h, List.mem_cons_self, fun _ _ hinitial => hinitial⟩

theorem HomeAside.of_mem_ancestors {r' a' : Path} (h : HomeAside w r) (hr' : r' ∈ r.ancestors)
    (hfolder : Respelled w r' a') (hpath : r.resolve w.cwd = w.cwd ++ r.steps) :
    HomeAside w r' := by
  intro home hhome hfile hcwd hinitial
  refine h home hhome hfile hcwd (hinitial.trans ?_)
  rw [hfolder.resolve_relative List.mem_cons_self, hpath, List.prefix_append_right_inj]
  exact Path.steps_initial_of_mem_ancestors hr'

/-- A path from the current directory and the same path from the root have the same settings if and
only if the files above the current directory change nothing: what they give to a setting that no
file in the current directory or below it gives is what the home directory or the default gives. -/
theorem spellings_agree_iff (ht : w.tree.WellFormed) (hcwd : w.tree.isFolderAt w.cwd = true)
    (hr : r.anchor ≠ .root) (hup : .up ∉ r.components)
    (hfound : w.isFile r = true ∨ w.isFolder r = true) (hfits : Fits (w.here.join r.text))
    (hhome : HomeAside w r) :
    (settings w r).1 = (settings w (w.here.join r.text)).1 ↔
      ∀ f v, latest? w (filesAbove w (w.here.join r.text)) f = some v →
        latest? w (filesInside w (w.here.join r.text)) f = none →
          v = (latest? w (homeFile w) f).getD f.standard := by
  obtain ⟨r', a', hstart, hstart', h, hmem, -⟩ := exists_startFolders ht hcwd hr hup hfound hfits
  have hwayTo : wayTo w (w.here.join r.text) = onTheWay w a' := by simp [wayTo, hstart']
  have hpath := (respelled_here_join ht hcwd hr hup hfits).resolve_relative List.mem_cons_self
  have hrelative : ∀ f, (settings w r).1.value f =
      ((latest? w (filesInside w (w.here.join r.text)) f).or
        (latest? w (homeFile w) f)).getD f.standard := by
    intro f
    rw [value_settings, files_eq hstart, ← latest?, latest?_append,
      h.latest?_onTheWay ht hcwd (hhome.of_mem_ancestors hmem h hpath), filesInside, hwayTo]
  have habsolute : ∀ f, (settings w (w.here.join r.text)).1.value f =
      ((latest? w (filesInside w (w.here.join r.text)) f).or
        ((latest? w (filesAbove w (w.here.join r.text)) f).or
          (latest? w (homeFile w) f))).getD f.standard := by
    intro f
    rw [value_settings, files_eq hstart', ← latest?, latest?_append, h.onTheWay_eq_append,
      latest?_append, filesInside, filesAbove, hwayTo, Option.or_assoc]
  rw [settings_eq_iff_of_or hrelative habsolute]
  refine forall_congr' fun f => ?_
  cases latest? w (filesAbove w (w.here.join r.text)) f with
  | none => simp
  | some v => simp [eq_comm]

end Settings

def spelledWorld : World where
  tree := { files := [
    (["ahkfmt.toml".toList], Utf8.encode "tab_width = 2\n".toList),
    (["h".toList, "ahkfmt.toml".toList], Utf8.encode "use_spaces = false\n".toList),
    (["w".toList, "lib".toList, "ahkfmt.toml".toList], Utf8.encode "tab_width = 8\n".toList),
    (["w".toList, "lib".toList, "a.ahk".toList], Utf8.encode [])] }
  cwd := ["w".toList]
  home := some ⟨"/h".toList⟩

theorem spellings_agree_iff_covered :
    files spelledWorld ⟨"./lib//a.ahk".toList⟩ =
        [⟨"/h/ahkfmt.toml".toList⟩, ⟨"./lib/ahkfmt.toml".toList⟩] ∧
      files spelledWorld ⟨"/w/./lib//a.ahk".toList⟩ =
        [⟨"/h/ahkfmt.toml".toList⟩, ⟨"/ahkfmt.toml".toList⟩, ⟨"/w/./lib/ahkfmt.toml".toList⟩] ∧
      (settings spelledWorld ⟨"./lib//a.ahk".toList⟩).1 =
        (settings spelledWorld ⟨"/w/./lib//a.ahk".toList⟩).1 := by
  refine ⟨by decide +kernel, by decide +kernel, ?_⟩
  have hhome : HomeAside spelledWorld ⟨"./lib//a.ahk".toList⟩ := by
    intro home hmem
    cases hmem
    decide +kernel
  refine (spellings_agree_iff (by decide +kernel) (by decide +kernel) (by decide +kernel)
    (by decide +kernel) (by decide +kernel) (by unfold Fits; decide +kernel) hhome).mpr ?_
  have hcovered : ∀ f, latest? spelledWorld
        (filesAbove spelledWorld (spelledWorld.here.join "./lib//a.ahk".toList)) f = none ∨
      latest? spelledWorld
        (filesInside spelledWorld (spelledWorld.here.join "./lib//a.ahk".toList)) f ≠ none := by
    intro f
    cases f <;> decide +kernel
  intro f v habove hinside
  rcases hcovered f with hnone | hsome
  · rw [hnone] at habove
    cases habove
  · exact absurd hinside hsome

def overlookedWorld : World where
  tree := { files := [
    (["ahkfmt.toml".toList], Utf8.encode "tab_width = 2\n".toList),
    (["w".toList, "a.ahk".toList], Utf8.encode [])] }
  cwd := ["w".toList]

/-- The file above the current directory is found from the root, and not from the current
directory. -/
theorem file_above_is_overlooked :
    overlookedWorld.here.join "a.ahk".toList = ⟨"/w/a.ahk".toList⟩ ∧
      files overlookedWorld ⟨"a.ahk".toList⟩ = [] ∧
      (settings overlookedWorld ⟨"a.ahk".toList⟩).1.tabWidth = 4 ∧
      files overlookedWorld ⟨"/w/a.ahk".toList⟩ = [⟨"/ahkfmt.toml".toList⟩] ∧
      (settings overlookedWorld ⟨"/w/a.ahk".toList⟩).1.tabWidth = 2 := by
  decide +kernel

end Discovery
end HotkeyScript
