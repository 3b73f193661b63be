import HotkeyScript.Proofs.Spelling

/-!
# A home directory on the way

A home directory with a settings file may lie below the current directory on the way to a script.
Its file is found first. A search that comes to the home directory under the same name leaves the
file out there, so that the files farther away override it; a search that comes to it under another
name finds the file again, and there it overrides them. So the two spellings of a path can differ
though no settings file lies above the current directory.
-/

namespace HotkeyScript
namespace Discovery

/-- The search from a path leaves out a place that the home directory has given. -/
def leavesOut (w : World) (start : Path) : Bool :=
  ((startFolder? w start).toList.flatMap places).any (!isFresh w ·)

def isPastHome (w : World) (p : Path) : Bool :=
  w.homeFolder.any fun home =>
    (FileTree.below? (home.resolve w.cwd) (p.resolve w.cwd).dropLast).isSome

def isBeforeHome (w : World) (p : Path) : Bool :=
  w.homeFolder.any fun home =>
    (FileTree.below? (p.resolve w.cwd).dropLast (home.resolve w.cwd)).isSome

/-- The settings files on the way that are closer to the script than the home directory. -/
def filesPastHome (w : World) (start : Path) : List Path := (wayTo w start).filter (isPastHome w)

/-- Those from the current directory down to the home directory. -/
def filesBeforeHome (w : World) (start : Path) : List Path :=
  (filesInside w start).filter (isBeforeHome w)

/-- What the home directory and files farther away give together. -/
def aroundHome (w : World) (start : Path) (farther : List Path) (f : Setting) : Option f.Value :=
  if leavesOut w start then (latest? w farther f).or (latest? w (homeFile w) f)
  else (latest? w (homeFile w) f).or (latest? w farther f)

/-- The steps of a path lead through a home directory with a settings file. -/
structure Through (w : World) (p home : Path) (names : List (List Char)) : Prop where
  mem : home ∈ w.homeFolder
  isFile : w.isFile (home.join fileName) = true
  resolve : home.resolve w.cwd = w.cwd ++ names
  ne : names ≠ []
  initial : names <+: p.steps

theorem homeFile_of_mem {w : World} {home : Path} (hmem : home ∈ w.homeFolder)
    (hfile : w.isFile (home.join fileName) = true) : homeFile w = [home.join fileName] := by
  have hsome : w.homeFolder = some home := hmem
  simp [homeFile, hsome, hfile]

theorem isFresh_of_resolve_ne {w : World} {home d : Path} (hmem : home ∈ w.homeFolder)
    (hne : d.resolve w.cwd ≠ home.resolve w.cwd) : isFresh w (d.join fileName) = true := by
  by_contra hout
  obtain ⟨home', hmem', -, hresolve⟩ := exists_home_of_not_isFresh (Bool.not_eq_true _ ▸ hout)
  obtain rfl : home = home' := Option.mem_unique hmem hmem'
  exact hne hresolve

/-- The home directory stands between the directories before it and those past it. Where the search
leaves it out, its file counts for less than those before it. -/
theorem latest?_around {w : World} {home folder d : Path} {before past : List Path}
    (hmem : home ∈ w.homeFolder) (hfile : w.isFile (home.join fileName) = true)
    (hsplit : folder.ancestors.reverse = before ++ d :: past)
    (hplace : w.tree.locate w.cwd (d.join fileName) = w.tree.locate w.cwd (home.join fileName))
    (hbefore : ∀ e ∈ before, isFresh w (e.join fileName) = true)
    (hpast : ∀ e ∈ past, isFresh w (e.join fileName) = true) (f : Setting) :
    (latest? w (onTheWay w folder) f).or (latest? w (homeFile w) f) =
      (latest? w (filesIn past) f).or
        (if (places folder).any (!isFresh w ·)
          then (latest? w (filesIn before) f).or (latest? w (homeFile w) f)
          else (latest? w (homeFile w) f).or (latest? w (filesIn before) f)) := by
  have hhome : given? w (d.join fileName) f = latest? w (homeFile w) f := by
    rw [homeFile_of_mem hmem hfile, latest?_cons, given?_congr hplace]
    rfl
  have hb : (filesIn before).filter (isFresh w) = filesIn before := by simpa [filesIn] using hbefore
  have hp : (filesIn past).filter (isFresh w) = filesIn past := by simpa [filesIn] using hpast
  have hplaces : places folder = filesIn before ++ d.join fileName :: filesIn past := by
    rw [places, hsplit, List.map_append, List.map_cons]
    rfl
  have hany : (places folder).any (!isFresh w ·) = !isFresh w (d.join fileName) := by
    have hb' : (filesIn before).any (!isFresh w ·) = false := by simpa [filesIn] using hbefore
    have hp' : (filesIn past).any (!isFresh w ·) = false := by simpa [filesIn] using hpast
    rw [hplaces, List.any_append, List.any_cons, hb', hp', Bool.false_or, Bool.or_false]
  have hway : latest? w (onTheWay w folder) f = latest? w ((places folder).filter (isFresh w)) f :=
    latest?_filter_isFile _
  rw [hway, hany, hplaces, List.filter_append, hb, latest?_append]
  cases hd : isFresh w (d.join fileName) with
  | true =>
    rw [List.filter_cons_of_pos hd, hp, latest?_cons, hhome]
    cases latest? w (homeFile w) f <;> simp
  | false =>
    rw [List.filter_cons_of_neg (by simp [hd]), hp, Option.or_assoc]
    rfl

theorem exists_inits_of_prefix {names steps : List (List Char)} (h : names <+: steps) :
    ∃ before past, steps.inits = before ++ names :: past ∧
      (∀ i ∈ before, i <+: names ∧ i ≠ names) ∧ ∀ i ∈ past, names <+: i ∧ names ≠ i := by
  obtain ⟨rest, rfl⟩ := h
  obtain ⟨before, hinits, hbefore⟩ := exists_inits_append names rest
  have hrest : rest.inits = [] :: rest.inits.tail := by cases rest <;> simp
  have htail : [] ∉ rest.inits.tail := by cases rest <;> simp
  refine ⟨before, rest.inits.tail.map (names ++ ·), ?_, ?_, ?_⟩
  · rw [hinits, hrest, List.map_cons, List.append_nil]
    rfl
  · intro i hi
    have hmem : i ∈ (names ++ rest).inits := hinits ▸ List.mem_append_left _ hi
    have hor := List.prefix_or_prefix_of_prefix ((List.mem_inits _ _).mp hmem)
      (List.prefix_append names rest)
    refine ⟨hor.resolve_right (hbefore i hi), ?_⟩
    rintro rfl
    exact hbefore i hi List.prefix_rfl
  · intro i hi
    obtain ⟨j, hj, rfl⟩ := List.mem_map.mp hi
    refine ⟨List.prefix_append _ _, ?_⟩
    intro heq
    obtain rfl : j = [] := by simpa using heq
    exact htail hj

section Around

variable {w : World} {d home : Path}

theorem isPastHome_iff (hmem : home ∈ w.homeFolder) :
    isPastHome w (d.join fileName) = true ↔
      home.resolve w.cwd <+: d.resolve w.cwd ∧ home.resolve w.cwd ≠ d.resolve w.cwd := by
  have hsome : w.homeFolder = some home := hmem
  rw [isPastHome, hsome, Option.any_some, Path.resolve_join_name _ _ isName_fileName,
    List.dropLast_concat, FileTree.isSome_below?]

theorem isBeforeHome_iff (hmem : home ∈ w.homeFolder) :
    isBeforeHome w (d.join fileName) = true ↔
      d.resolve w.cwd <+: home.resolve w.cwd ∧ d.resolve w.cwd ≠ home.resolve w.cwd := by
  have hsome : w.homeFolder = some home := hmem
  rw [isBeforeHome, hsome, Option.any_some, Path.resolve_join_name _ _ isName_fileName,
    List.dropLast_concat, FileTree.isSome_below?]

theorem locate_home (ht : w.tree.WellFormed) (hfile : w.isFile (home.join fileName) = true)
    {p : Path} (hfits : Fits p) (hd : d ∈ p.ancestors)
    (hresolve : p.start w.cwd ++ d.steps = home.resolve w.cwd) :
    w.tree.locate w.cwd (d.join fileName) = w.tree.locate w.cwd (home.join fileName) := by
  obtain ⟨l, hl, hat⟩ := World.isFile_eq_true_iff.mp hfile
  have hplace : l = p.start w.cwd ++ (d.steps ++ [fileName]) := by
    rw [FileTree.locate_eq_ok hl, Path.resolve_join_name _ _ isName_fileName, ← hresolve,
      List.append_assoc]
  rw [hplace] at hat
  rw [locate_place hfits hd, hl, FileTree.walk_of_isFileAt ht hat, hplace]

end Around

theorem filter_filesIn_of_forall {ds : List Path} {found b : Path → Bool}
    (h : ∀ e ∈ ds, b (e.join fileName) = true) :
    ((filesIn ds).filter found).filter b = (filesIn ds).filter found := by
  rw [List.filter_eq_self]
  simpa [filesIn] using fun e he _ => h e he

theorem filter_filesIn_eq_nil {ds : List Path} {found b : Path → Bool}
    (h : ∀ e ∈ ds, b (e.join fileName) = false) :
    ((filesIn ds).filter found).filter b = [] := by
  rw [List.filter_eq_nil_iff]
  simpa [filesIn] using fun e he _ => h e he

/-- The directories on the way from the root, parted at the current directory and at the home
directory below it. -/
structure Parted (w : World) (a : Path) (names : List (List Char)) (above before : List Path)
    (d : Path) (past : List Path) : Prop where
  split : a.ancestors.reverse = (above ++ before) ++ d :: past
  above : ∀ e ∈ above, ¬w.cwd <+: e.steps
  before : ∀ e ∈ before, w.cwd <+: e.steps ∧ e.steps <+: w.cwd ++ names ∧ e.steps ≠ w.cwd ++ names
  home : d.steps = w.cwd ++ names
  past : ∀ e ∈ past, w.cwd ++ names <+: e.steps ∧ w.cwd ++ names ≠ e.steps

namespace Parted

variable {w : World} {r a d e home : Path} {names : List (List Char)}
  {above before past : List Path}

theorem steps_ne (hp : Parted w a names above before d past) (he : e ∈ above ++ before) :
    e.steps ≠ w.cwd ++ names := by
  rcases List.mem_append.mp he with habove | hbefore
  · intro heq
    exact hp.above e habove (heq ▸ List.prefix_append _ _)
  · exact (hp.before e hbefore).2.2

theorem mem_ancestors (hp : Parted w a names above before d past)
    (he : e ∈ (above ++ before) ++ d :: past) : e ∈ a.ancestors :=
  List.mem_reverse.mp (hp.split ▸ he)

theorem isFresh_of_steps_ne (hp : Parted w a names above before d past) (h : Respelled w r a)
    (hhome : Through w r home names)
    (he : e ∈ (above ++ before) ++ d :: past) (hne : e.steps ≠ w.cwd ++ names) :
    isFresh w (e.join fileName) = true := by
  apply isFresh_of_resolve_ne hhome.mem
  rwa [h.resolve_absolute (hp.mem_ancestors he), hhome.resolve]

theorem isPastHome_parts (hp : Parted w a names above before d past) (h : Respelled w r a)
    (hhome : Through w r home names) :
    (∀ e ∈ (above ++ before) ++ [d], isPastHome w (e.join fileName) = false) ∧
      ∀ e ∈ past, isPastHome w (e.join fileName) = true := by
  constructor
  · intro e he
    have hway : e ∈ (above ++ before) ++ d :: past := by
      rw [List.append_cons]
      exact List.mem_append_left past he
    rw [← Bool.not_eq_true, isPastHome_iff hhome.mem, hhome.resolve,
      h.resolve_absolute (hp.mem_ancestors hway)]
    rintro ⟨hinitial, hne⟩
    rcases List.mem_append.mp he with he | he
    · rcases List.mem_append.mp he with he | he
      · exact hp.above e he ((List.prefix_append _ _).trans hinitial)
      · exact hne (hinitial.eq_of_length_le (hp.before e he).2.1.length_le)
    · exact hne (List.mem_singleton.mp he ▸ hp.home.symm)
  · intro e he
    have hway : e ∈ (above ++ before) ++ d :: past :=
      List.mem_append_right _ (List.mem_cons_of_mem d he)
    rw [isPastHome_iff hhome.mem, hhome.resolve,
      h.resolve_absolute (hp.mem_ancestors hway)]
    exact hp.past e he

theorem isBeforeHome_parts (hp : Parted w a names above before d past) (h : Respelled w r a)
    (hhome : Through w r home names) :
    (∀ e ∈ before, isBeforeHome w (e.join fileName) = true) ∧
      ∀ e ∈ d :: past, isBeforeHome w (e.join fileName) = false := by
  constructor
  · intro e he
    have hway : e ∈ (above ++ before) ++ d :: past :=
      List.mem_append_left _ (List.mem_append_right above he)
    rw [isBeforeHome_iff hhome.mem, hhome.resolve,
      h.resolve_absolute (hp.mem_ancestors hway)]
    exact (hp.before e he).2
  · intro e he
    rw [← Bool.not_eq_true, isBeforeHome_iff hhome.mem, hhome.resolve,
      h.resolve_absolute (hp.mem_ancestors (List.mem_append_right _ he))]
    rintro ⟨hinitial, hne⟩
    rcases List.mem_cons.mp he with rfl | he
    · exact hne hp.home
    · exact hne (hinitial.eq_of_length_le (hp.past e he).1.length_le)

theorem latest?_filter_onTheWay (hp : Parted w a names above before d past) (h : Respelled w r a)
    (hhome : Through w r home names) (f : Setting) :
    latest? w ((onTheWay w a).filter (!isBelow w ·)) f = latest? w (filesIn above) f ∧
      latest? w (((onTheWay w a).filter (isBelow w)).filter (isBeforeHome w)) f =
        latest? w (filesIn before) f ∧
      latest? w ((onTheWay w a).filter (isPastHome w)) f = latest? w (filesIn past) f := by
  have hfound : ∀ ds, (∀ e ∈ ds, e ∈ (above ++ before) ++ d :: past ∧ e.steps ≠ w.cwd ++ names) →
      latest? w ((filesIn ds).filter fun p => w.isFile p && isFresh w p) f =
        latest? w (filesIn ds) f := by
    intro ds hds
    have hfresh : ∀ e ∈ ds, isFresh w (e.join fileName) = true := fun e he =>
      hp.isFresh_of_steps_ne h hhome (hds e he).1 (hds e he).2
    rw [latest?_filter_isFile, List.filter_eq_self.mpr (by simpa [filesIn] using hfresh)]
  have hinner : ∀ e ∈ before ++ d :: past, w.cwd <+: e.steps := by
    intro e he
    rcases List.mem_append.mp he with he | he
    · exact (hp.before e he).1
    · rcases List.mem_cons.mp he with rfl | he
      · exact hp.home ▸ List.prefix_append _ _
      · exact (List.prefix_append _ _).trans (hp.past e he).1
  have hsplit := hp.split.trans (List.append_assoc _ _ _)
  obtain ⟨hbelow, hrest⟩ := h.filter_isBelow hsplit hp.above hinner
  refine ⟨?_, ?_, ?_⟩
  · rw [hrest]
    exact hfound above fun e he => ⟨by simp [he], hp.steps_ne (List.mem_append_left _ he)⟩
  · obtain ⟨htrue, hfalse⟩ := hp.isBeforeHome_parts h hhome
    rw [hbelow, filesIn_append, List.filter_append, List.filter_append,
      filter_filesIn_of_forall htrue, filter_filesIn_eq_nil hfalse, List.append_nil]
    exact hfound before fun e he => ⟨by simp [he], hp.steps_ne (List.mem_append_right _ he)⟩
  · obtain ⟨hfalse, htrue⟩ := hp.isPastHome_parts h hhome
    have hway := onTheWay_eq (w := w) (hp.split.trans (List.append_cons _ _ _))
    rw [hway, List.filter_append, filter_filesIn_eq_nil hfalse, filter_filesIn_of_forall htrue,
      List.nil_append]
    exact hfound past fun e he => ⟨by simp [he], (hp.past e he).2.symm⟩

end Parted

namespace Respelled

variable {w : World} {r a d home : Path} {names : List (List Char)}
  {before past : List (List (List Char))} {f : Setting}

theorem exists_parted (h : Respelled w r a) (hinits : r.steps.inits = before ++ names :: past)
    (hbefore : ∀ i ∈ before, i <+: names ∧ i ≠ names)
    (hpast : ∀ i ∈ past, names <+: i ∧ names ≠ i) :
    ∃ above ds d es, Parted w a names above ds d es ∧
      ds.map Path.steps = before.map (w.cwd ++ ·) ∧ es.map Path.steps = past.map (w.cwd ++ ·) := by
  obtain ⟨above, inner, hsplit, habove, hinner⟩ := h.exists_split
  rw [hinits, List.map_append, List.map_cons] at hinner
  obtain ⟨ds, rest, rfl, hds, hrest⟩ := List.map_eq_append_iff.mp hinner
  obtain ⟨d, es, rfl, hd, hes⟩ := List.map_eq_cons_iff.mp hrest
  refine ⟨above, ds, d, es, ?_, hds, hes⟩
  constructor
  · rw [hsplit, List.append_assoc]
  · exact habove
  · intro e he
    have hsteps : e.steps ∈ before.map (w.cwd ++ ·) := hds ▸ List.mem_map_of_mem he
    obtain ⟨i, hi, heq⟩ := List.mem_map.mp hsteps
    obtain ⟨hinitial, hne⟩ := hbefore i hi
    rw [← heq]
    refine ⟨List.prefix_append _ _, (List.prefix_append_right_inj _).mpr hinitial, ?_⟩
    simpa using hne
  · exact hd
  · intro e he
    have hsteps : e.steps ∈ past.map (w.cwd ++ ·) := hes ▸ List.mem_map_of_mem he
    obtain ⟨i, hi, heq⟩ := List.mem_map.mp hsteps
    obtain ⟨hinitial, hne⟩ := hpast i hi
    rw [← heq]
    exact ⟨(List.prefix_append_right_inj _).mpr hinitial, by simpa using hne⟩

theorem latest?_absolute (h : Respelled w r a) (ht : w.tree.WellFormed)
    (hhome : Through w r home names) {above ds es : List Path} {d : Path}
    (hp : Parted w a names above ds d es) :
    (latest? w (onTheWay w a) f).or (latest? w (homeFile w) f) =
      (latest? w (filesIn es) f).or
        (if (places a).any (!isFresh w ·)
          then (latest? w (filesIn (above ++ ds)) f).or (latest? w (homeFile w) f)
          else (latest? w (homeFile w) f).or (latest? w (filesIn (above ++ ds)) f)) := by
  refine latest?_around hhome.mem hhome.isFile hp.split ?_ ?_ ?_ f
  · refine locate_home ht hhome.isFile h.fitsAbsolute (hp.mem_ancestors (by simp)) ?_
    rw [Path.start, if_pos h.absolute, List.nil_append, hp.home, hhome.resolve]
  · exact fun e he => hp.isFresh_of_steps_ne h hhome
      (List.mem_append_left _ he) (hp.steps_ne he)
  · exact fun e he => hp.isFresh_of_steps_ne h hhome
      (List.mem_append_right _ (List.mem_cons_of_mem d he)) (hp.past e he).2.symm

theorem exists_parts_relative (hhome : Through w r home names)
    (hinits : r.steps.inits = before ++ names :: past) :
    ∃ fs d gs, r.ancestors.reverse = fs ++ d :: gs ∧ d.steps = names ∧
      (fs.map Path.steps = before ∨ fs.map Path.steps = [] :: before ∧ before.head? = some []) ∧
      gs.map Path.steps = past := by
  have hhead : before.head? = some [] := by
    have hfirst : r.steps.inits.head? = some [] := by cases r.steps <;> simp
    rw [hinits] at hfirst
    cases before with
    | nil => exact absurd (Option.some.inj hfirst) hhome.ne
    | cons i rest => exact hfirst
  obtain ⟨first, hsteps, hfirst⟩ :
      ∃ first, r.ancestors.reverse.map Path.steps = first ++ names :: past ∧
        (first = before ∨ first = [] :: before ∧ before.head? = some []) := by
    rcases steps_ancestors_or r with honce | htwice
    · exact ⟨before, honce.trans hinits, .inl rfl⟩
    · exact ⟨[] :: before, htwice.trans (congrArg _ hinits), .inr ⟨rfl, hhead⟩⟩
  obtain ⟨fs, rest, hsplit, rfl, hrest⟩ := List.map_eq_append_iff.mp hsteps
  obtain ⟨d, gs, rfl, hd, hgs⟩ := List.map_eq_cons_iff.mp hrest
  exact ⟨fs, d, gs, hsplit, hd, hfirst, hgs⟩

theorem latest?_relative (h : Respelled w r a) (ht : w.tree.WellFormed)
    (hcwd : w.tree.isFolderAt w.cwd = true) (hhome : Through w r home names)
    (hinits : r.steps.inits = before ++ names :: past)
    (hbefore : ∀ i ∈ before, i <+: names ∧ i ≠ names)
    (hpast : ∀ i ∈ past, names <+: i ∧ names ≠ i) {ds es : List Path}
    (hds : ∀ d ∈ ds, d ∈ a.ancestors) (hdsSteps : ds.map Path.steps = before.map (w.cwd ++ ·))
    (hes : ∀ d ∈ es, d ∈ a.ancestors) (hesSteps : es.map Path.steps = past.map (w.cwd ++ ·)) :
    (latest? w (onTheWay w r) f).or (latest? w (homeFile w) f) =
      (latest? w (filesIn es) f).or
        (if (places r).any (!isFresh w ·)
          then (latest? w (filesIn ds) f).or (latest? w (homeFile w) f)
          else (latest? w (homeFile w) f).or (latest? w (filesIn ds) f)) := by
  obtain ⟨fs, d, gs, hsplit, hd, hfs, hgs⟩ := exists_parts_relative hhome hinits
  have hmem : ∀ e ∈ fs ++ d :: gs, e ∈ r.ancestors := fun e he =>
    List.mem_reverse.mp (hsplit ▸ he)
  have hfresh : ∀ e ∈ fs ++ d :: gs, e.steps ≠ names → isFresh w (e.join fileName) = true := by
    intro e he hne
    apply isFresh_of_resolve_ne hhome.mem
    rw [h.resolve_relative (hmem e he), hhome.resolve]
    simpa using hne
  have hfsEq : latest? w (filesIn fs) f = latest? w (filesIn ds) f :=
    h.latest?_filesIn_eq ht hcwd (fun e he => hmem e (List.mem_append_left _ he)) hfs hds hdsSteps f
  have hgsEq : latest? w (filesIn gs) f = latest? w (filesIn es) f :=
    h.latest?_filesIn_eq ht hcwd (fun e he => hmem e (by simp [he])) (.inl hgs) hes hesSteps f
  rw [← hfsEq, ← hgsEq]
  refine latest?_around hhome.mem hhome.isFile hsplit ?_ ?_ ?_ f
  · refine locate_home ht hhome.isFile h.fitsRelative (hmem d (by simp)) ?_
    rw [Path.start, if_neg h.relative, hd, hhome.resolve]
  · intro e he
    refine hfresh e (List.mem_append_left _ he) ?_
    have hsteps : e.steps ∈ fs.map Path.steps := List.mem_map_of_mem he
    rcases hfs with hfs | ⟨hfs, -⟩ <;> rw [hfs] at hsteps
    · exact (hbefore _ hsteps).2
    · rcases List.mem_cons.mp hsteps with hnil | hsteps
      · exact hnil ▸ hhome.ne.symm
      · exact (hbefore _ hsteps).2
  · intro e he
    refine hfresh e (List.mem_append_right _ (List.mem_cons_of_mem d he)) ?_
    exact (hpast _ (hgs ▸ List.mem_map_of_mem he)).2.symm

end Respelled

section Settings

variable {w : World} {r : Path}

theorem exists_through {r' a' : Path} (h : Respelled w r' a') (hhome : ¬HomeAside w r)
    (hfolders : ∀ l, w.tree.isFolderAt l = true → l <+: r.resolve w.cwd → l <+: r'.resolve w.cwd) :
    ∃ home names, Through w r' home names := by
  simp only [HomeAside, not_forall] at hhome
  obtain ⟨home, hmem, hfile, ⟨names, hnames⟩, hinitial, hne⟩ := hhome
  have hfolder : w.tree.isFolderAt (home.resolve w.cwd) = true := by
    obtain ⟨l, hl, hat⟩ := World.isFile_eq_true_iff.mp hfile
    rw [FileTree.locate_eq_ok hl, Path.resolve_join_name _ _ isName_fileName] at hat
    exact FileTree.isFolderAt_of_isFileAt hat
  have hbelow := hfolders _ hfolder hinitial
  rw [← hnames, h.resolve_relative List.mem_cons_self, List.prefix_append_right_inj] at hbelow
  refine ⟨home, names, hmem, hfile, hnames.symm, ?_, hbelow⟩
  rintro rfl
  exact hne (by rw [← hnames, List.append_nil])

/-- With a home directory below the current one on the way, a path from the current directory and
the same path from the root have the same settings if and only if, where no file past the home
directory decides, the file of the home directory and those before it give the same in both. A
search that leaves the home directory out has the files before it on top, and from the root there
are more of them. -/
theorem spellings_agree_iff_of_home_between (ht : w.tree.WellFormed)
    (hcwd : w.tree.isFolderAt w.cwd = true) (hr : r.anchor ≠ .root) (hup : .up ∉ r.components)
    (hfound : w.isFile r = true ∨ w.isFolder r = true) (hfits : Fits (w.here.join r.text))
    (hhome : ¬HomeAside w r) :
    (settings w r).1 = (settings w (w.here.join r.text)).1 ↔
      ∀ f, latest? w (filesPastHome w (w.here.join r.text)) f = none →
        (aroundHome w r (filesBeforeHome w (w.here.join r.text)) f).getD f.standard =
          (aroundHome w (w.here.join r.text) (filesAbove w (w.here.join r.text) ++
            filesBeforeHome w (w.here.join r.text)) f).getD f.standard := by
  obtain ⟨r', a', hstart, hstart', h, -, hfolders⟩ :=
    exists_startFolders ht hcwd hr hup hfound hfits
  obtain ⟨home, names, hthrough⟩ := exists_through h hhome hfolders
  obtain ⟨before, past, hinits, hbefore, hpast⟩ := exists_inits_of_prefix hthrough.initial
  obtain ⟨above, ds, d, es, hp, hds, hes⟩ := h.exists_parted hinits hbefore hpast
  have hwayTo : wayTo w (w.here.join r.text) = onTheWay w a' := by simp [wayTo, hstart']
  have hout : leavesOut w r = (places r').any (!isFresh w ·) := by simp [leavesOut, hstart]
  have hout' : leavesOut w (w.here.join r.text) = (places a').any (!isFresh w ·) := by
    simp [leavesOut, hstart']
  have hparts := hp.latest?_filter_onTheWay h hthrough
  have hrelative : ∀ f, (settings w r).1.value f =
      ((latest? w (filesPastHome w (w.here.join r.text)) f).or
        (aroundHome w r (filesBeforeHome w (w.here.join r.text)) f)).getD f.standard := by
    intro f
    obtain ⟨-, hbeforeHome, hpastHome⟩ := hparts f
    rw [value_settings, files_eq hstart, ← latest?, latest?_append,
      h.latest?_relative ht hcwd hthrough hinits hbefore hpast
        (fun e he => hp.mem_ancestors (by simp [he])) hds
        (fun e he => hp.mem_ancestors (by simp [he])) hes,
      aroundHome, hout, filesPastHome, filesBeforeHome, filesInside, hwayTo, hbeforeHome, hpastHome]
  have habsolute : ∀ f, (settings w (w.here.join r.text)).1.value f =
      ((latest? w (filesPastHome w (w.here.join r.text)) f).or
        (aroundHome w (w.here.join r.text) (filesAbove w (w.here.join r.text) ++
          filesBeforeHome w (w.here.join r.text)) f)).getD f.standard := by
    intro f
    obtain ⟨habove, hbeforeHome, hpastHome⟩ := hparts f
    rw [value_settings, files_eq hstart', ← latest?, latest?_append,
      h.latest?_absolute ht hthrough hp, aroundHome, hout', filesPastHome, filesBeforeHome,
      filesInside, filesAbove, hwayTo, latest?_append, habove, hbeforeHome, hpastHome,
      filesIn_append, latest?_append]
  exact settings_eq_iff_of_or hrelative habsolute

theorem isFresh_join_iff {home d : Path} (hmem : home ∈ w.homeFolder)
    (hfile : w.isFile (home.join fileName) = true) :
    isFresh w (d.join fileName) = true ↔ d.components ≠ home.components := by
  rw [isFresh, homeFile_of_mem hmem hfile, List.any_cons, List.any_nil, Bool.or_false,
    Bool.not_eq_true', ← Bool.not_eq_true, Path.same_iff, d.components_join_name isName_fileName,
    home.components_join_name isName_fileName]
  exact not_congr (List.append_left_inj _)

/-- A home directory that is named from the root is left out from the root, and from there only. -/
theorem leavesOut_of_rooted_home (ht : w.tree.WellFormed) (hcwd : w.tree.isFolderAt w.cwd = true)
    (hr : r.anchor ≠ .root) (hup : .up ∉ r.components)
    (hfound : w.isFile r = true ∨ w.isFolder r = true) (hfits : Fits (w.here.join r.text))
    (hhome : ¬HomeAside w r)
    (hrooted : ∀ home ∈ w.homeFolder, home.anchor = .root ∧ .up ∉ home.components) :
    leavesOut w r = false ∧ leavesOut w (w.here.join r.text) = true := by
  obtain ⟨r', a', hstart, hstart', h, -, hfolders⟩ :=
    exists_startFolders ht hcwd hr hup hfound hfits
  obtain ⟨home, names, hthrough⟩ := exists_through h hhome hfolders
  obtain ⟨hanchor, hdown⟩ := hrooted home hthrough.mem
  obtain ⟨before, past, hinits, hbefore, hpast⟩ := exists_inits_of_prefix hthrough.initial
  obtain ⟨above, ds, d, es, hp, -, -⟩ := h.exists_parted hinits hbefore hpast
  have hfresh := fun e => isFresh_join_iff (d := e) hthrough.mem hthrough.isFile
  constructor
  · have hall : ∀ e ∈ r'.ancestors, isFresh w (e.join fileName) = true := by
      intro e he
      rw [hfresh e]
      intro heq
      have hroot : e.anchor = .root := by
        rwa [Path.anchor_eq_root_iff_components, heq, ← Path.anchor_eq_root_iff_components]
      exact h.relative ((Path.anchor_of_mem_ancestors he).mp hroot)
    simpa [leavesOut, hstart, places] using hall
  · have hdmem : d ∈ a'.ancestors := hp.mem_ancestors (by simp)
    have hsteps : home.steps = d.steps := by
      have hnames : ['.', '.'] ∉ home.steps := by
        rw [Path.components_eq] at hdown
        exact fun hmem => hdown (List.mem_append_right _ (List.mem_map.mpr ⟨_, hmem, rfl⟩))
      rw [hp.home, ← hthrough.resolve, Path.resolve_of_up_notMem hnames, Path.start, if_pos hanchor,
        List.nil_append]
    have hnot : isFresh w (d.join fileName) = false := by
      rw [← Bool.not_eq_true, hfresh d, not_not, Path.components_eq, Path.components_eq, hsteps,
        hanchor, (Path.anchor_of_mem_ancestors hdmem).mpr h.absolute]
    simp only [leavesOut, hstart', Option.toList_some, List.flatMap_singleton, List.any_eq_true]
    exact ⟨d.join fileName, List.mem_map_of_mem (List.mem_reverse.mpr hdmem), by rw [hnot]; rfl⟩

/-- In the usual case, with the home directory named from the root, the files before it must give
what it gives, or else, where it gives nothing, what those from the current directory on give. -/
theorem spellings_agree_iff_of_rooted_home (ht : w.tree.WellFormed)
    (hcwd : w.tree.isFolderAt w.cwd = true) (hr : r.anchor ≠ .root) (hup : .up ∉ r.components)
    (hfound : w.isFile r = true ∨ w.isFolder r = true) (hfits : Fits (w.here.join r.text))
    (hhome : ¬HomeAside w r)
    (hrooted : ∀ home ∈ w.homeFolder, home.anchor = .root ∧ .up ∉ home.components) :
    (settings w r).1 = (settings w (w.here.join r.text)).1 ↔
      ∀ f v, latest? w (filesPastHome w (w.here.join r.text)) f = none →
        latest? w (filesAbove w (w.here.join r.text) ++
          filesBeforeHome w (w.here.join r.text)) f = some v →
          v = ((latest? w (homeFile w) f).or
            (latest? w (filesBeforeHome w (w.here.join r.text)) f)).getD f.standard := by
  obtain ⟨hkept, hout⟩ := leavesOut_of_rooted_home ht hcwd hr hup hfound hfits hhome hrooted
  rw [spellings_agree_iff_of_home_between ht hcwd hr hup hfound hfits hhome]
  simp only [aroundHome, hkept, hout, if_true, Bool.false_eq_true, if_false]
  refine forall_congr' fun f => ?_
  cases hfar : latest? w (filesAbove w (w.here.join r.text) ++
      filesBeforeHome w (w.here.join r.text)) f with
  | some v => simp [eq_comm]
  | none =>
    have hbefore : latest? w (filesBeforeHome w (w.here.join r.text)) f = none := by
      rw [latest?_append, Option.or_eq_none_iff] at hfar
      exact hfar.1
    simp [hbefore]

end Settings

def homeBelowWorld : World where
  tree := { files := [
    (["w".toList, "ahkfmt.toml".toList], Utf8.encode "tab_width = 2\n".toList),
    (["w".toList, "h".toList, "ahkfmt.toml".toList], Utf8.encode "tab_width = 8\n".toList),
    (["w".toList, "h".toList, "a.ahk".toList], Utf8.encode [])] }
  cwd := ["w".toList]
  home := some ⟨"/w/h".toList⟩

example :
    ¬HomeAside homeBelowWorld ⟨"h/a.ahk".toList⟩ ∧
      files homeBelowWorld ⟨"h/a.ahk".toList⟩ = [⟨"/w/h/ahkfmt.toml".toList⟩,
        ⟨"ahkfmt.toml".toList⟩, ⟨"h/ahkfmt.toml".toList⟩] ∧
      (settings homeBelowWorld ⟨"h/a.ahk".toList⟩).1.tabWidth = 8 ∧
      files homeBelowWorld ⟨"/w/h/a.ahk".toList⟩ =
        [⟨"/w/h/ahkfmt.toml".toList⟩, ⟨"/w/ahkfmt.toml".toList⟩] ∧
      (settings homeBelowWorld ⟨"/w/h/a.ahk".toList⟩).1.tabWidth = 2 := by
  unfold HomeAside
  decide +kernel

end Discovery
end HotkeyScript
