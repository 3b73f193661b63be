import HotkeyScript.Proofs.Places
import HotkeyScript.Run.Session

/-!
# The scripts of a run are different files

One input gives every script at most once. Two inputs can give the same script: nothing is taken out
of the list when they do. They do not if neither of them leads to the place of the other or below it,
and then all scripts of a run are different files.
-/

namespace HotkeyScript

namespace World

/-- Neither path leads to the place of the other or below it. -/
def Disjoint (w : World) (p q : Path) : Prop :=
  ∀ l m, w.tree.locate w.cwd p = .ok l → w.tree.locate w.cwd q = .ok m → ¬l <+: m ∧ ¬m <+: l

end World

namespace FileTree

theorem below?_eq_some {folder l names : Location} (h : below? folder l = some names) :
    l = folder ++ names := by
  unfold below? at h
  split at h
  · next hbelow =>
    obtain ⟨rest, rfl⟩ := List.isPrefixOf_iff_prefix.mp hbelow.1
    rw [← Option.some.inj h, List.drop_left]
  · cases h

theorem locate_below {t : FileTree} (ht : t.WellFormed) {cwd folder l : Location} {p : Path}
    {f : Location × ByteArray} {names : Location} (hf : f ∈ t.files)
    (hp : t.locate cwd p = .ok folder) (hnames : below? folder f.1 = some names)
    (hl : t.locate cwd (names.foldl Path.join p) = .ok l) : l = f.1 := by
  have hf' := below?_eq_some hnames
  have hproper : ∀ n ∈ names, Path.IsName n := fun n hn =>
    ht.fileNames f hf n (hf' ▸ List.mem_append_right folder hn)
  rw [locate_eq_ok hl, Path.resolve_foldl_join hproper, ← locate_eq_ok hp, hf']

end FileTree

namespace Run

open Command

def scriptsOf (w : World) (a : Arguments) (input : Path) : List Path :=
  (scriptsOf? w a (exclusions a.exclude).1 input).getD []

theorem scriptsOfAll_fst (w : World) (a : Arguments) (patterns : List (List Glob.Token))
    (inputs : List Path) :
    (scriptsOfAll w a patterns inputs).1 =
      inputs.flatMap fun input => (scriptsOf? w a patterns input).getD [] := by
  induction inputs with
  | nil => rfl
  | cons input rest ih =>
    rw [List.flatMap_cons, ← ih, scriptsOfAll]
    cases scriptsOf? w a patterns input <;> rfl

theorem collect_fst (w : World) (a : Arguments) :
    (collect w a).1 = a.inputs.flatMap (scriptsOf w a) :=
  scriptsOfAll_fst w a (exclusions a.exclude).1 a.inputs

section Scripts

variable {w : World} {a : Arguments} {input p : Path}

theorem mem_filesBelow {t : FileTree} {cwd : Location} {depth : Nat}
    (h : p ∈ t.filesBelow cwd input depth) :
    ∃ folder f names, t.locate cwd input = .ok folder ∧ f ∈ t.files ∧
      FileTree.below? folder f.1 = some names ∧ p = names.foldl Path.join input := by
  unfold FileTree.filesBelow at h
  split at h
  · cases h
  · next folder hfolder =>
    obtain ⟨f, hf, hp⟩ := List.mem_filterMap.mp h
    obtain ⟨names, hnames, hp⟩ := Option.bind_eq_some_iff.mp hp
    split at hp
    · exact ⟨folder, f, names, hfolder, hf, hnames, (Option.some.inj hp).symm⟩
    · cases hp

theorem locate_of_mem_scriptsOf (ht : w.tree.WellFormed) (h : p ∈ scriptsOf w a input) :
    w.isFile p = true ∧ ∃ l m, w.tree.locate w.cwd input = .ok l ∧
      w.tree.locate w.cwd p = .ok m ∧ l <+: m := by
  unfold scriptsOf scriptsOf? at h
  split at h
  · next hfile =>
    obtain rfl : p = input := by
      rw [Option.getD_some] at h
      split at h
      · cases h
      · exact List.mem_singleton.mp h
    obtain ⟨l, hl, -⟩ := World.isFile_eq_true_iff.mp hfile
    exact ⟨hfile, l, l, hl, hl, List.prefix_rfl⟩
  · split at h
    · rw [Option.getD_some, List.mem_filter] at h
      simp only [Bool.and_eq_true] at h
      obtain ⟨hbelow, ⟨hfile, -⟩, -⟩ := h
      obtain ⟨folder, f, names, hfolder, hf, hnames, rfl⟩ := mem_filesBelow hbelow
      obtain ⟨m, hm, -⟩ := World.isFile_eq_true_iff.mp hfile
      refine ⟨hfile, folder, m, hfolder, hm, ?_⟩
      rw [FileTree.locate_below ht hf hfolder hnames hm, FileTree.below?_eq_some hnames]
      exact List.prefix_append folder names
    · cases h

theorem pairwise_filesBelow (ht : w.tree.WellFormed) (input : Path) (depth : Nat) :
    (w.tree.filesBelow w.cwd input depth).Pairwise w.Apart := by
  unfold FileTree.filesBelow
  split
  · exact List.Pairwise.nil
  · next folder hfolder =>
    rw [List.pairwise_filterMap]
    have hdistinct : w.tree.files.Pairwise fun f f' => f.1 ≠ f'.1 :=
      List.pairwise_map.mp ht.distinct
    refine hdistinct.imp_of_mem ?_
    intro f f' hf hf' hne p hp q hq l hl hl'
    have hplace : ∀ g ∈ w.tree.files, ∀ r, ((FileTree.below? folder g.1).bind fun names =>
        if names.length ≤ depth then some (names.foldl Path.join input) else none) = some r →
        w.tree.locate w.cwd r = .ok l → l = g.1 := by
      intro g hg r hr hrl
      obtain ⟨names, hnames, hr⟩ := Option.bind_eq_some_iff.mp hr
      split at hr
      · obtain rfl := Option.some.inj hr
        exact FileTree.locate_below ht hg hfolder hnames hrl
      · cases hr
    exact hne ((hplace f hf p hp hl).symm.trans (hplace f' hf' q hq hl'))

theorem pairwise_scriptsOf (ht : w.tree.WellFormed) (a : Arguments) (input : Path) :
    (scriptsOf w a input).Pairwise w.Apart := by
  unfold scriptsOf scriptsOf?
  split
  · rw [Option.getD_some]
    split
    · exact List.Pairwise.nil
    · exact List.pairwise_singleton _ _
  · split
    · exact (pairwise_filesBelow ht input _).filter _
    · exact List.Pairwise.nil

/-- Inputs that have nothing to do with each other give different scripts. -/
theorem apart_of_disjoint (ht : w.tree.WellFormed) {input' q : Path}
    (h : w.Disjoint input input') (hp : p ∈ scriptsOf w a input) (hq : q ∈ scriptsOf w a input') :
    w.Apart p q := by
  intro m hpm hqm
  obtain ⟨-, l, n, hl, hn, hprefix⟩ := locate_of_mem_scriptsOf ht hp
  obtain ⟨-, l', n', hl', hn', hprefix'⟩ := locate_of_mem_scriptsOf ht hq
  obtain rfl : n = m := Except.ok.inj (hn.symm.trans hpm)
  obtain rfl : n' = n := Except.ok.inj (hn'.symm.trans hqm)
  obtain ⟨hnot, hnot'⟩ := h l l' hl hl'
  exact (List.prefix_or_prefix_of_prefix hprefix hprefix').elim hnot hnot'

/-- The scripts of a run are different files if and only if no two inputs give the same file. So they
are if no input leads to the place of another one or below it, and no path is there twice. -/
theorem scripts_differ_iff (ht : w.tree.WellFormed) (a : Arguments) :
    ((collect w a).1.Pairwise w.Apart ↔
      a.inputs.Pairwise fun i j => ∀ p ∈ scriptsOf w a i, ∀ q ∈ scriptsOf w a j, w.Apart p q) ∧
    (a.inputs.Pairwise w.Disjoint →
      (collect w a).1.Pairwise w.Apart ∧ (collect w a).1.Nodup) := by
  have hiff : (collect w a).1.Pairwise w.Apart ↔
      a.inputs.Pairwise fun i j => ∀ p ∈ scriptsOf w a i, ∀ q ∈ scriptsOf w a j, w.Apart p q := by
    rw [collect_fst, List.pairwise_flatMap]
    exact and_iff_right fun input _ => pairwise_scriptsOf ht a input
  refine ⟨hiff, fun hinputs => ?_⟩
  have hapart : (collect w a).1.Pairwise w.Apart :=
    hiff.mpr (hinputs.imp fun h p hp q hq => apart_of_disjoint ht h hp hq)
  refine ⟨hapart, hapart.imp_of_mem ?_⟩
  rintro p q hp - hpq rfl
  rw [collect_fst, List.mem_flatMap] at hp
  obtain ⟨input, -, hp⟩ := hp
  obtain ⟨-, l, m, -, hm, -⟩ := locate_of_mem_scriptsOf ht hp
  exact hpq m hm hm

end Scripts

def partedWorld : World where
  tree := { files := [
    (["src".toList, "a.ahk".toList], Utf8.encode []),
    (["src".toList, "x".toList, "b.ahk".toList], Utf8.encode []),
    (["src".toList, "notes.txt".toList], Utf8.encode []),
    (["lib".toList, "b.ahk".toList], Utf8.encode [])] }

def partedArguments : Arguments := { inputs := [⟨"src".toList⟩, ⟨"lib/".toList⟩], recursive := true }

theorem scripts_differ_iff_parted :
    (collect partedWorld partedArguments).1 =
        [⟨"src/a.ahk".toList⟩, ⟨"src/x/b.ahk".toList⟩, ⟨"lib/b.ahk".toList⟩] ∧
      (collect partedWorld partedArguments).1.Pairwise partedWorld.Apart ∧
      (collect partedWorld partedArguments).1.Nodup := by
  have hfirst : partedWorld.tree.locate partedWorld.cwd ⟨"src".toList⟩ = .ok ["src".toList] := rfl
  have hsecond : partedWorld.tree.locate partedWorld.cwd ⟨"lib/".toList⟩ = .ok ["lib".toList] := rfl
  have hinputs : partedArguments.inputs.Pairwise partedWorld.Disjoint := by
    refine List.pairwise_pair.mpr ?_
    intro l m hl hm
    cases hfirst.symm.trans hl
    cases hsecond.symm.trans hm
    decide
  exact ⟨by decide +kernel, (scripts_differ_iff (by decide +kernel) partedArguments).2 hinputs⟩

def repeatedWorld : World where
  tree := { files := [(["a.ahk".toList], Utf8.encode "x  y\n".toList)] }

def repeatedArguments : Arguments :=
  { check := true, inputs := [⟨"a.ahk".toList⟩, ⟨"a.ahk".toList⟩] }

/-- A script that is named twice is taken twice, and counted twice. -/
theorem script_is_taken_twice :
    (collect repeatedWorld repeatedArguments).1 = [⟨"a.ahk".toList⟩, ⟨"a.ahk".toList⟩] ∧
      ¬(collect repeatedWorld repeatedArguments).1.Nodup ∧
      (runWith repeatedWorld repeatedArguments .empty).remarks = [.wouldChange 2] := by
  decide +kernel

end Run
end HotkeyScript
