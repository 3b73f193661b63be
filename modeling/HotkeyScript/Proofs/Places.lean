import HotkeyScript.Proofs.Paths

/-!
# Where paths lead

A path that leads somewhere leads to the place that its components spell out, one move after another.
What is looked up from a directory is found from the root too, on the way through the names of that
directory.
-/

namespace HotkeyScript
namespace Path

def Component.move (l : Location) : Component → Location
  | .root => []
  | .here => l
  | .up => l.dropLast
  | .name s => l ++ [s]

/-- The place that the components of a path spell out. -/
def resolve (cwd : Location) (p : Path) : Location := p.components.foldl Component.move cwd

def start (cwd : Location) (p : Path) : Location := if p.anchor = .root then [] else cwd

theorem resolve_eq (cwd : Location) (p : Path) :
    p.resolve cwd = (p.steps.map Component.ofPiece).foldl Component.move (p.start cwd) := by
  rw [resolve, components_eq, List.foldl_append, start]
  cases p.anchor <;> rfl

theorem foldl_move_of_up_notMem {ss : List (List Char)} (h : ['.', '.'] ∉ ss) (l : Location) :
    (ss.map Component.ofPiece).foldl Component.move l = l ++ ss := by
  induction ss generalizing l with
  | nil => simp
  | cons s ss ih =>
    rw [List.mem_cons, not_or] at h
    have hs : Component.ofPiece s = .name s := if_neg (Ne.symm h.1)
    rw [List.map_cons, List.foldl_cons, hs, Component.move, ih h.2, List.append_assoc]
    rfl

theorem resolve_of_up_notMem {p : Path} (h : ['.', '.'] ∉ p.steps) (cwd : Location) :
    p.resolve cwd = p.start cwd ++ p.steps := by
  rw [resolve_eq, foldl_move_of_up_notMem h]

theorem resolve_join_name (cwd : Location) (p : Path) {s : List Char} (h : IsName s) :
    (p.join s).resolve cwd = p.resolve cwd ++ [s] := by
  rw [resolve, components_join_name p h, List.foldl_append]
  rfl

theorem resolve_foldl_join {names : List (List Char)} (h : ∀ n ∈ names, IsName n) (cwd : Location)
    (p : Path) : (names.foldl join p).resolve cwd = p.resolve cwd ++ names := by
  induction names generalizing p with
  | nil => simp
  | cons n names ih =>
    rw [List.foldl_cons, ih (fun m hm => h m (List.mem_cons_of_mem _ hm)),
      resolve_join_name cwd p (h n List.mem_cons_self), List.append_assoc]
    rfl

theorem steps_foldl_join {names : List (List Char)} (h : ∀ n ∈ names, IsName n) (p : Path) :
    (names.foldl join p).steps = p.steps ++ names := by
  induction names generalizing p with
  | nil => simp
  | cons n names ih =>
    rw [List.foldl_cons, ih (fun m hm => h m (List.mem_cons_of_mem _ hm)), steps_join,
      (h n List.mem_cons_self).steps, List.append_assoc]
    rfl

theorem anchor_foldl_join (names : List (List Char)) {p : Path} (h : p.text ≠ []) :
    (names.foldl join p).text ≠ [] ∧ (names.foldl join p).anchor = p.anchor := by
  induction names generalizing p with
  | nil => exact ⟨h, rfl⟩
  | cons n names ih =>
    rw [List.foldl_cons, ← anchor_join h n]
    exact ih (text_join_ne_nil h n)

end Path

namespace FileTree

open HotkeyScript.Path

section Walk

variable {t : FileTree} {l : Location} {piece s : List Char} {ps qs : List (List Char)}

theorem walk_void (hl : t.isFolderAt l = true) (h : isVoid piece = true) (ps : List (List Char)) :
    t.walk l (piece :: ps) = t.walk l ps := by
  have hvoid : piece = [] ∨ piece = ['.'] := by simpa [isVoid] using h
  rw [walk, if_pos hl, if_pos hvoid]

theorem walk_name (hl : t.isFolderAt l = true) (h : IsName s) (ps : List (List Char)) :
    t.walk l (s :: ps) = t.walk (l ++ [s]) ps := by
  have hvoid : ¬(s = [] ∨ s = ['.']) := by simpa [isVoid] using h.void
  rw [walk, if_pos hl, if_neg hvoid, if_neg h.up, if_neg (Nat.not_lt.mpr h.width)]

theorem walk_void_of_ne_nil (h : isVoid piece = true) (hps : ps ≠ []) :
    t.walk l (piece :: ps) = t.walk l ps := by
  cases hl : t.isFolderAt l with
  | true => exact walk_void hl h ps
  | false =>
    obtain ⟨q, qs, rfl⟩ := List.exists_cons_of_ne_nil hps
    simp [walk, hl]

theorem walk_append_singleton (ps : List (List Char)) (l : Location) (s : List Char) :
    t.walk l (ps ++ [s]) = t.walk l (ps.filter (!isVoid ·) ++ [s]) := by
  induction ps generalizing l with
  | nil => rfl
  | cons piece ps ih =>
    rw [List.cons_append, List.filter_cons]
    cases hpiece : isVoid piece with
    | true =>
      rw [walk_void_of_ne_nil hpiece (by simp), ih]
      rfl
    | false => simp [walk, ih]

theorem isFolderAt_of_prefix {m : Location} (h : l <+: m) (hm : t.isFolderAt m = true) :
    t.isFolderAt l = true := by
  simp only [isFolderAt, Bool.or_eq_true, List.isEmpty_iff, List.any_eq_true, Bool.and_eq_true,
    List.isPrefixOf_iff_prefix, bne_iff_ne] at hm ⊢
  rcases hm with (rfl | ⟨folder, hfolder, hinitial⟩) | ⟨f, hf, hinitial, hne⟩
  · exact .inl (.inl (List.prefix_nil.mp h))
  · exact .inl (.inr ⟨folder, hfolder, h.trans hinitial⟩)
  · refine .inr ⟨f, hf, h.trans hinitial, ?_⟩
    rintro rfl
    exact hne (hinitial.eq_of_length_le h.length_le)

/-- A walk through the names of a directory continues from that directory. -/
theorem walk_append (hnames : ∀ n ∈ ps.filter (!isVoid ·), IsName n)
    (hfolder : t.isFolderAt (l ++ ps.filter (!isVoid ·)) = true) (qs : List (List Char)) :
    t.walk l (ps ++ qs) = t.walk (l ++ ps.filter (!isVoid ·)) qs := by
  induction ps generalizing l with
  | nil => simp
  | cons piece ps ih =>
    have hl : t.isFolderAt l = true := isFolderAt_of_prefix (List.prefix_append _ _) hfolder
    rw [List.filter_cons] at hnames hfolder ⊢
    cases hpiece : isVoid piece with
    | true =>
      simp only [hpiece, Bool.not_true, Bool.false_eq_true, if_false] at hnames hfolder ⊢
      rw [List.cons_append, walk_void hl hpiece, ih hnames hfolder]
    | false =>
      simp only [hpiece, Bool.not_false, if_true] at hnames hfolder ⊢
      rw [List.append_cons] at hfolder ⊢
      rw [List.cons_append, walk_name hl (hnames piece List.mem_cons_self),
        ih (fun n hn => hnames n (List.mem_cons_of_mem _ hn)) hfolder]

theorem walk_eq_ok {t : FileTree} {l m : Location} {ps : List (List Char)}
    (h : t.walk l ps = .ok m) :
    m = ((ps.filter (!isVoid ·)).map Component.ofPiece).foldl Component.move l := by
  induction ps generalizing l with
  | nil =>
    unfold walk at h
    split at h
    · exact (Except.ok.inj h).symm
    · cases h
  | cons piece rest ih =>
    unfold walk at h
    split at h
    · split at h
      · next hvoid =>
        have hskip : isVoid piece = true := by simpa [isVoid] using hvoid
        simpa [hskip] using ih h
      · next hvoid =>
        have hstep : isVoid piece = false := by simpa [isVoid] using hvoid
        split at h
        · next hup =>
          subst hup
          exact ih h
        · next hup =>
          split at h
          · cases h
          · simpa [hstep, Component.ofPiece, Component.move, hup] using ih h
    · split at h <;> cases h

end Walk

section Locate

variable {t : FileTree} {cwd : Location} {p : Path}

theorem locate_eq (hp : p.text ≠ []) (hfits : Utf8.width p.text ≤ longestPath) :
    t.locate cwd p = t.walk (p.start cwd) (p.text.splitOn '/') := by
  rw [locate, if_neg (Nat.not_lt.mpr hfits), start]
  split
  · next hnil => exact absurd hnil hp
  · next s hs =>
    have hroot : t.isFolderAt [] = true := rfl
    rw [if_pos (anchor_eq_root_iff.mpr ⟨s, hs⟩), hs, splitOn_slash, walk_void hroot rfl]
  · next hslash =>
    have hanchor : p.anchor ≠ .root := fun h => by
      obtain ⟨s, hs⟩ := anchor_eq_root_iff.mp h
      exact hslash s hs
    rw [if_neg hanchor]

theorem fits_of_locate {l : Location} (h : t.locate cwd p = .ok l) :
    p.text ≠ [] ∧ Utf8.width p.text ≤ longestPath := by
  unfold locate at h
  split at h
  · cases h
  · next hfits =>
    refine ⟨?_, Nat.not_lt.mp hfits⟩
    intro hnil
    rw [hnil] at h
    cases h

/-- A path that leads somewhere leads to the place that its components spell out. -/
theorem locate_eq_ok {l : Location} (h : t.locate cwd p = .ok l) : l = p.resolve cwd := by
  obtain ⟨hp, hfits⟩ := fits_of_locate h
  rw [locate_eq hp hfits] at h
  rw [walk_eq_ok h, resolve_eq]
  rfl

theorem locate_join_name {s : List Char} (hs : IsName s)
    (hfits : Utf8.width (p.join s).text ≤ longestPath) :
    t.locate cwd (p.join s) = t.walk (p.start cwd) (p.steps ++ [s]) := by
  have hsplit : s.splitOn '/' = [s] := List.splitOn_eq_singleton hs.slash
  have hne : s ≠ [] := by
    rintro rfl
    cases hs.void
  by_cases hp : p.text = []
  · obtain ⟨text⟩ := p
    cases hp
    rw [join_nil] at hfits ⊢
    rw [locate_eq hne hfits, hsplit, start, hs.anchor]
    rfl
  · obtain ⟨ps, hjoin, hps⟩ := splitOn_join hp s
    rw [locate_eq (text_join_ne_nil hp s) hfits, hjoin, hsplit, walk_append_singleton, hps, start,
      anchor_join hp, ← start]

theorem locate_join_of_same {q : Path} {s : List Char} (hs : IsName s)
    (hsame : (p.join s).same (q.join s) = true) (hp : Utf8.width (p.join s).text ≤ longestPath)
    (hq : Utf8.width (q.join s).text ≤ longestPath) :
    t.locate cwd (p.join s) = t.locate cwd (q.join s) := by
  rw [same_iff, components_join_name p hs, components_join_name q hs] at hsame
  have hcomponents : p.components = q.components := List.append_cancel_right hsame
  have hstart : p.start cwd = q.start cwd := by
    simp only [start, anchor_eq_root_iff_components, hcomponents]
  rw [locate_join_name hs hp, locate_join_name hs hq, hstart, steps_eq, steps_eq, hcomponents]

end Locate

theorem isSome_below? {folder l : Location} :
    (below? folder l).isSome = true ↔ folder <+: l ∧ folder ≠ l := by
  unfold below?
  split
  · next h => simpa using h
  · next h => simpa using h

/-- A tree as a file system has it: names are names, no place holds two files, and no file is a
directory. -/
structure WellFormed (t : FileTree) : Prop where
  fileNames : ∀ f ∈ t.files, ∀ n ∈ f.1, IsName n
  folderNames : ∀ l ∈ t.folders, ∀ n ∈ l, IsName n
  distinct : (t.files.map Prod.fst).Nodup
  leaves : ∀ f ∈ t.files, t.isFolderAt f.1 = false

instance (t : FileTree) : Decidable t.WellFormed :=
  decidable_of_iff ((∀ f ∈ t.files, ∀ n ∈ f.1, IsName n) ∧ (∀ l ∈ t.folders, ∀ n ∈ l, IsName n) ∧
      (t.files.map Prod.fst).Nodup ∧ ∀ f ∈ t.files, t.isFolderAt f.1 = false)
    ⟨fun ⟨hfiles, hfolders, hdistinct, hleaves⟩ => ⟨hfiles, hfolders, hdistinct, hleaves⟩,
      fun ⟨hfiles, hfolders, hdistinct, hleaves⟩ => ⟨hfiles, hfolders, hdistinct, hleaves⟩⟩

theorem isName_of_isFolderAt {t : FileTree} (ht : t.WellFormed) {l : Location}
    (h : t.isFolderAt l = true) : ∀ n ∈ l, IsName n := by
  simp only [isFolderAt, Bool.or_eq_true, List.isEmpty_iff, List.any_eq_true, Bool.and_eq_true,
    List.isPrefixOf_iff_prefix] at h
  intro n hn
  rcases h with (rfl | ⟨folder, hfolder, hinitial⟩) | ⟨f, hf, hinitial, -⟩
  · cases hn
  · exact ht.folderNames folder hfolder n (hinitial.subset hn)
  · exact ht.fileNames f hf n (hinitial.subset hn)

theorem isFolderAt_of_isFileAt {t : FileTree} {l : Location} {s : List Char}
    {names : List (List Char)} (h : t.isFileAt (l ++ s :: names) = true) :
    t.isFolderAt l = true := by
  obtain ⟨f, hf, heq⟩ := List.any_eq_true.mp h
  have hplace : f.1 = l ++ s :: names := beq_iff_eq.mp heq
  simp only [isFolderAt, Bool.or_eq_true, List.any_eq_true, Bool.and_eq_true,
    List.isPrefixOf_iff_prefix, bne_iff_ne]
  exact .inr ⟨f, hf, hplace ▸ List.prefix_append _ _, by simp [hplace]⟩

/-- A file is found from every directory on the way to it. -/
theorem walk_of_isFileAt {t : FileTree} (ht : t.WellFormed) {l : Location}
    {names : List (List Char)} (h : t.isFileAt (l ++ names) = true) :
    t.walk l names = .ok (l ++ names) := by
  induction names generalizing l with
  | nil =>
    rw [List.append_nil] at h ⊢
    simp [walk, h]
  | cons s names ih =>
    have hs : IsName s := by
      obtain ⟨f, hf, heq⟩ := List.any_eq_true.mp h
      exact ht.fileNames f hf s (beq_iff_eq.mp heq ▸ List.mem_append_right l List.mem_cons_self)
    have hrest := ih (l := l ++ [s]) (by rwa [← List.append_cons])
    rw [walk_name (isFolderAt_of_isFileAt h) hs, hrest, ← List.append_cons]

end FileTree

namespace World

def Apart (w : World) (p q : Path) : Prop :=
  ∀ l, w.tree.locate w.cwd p = .ok l → w.tree.locate w.cwd q ≠ .ok l

theorem Apart.symm {w : World} {p q : Path} (h : w.Apart p q) : w.Apart q p :=
  fun l hq hp => h l hp hq

instance (w : World) : Std.Symm w.Apart := ⟨fun _ _ h => h.symm⟩

theorem isFile_eq_true_iff {w : World} {p : Path} :
    w.isFile p = true ↔ ∃ l, w.tree.locate w.cwd p = .ok l ∧ w.tree.isFileAt l = true := by
  unfold isFile FileTree.isFile
  cases w.tree.locate w.cwd p <;> simp

theorem isFolder_eq_true_iff {w : World} {p : Path} :
    w.isFolder p = true ↔ ∃ l, w.tree.locate w.cwd p = .ok l ∧ w.tree.isFileAt l = false ∧
      w.tree.isFolderAt l = true := by
  unfold isFolder FileTree.isFolder
  cases w.tree.locate w.cwd p <;> simp

section Here

variable {w : World} {r : Path}

theorem here_anchor (w : World) : w.here.text ≠ [] ∧ w.here.anchor = .root :=
  Path.anchor_foldl_join w.cwd (List.cons_ne_nil '/' [])

theorem here_steps (ht : w.tree.WellFormed) (hcwd : w.tree.isFolderAt w.cwd = true) :
    w.here.steps = w.cwd :=
  Path.steps_foldl_join (FileTree.isName_of_isFolderAt ht hcwd) ⟨['/']⟩

theorem walk_cwd_append (ht : w.tree.WellFormed) (hcwd : w.tree.isFolderAt w.cwd = true)
    (ps : List (List Char)) : w.tree.walk [] (w.cwd ++ ps) = w.tree.walk w.cwd ps := by
  have hnames := FileTree.isName_of_isFolderAt ht hcwd
  have hfilter : w.cwd.filter (!Path.isVoid ·) = w.cwd := by
    simpa using fun n hn => (hnames n hn).void
  rw [FileTree.walk_append (by rwa [hfilter]) (by rwa [hfilter, List.nil_append]), hfilter,
    List.nil_append]

theorem locate_here_join (ht : w.tree.WellFormed) (hcwd : w.tree.isFolderAt w.cwd = true)
    (hr : r.anchor ≠ .root) (hne : r.text ≠ [])
    (hfits : Utf8.width (w.here.join r.text).text ≤ FileTree.longestPath) :
    w.tree.locate w.cwd (w.here.join r.text) = w.tree.locate w.cwd r := by
  obtain ⟨hhere, hroot⟩ := here_anchor w
  have hfits' : Utf8.width r.text ≤ FileTree.longestPath :=
    (Path.width_le_join hhere r.text).trans hfits
  obtain ⟨ps, hsplit, hps⟩ := Path.splitOn_join hhere r.text
  rw [here_steps ht hcwd] at hps
  have hnames := FileTree.isName_of_isFolderAt ht hcwd
  rw [FileTree.locate_eq (Path.text_join_ne_nil hhere r.text) hfits, FileTree.locate_eq hne hfits',
    hsplit, Path.start, Path.start, Path.anchor_join hhere, hroot, if_pos rfl, if_neg hr,
    FileTree.walk_append (hps.symm ▸ hnames) (by rwa [hps, List.nil_append]), hps, List.nil_append]

end Here

end World
end HotkeyScript
