import HotkeyScript.Proofs.Spelling

/-!
# What a search for settings files finds

A search looks into the home directory and into the directories on the way to the script, as the
path of the script is written. It finds every settings file there, each of them once, that of the
home directory first and the others from the root down.
-/

namespace HotkeyScript
namespace Path

theorem same_comm (p q : Path) : p.same q = q.same p := by
  simp only [same, eq_comm]

theorem pairwise_ancestors (p : Path) :
    p.ancestors.reverse.Pairwise fun d e =>
      d.components <+: e.components ∧ d.components ≠ e.components := by
  have hway : (way p.anchor (p.steps.map .ofPiece)).Pairwise fun ds es => ds <+: es ∧ ds ≠ es := by
    refine (pairwise_way _ _).imp_of_mem ?_
    intro ds es hds hes hlt
    refine ⟨?_, fun h => Nat.lt_irrefl _ (h ▸ hlt)⟩
    exact List.prefix_of_prefix_length_le (prefix_of_mem_way hds) (prefix_of_mem_way hes) hlt.le
  rw [← components_ancestors] at hway
  exact List.pairwise_map.mp hway

end Path

namespace Discovery

inductive StartsIn (w : World) (start : Path) : Path → Prop
  | file {folder : Path} (hfile : w.isFile start = true) (hparent : start.parent? = some folder) :
      StartsIn w start folder
  | folder (hfolder : w.isFolder start = true) : StartsIn w start start
  | nowhere (hfile : w.isFile start = false) (hfolder : w.isFolder start = false) :
      StartsIn w start w.here

inductive Searched (w : World) (start : Path) : Path → Prop
  | home {d : Path} (hd : w.homeFolder = some d) : Searched w start d
  | way {folder d : Path} (hfolder : StartsIn w start folder) (hd : d ∈ folder.ancestors) :
      Searched w start d

section

variable {w : World} {start folder p : Path}

theorem not_isFile_of_isFolder (h : w.isFolder p = true) : w.isFile p = false := by
  obtain ⟨l, hl, hfile, -⟩ := World.isFolder_eq_true_iff.mp h
  rw [← Bool.not_eq_true, World.isFile_eq_true_iff]
  rintro ⟨m, hm, hfile'⟩
  obtain rfl : l = m := Except.ok.inj (hl.symm.trans hm)
  exact Bool.false_ne_true (hfile.symm.trans hfile')

theorem startFolder?_eq_some_iff :
    startFolder? w start = some folder ↔ StartsIn w start folder := by
  constructor
  · intro h
    unfold startFolder? at h
    split at h
    · next hfile => exact .file hfile h
    · next hfile =>
      split at h
      · next hfolder =>
        cases h
        exact .folder hfolder
      · next hfolder =>
        cases h
        exact .nowhere (eq_false_of_ne_true hfile) (eq_false_of_ne_true hfolder)
  · rintro (⟨hfile, hparent⟩ | hfolder | ⟨hfile, hfolder⟩)
    · simp [startFolder?, hfile, hparent]
    · simp [startFolder?, not_isFile_of_isFolder hfolder, hfolder]
    · simp [startFolder?, hfile, hfolder]

/-- The directories on the way to a script whose settings files are found there, and not in the home
directory. -/
def foldersFound (w : World) (start : Path) : List Path :=
  (startFolder? w start).toList.flatMap fun folder =>
    folder.ancestors.reverse.filter fun d =>
      w.isFile (d.join fileName) && isFresh w (d.join fileName)

theorem mem_foldersFound {d : Path} : d ∈ foldersFound w start ↔
    (∃ folder, StartsIn w start folder ∧ d ∈ folder.ancestors) ∧
      w.isFile (d.join fileName) = true ∧ isFresh w (d.join fileName) = true := by
  simp only [foldersFound, List.mem_flatMap, Option.mem_toList,
    startFolder?_eq_some_iff, List.mem_filter, List.mem_reverse, Bool.and_eq_true]
  constructor
  · rintro ⟨folder, hfolder, hd, hfile, hfresh⟩
    exact ⟨⟨folder, hfolder, hd⟩, hfile, hfresh⟩
  · rintro ⟨⟨folder, hfolder, hd⟩, hfile, hfresh⟩
    exact ⟨folder, hfolder, hd, hfile, hfresh⟩

theorem files_eq_append (w : World) (start : Path) :
    files w start = homeFile w ++ filesIn (foldersFound w start) := by
  unfold foldersFound
  cases h : startFolder? w start with
  | none => simp [files, h, filesIn]
  | some folder =>
    rw [files_eq h, onTheWay, places, List.filter_map, Option.toList_some, List.flatMap_singleton]
    rfl

theorem pairwise_foldersFound (w : World) (start : Path) :
    (foldersFound w start).Pairwise fun d e =>
      d.components <+: e.components ∧ d.components ≠ e.components := by
  unfold foldersFound
  cases startFolder? w start with
  | none => exact .nil
  | some folder =>
    rw [Option.toList_some, List.flatMap_singleton]
    exact folder.pairwise_ancestors.filter _

theorem searched_of_mem_files (h : p ∈ files w start) :
    w.isFile p = true ∧ ∃ d, Searched w start d ∧ p = d.join fileName := by
  rw [files_eq_append, List.mem_append] at h
  rcases h with h | h
  · obtain ⟨home, hhome, rfl, hfile⟩ := mem_homeFile.mp h
    exact ⟨hfile, home, .home hhome, rfl⟩
  · obtain ⟨d, hd, rfl⟩ := List.mem_map.mp h
    obtain ⟨⟨folder, hfolder, hd⟩, hfile, -⟩ := mem_foldersFound.mp hd
    exact ⟨hfile, d, .way hfolder hd, rfl⟩

theorem exists_same_mem_files {d : Path} (hd : Searched w start d)
    (hfile : w.isFile (d.join fileName) = true) :
    ∃ p ∈ files w start, p.same (d.join fileName) = true := by
  rw [files_eq_append]
  cases hd with
  | home hhome =>
    refine ⟨d.join fileName, List.mem_append_left _ ?_, Path.same_refl _⟩
    exact mem_homeFile.mpr ⟨d, hhome, rfl, hfile⟩
  | @way folder _ hfolder hd =>
    cases hfresh : isFresh w (d.join fileName) with
    | true =>
      refine ⟨d.join fileName, List.mem_append_right _ ?_, Path.same_refl _⟩
      exact List.mem_map_of_mem (mem_foldersFound.mpr ⟨⟨folder, hfolder, hd⟩, hfile, hfresh⟩)
    | false =>
      simp only [isFresh, Bool.not_eq_false', List.any_eq_true] at hfresh
      obtain ⟨p, hp, hsame⟩ := hfresh
      exact ⟨p, List.mem_append_left _ hp, (p.same_comm _).trans hsame⟩

theorem pairwise_files (w : World) (start : Path) :
    (files w start).Pairwise fun p q => p.same q = false := by
  rw [files_eq_append, List.pairwise_append]
  refine ⟨?_, ?_, ?_⟩
  · rcases homeFile_eq w with h | ⟨p, h⟩ <;> simp [h]
  · refine List.pairwise_map.mpr ((pairwise_foldersFound w start).imp ?_)
    intro d e hde
    rw [← Bool.not_eq_true, Path.same_iff, Path.components_join_name _ isName_fileName,
      Path.components_join_name _ isName_fileName]
    exact fun h => hde.2 (List.append_cancel_right h)
  · intro p hp q hq
    obtain ⟨d, hd, rfl⟩ := List.mem_map.mp hq
    have hfresh := (mem_foldersFound.mp hd).2.2
    simp only [isFresh, Bool.not_eq_true', List.any_eq_false, Bool.not_eq_true] at hfresh
    exact (p.same_comm _).trans (hfresh p hp)

end

/-- A search for settings files finds exactly the files of their name in the home directory and in
the directories on the way to the script, counting paths that are the same as one; none of them is
found twice; and the file of the home directory comes first, followed by the others from the root
down. -/
theorem search_is_complete (w : World) (start : Path) :
    (∀ p ∈ files w start, w.isFile p = true ∧ ∃ d, Searched w start d ∧ p = d.join fileName) ∧
    (∀ d, Searched w start d → w.isFile (d.join fileName) = true →
      ∃ p ∈ files w start, p.same (d.join fileName) = true) ∧
    ((files w start).Pairwise fun p q => p.same q = false) ∧
    ∃ ds : List Path,
      (∀ d ∈ ds, ∃ folder, StartsIn w start folder ∧ d ∈ folder.ancestors) ∧
      (ds.Pairwise fun d e => d.components <+: e.components ∧ d.components ≠ e.components) ∧
      ((∃ home, w.homeFolder = some home ∧ w.isFile (home.join fileName) = true ∧
          files w start = home.join fileName :: ds.map (·.join fileName)) ∨
        (∀ home, w.homeFolder = some home → w.isFile (home.join fileName) = false) ∧
          files w start = ds.map (·.join fileName)) := by
  refine ⟨fun p => searched_of_mem_files, fun d => exists_same_mem_files, pairwise_files w start,
    foldersFound w start, fun d hd => (mem_foldersFound.mp hd).1, pairwise_foldersFound w start, ?_⟩
  rw [files_eq_append]
  rcases homeFile_eq w with h | ⟨p, h⟩
  · refine .inr ⟨fun home hhome => ?_, by rw [h]; rfl⟩
    have hnone : home.join fileName ∉ homeFile w := by simp [h]
    rw [mem_homeFile] at hnone
    exact eq_false_of_ne_true fun hfile => hnone ⟨home, hhome, rfl, hfile⟩
  · have hmem : p ∈ homeFile w := by simp [h]
    obtain ⟨home, hhome, rfl, hfile⟩ := mem_homeFile.mp hmem
    exact .inl ⟨home, hhome, hfile, by rw [h]; rfl⟩

def roundaboutStart : Path := ⟨"/h//p/./a.ahk".toList⟩

/-- The home directory is on the way to the script, but written in another way. -/
def roundaboutWorld : World where
  tree := { files := [
    (["ahkfmt.toml".toList], Utf8.encode []),
    (["h".toList, "ahkfmt.toml".toList], Utf8.encode []),
    (["h".toList, "p".toList, "ahkfmt.toml".toList], Utf8.encode []),
    (["h".toList, "p".toList, "a.ahk".toList], Utf8.encode [])] }
  userProfile := some ⟨"/h/.".toList⟩

/-- The file of the home directory is found under the path that names it there; the same file on the
way to the script is that path again. -/
theorem search_is_complete_roundabout :
    (∃ d, Searched roundaboutWorld roundaboutStart d ∧
      (⟨"/h/./ahkfmt.toml".toList⟩ : Path) = d.join fileName) ∧
    (∃ p ∈ files roundaboutWorld roundaboutStart,
      p.same ((⟨"/h".toList⟩ : Path).join fileName) = true) ∧
    ((files roundaboutWorld roundaboutStart).Pairwise fun p q => p.same q = false) := by
  have hfiles : files roundaboutWorld roundaboutStart = [⟨"/h/./ahkfmt.toml".toList⟩,
      ⟨"/ahkfmt.toml".toList⟩, ⟨"/h//p/ahkfmt.toml".toList⟩] := by decide +kernel
  have hstart : StartsIn roundaboutWorld roundaboutStart ⟨"/h//p".toList⟩ :=
    .file (by decide +kernel) (by decide +kernel)
  have hway : Searched roundaboutWorld roundaboutStart ⟨"/h".toList⟩ :=
    .way hstart (by decide +kernel)
  obtain ⟨hsound, hcomplete, honce, -⟩ := search_is_complete roundaboutWorld roundaboutStart
  exact ⟨(hsound ⟨"/h/./ahkfmt.toml".toList⟩ (by simp [hfiles])).2,
    hcomplete _ hway (by decide +kernel), honce⟩

end Discovery
end HotkeyScript
