import HotkeyScript.Proofs.Layers
import HotkeyScript.Proofs.Paths
import Mathlib.Data.List.Nodup

/-!
# Which settings file wins

The settings file of the home directory is found first, and then those of the directories from the
root down to the script, each in its place. So a file in a directory closer to the script comes later
and decides what it gives. The file of the home directory is the exception: when the search reaches
its directory it has been found already, so it stays in front of the files that are farther away.
-/

namespace HotkeyScript
namespace Discovery

theorem isName_fileName : Path.IsName fileName where
  void := rfl
  up := by decide
  slash := by decide
  width := by decide

theorem nodup_components_places (folder : Path) : ((places folder).map Path.components).Nodup := by
  have hway : (Path.way folder.anchor (folder.steps.map .ofPiece)).Nodup := by
    refine (Path.pairwise_way _ _).imp ?_
    rintro ds es h rfl
    exact Nat.lt_irrefl _ h
  have hplaces : (places folder).map Path.components =
      (folder.ancestors.reverse.map Path.components).map (· ++ [.name fileName]) := by
    rw [places, List.map_map, List.map_map]
    exact List.map_congr_left fun p _ => p.components_join_name isName_fileName
  rw [hplaces, Path.components_ancestors]
  exact hway.map fun _ _ h => List.append_cancel_right h

theorem eq_of_same_places {folder p q : Path} (hp : p ∈ places folder) (hq : q ∈ places folder)
    (h : p.same q = true) : p = q :=
  List.inj_on_of_nodup_map (nodup_components_places folder) hp hq ((p.same_iff q).mp h)

theorem foldl_addFile {w : World} {ps found : List Path} (h : (ps.map Path.components).Nodup) :
    ps.foldl (addFile w) found =
      found ++ ps.filter fun p => w.isFile p && !found.any p.same := by
  induction ps generalizing found with
  | nil => simp
  | cons p ps ih =>
    rw [List.map_cons, List.nodup_cons] at h
    rw [List.foldl_cons, ih h.2, List.filter_cons, addFile]
    split
    · have hlater : ∀ q ∈ ps, q.same p = false := by
        intro q hq
        rw [← Bool.not_eq_true, Path.same_iff]
        exact fun hqp => h.1 (List.mem_map.mpr ⟨q, hq, hqp⟩)
      have hfilter : (ps.filter fun q => w.isFile q && !(found ++ [p]).any q.same) =
          ps.filter fun q => w.isFile q && !found.any q.same := by
        apply List.filter_congr
        intro q hq
        simp [hlater q hq]
      rw [hfilter, List.append_assoc]
      rfl
    · rfl

/-- The settings files on the way to a directory that the home directory has not given already. -/
def onTheWay (w : World) (folder : Path) : List Path :=
  (places folder).filter fun p => w.isFile p && !(homeFile w).any p.same

theorem files_eq {w : World} {start folder : Path} (h : startFolder? w start = some folder) :
    files w start = homeFile w ++ onTheWay w folder := by
  simp only [files, h, Option.toList_some, List.flatMap_singleton]
  exact foldl_addFile (nodup_components_places folder)

theorem homeFile_eq (w : World) : homeFile w = [] ∨ ∃ p, homeFile w = [p] := by
  unfold homeFile
  cases w.homeFolder with
  | none => exact .inl rfl
  | some home =>
    cases h : w.isFile (home.join fileName) with
    | false => exact .inl (by simp [h])
    | true => exact .inr ⟨home.join fileName, by simp [h]⟩

section Closer

variable {w : World} {start folder near far : Path}

theorem value_settings_of_append {before after : List Path}
    (h : files w start = before ++ near :: after) {f : Setting} {v : f.Value}
    (hv : given? w near f = some v) :
    (settings w start).1.value f = (after.reverse.findSome? (given? w · f)).getD v := by
  rw [value_settings, h, List.reverse_append, List.reverse_cons, List.findSome?_append,
    List.findSome?_append, List.findSome?_singleton, hv, Option.or_some, Option.some_or,
    Option.getD_some]

theorem exists_append_of_sublist {l : List Path} (h : List.Sublist [far, near] l) :
    ∃ before after, l = before ++ near :: after ∧ far ∈ before := by
  obtain ⟨r, s, rfl, hfar, hnear⟩ := List.cons_sublist_iff.mp h
  obtain ⟨t, after, rfl⟩ := List.append_of_mem (List.singleton_sublist.mp hnear)
  exact ⟨r ++ t, after, by simp, List.mem_append_left _ hfar⟩

theorem eq_place_of_mem_onTheWay {p d : Path} (hp : p ∈ onTheWay w folder)
    (hd : d ∈ folder.ancestors) (hplace : p.same (d.join fileName) = true) :
    p = d.join fileName :=
  eq_of_same_places (List.mem_of_mem_filter hp)
    (List.mem_map.mpr ⟨d, List.mem_reverse.mpr hd, rfl⟩) hplace

/-- A file that the home directory has not given comes after the files that are farther away. -/
theorem sublist_files_of_closer {inner outer : Path} (hfolder : startFolder? w start = some folder)
    (hcloser : List.Sublist [inner, outer] folder.ancestors)
    (hnear : near ∈ files w start) (hinner : near.same (inner.join fileName) = true)
    (hfar : far ∈ files w start) (houter : far.same (outer.join fileName) = true)
    (hhome : (homeFile w).any near.same = false) : List.Sublist [far, near] (files w start) := by
  have hhomeNear : near ∉ homeFile w := fun h =>
    Bool.false_ne_true (hhome.symm.trans (List.any_eq_true.mpr ⟨near, h, near.same_refl⟩))
  rw [files_eq hfolder, List.mem_append] at hnear hfar
  rw [files_eq hfolder]
  have hnearWay : near ∈ onTheWay w folder := hnear.resolve_left hhomeNear
  rcases hfar with hfar | hfarWay
  · exact (List.singleton_sublist.mpr hfar).append (List.singleton_sublist.mpr hnearWay)
  · have hnearPlace := eq_place_of_mem_onTheWay hnearWay (hcloser.subset (by simp)) hinner
    have hfarPlace := eq_place_of_mem_onTheWay hfarWay (hcloser.subset (by simp)) houter
    have hplaces : List.Sublist [far, near] (places folder) := by
      rw [hnearPlace, hfarPlace]
      exact hcloser.reverse.map (·.join fileName)
    have hfilter := hplaces.filter fun p => w.isFile p && !(homeFile w).any p.same
    rw [List.filter_eq_self.mpr] at hfilter
    · exact hfilter.trans (List.sublist_append_right _ _)
    · intro p hp
      have hway : p ∈ onTheWay w folder := by
        rcases List.mem_cons.mp hp with rfl | hp
        · exact hfarWay
        · rw [List.mem_singleton.mp hp]
          exact hnearWay
      exact (List.mem_filter.mp hway).2

/-- The file that the home directory gives comes after no other file. -/
theorem not_sublist_files_of_home (hfolder : startFolder? w start = some folder)
    (hhome : (homeFile w).any near.same = true) : ¬List.Sublist [far, near] (files w start) := by
  intro hsub
  rw [files_eq hfolder] at hsub
  obtain hnil | ⟨p, hp⟩ := homeFile_eq w
  · rw [hnil] at hhome
    cases hhome
  · rw [hp] at hsub
    have hnear : near ∈ onTheWay w folder := List.singleton_sublist.mp hsub.tail
    have hout := (List.mem_filter.mp hnear).2
    rw [hhome] at hout
    simp at hout

/-- Of two settings files on the way to a script, the one in the closer directory comes later if and
only if it is not the file of the home directory, and then what it gives is decided by it or by a
file after it, and not by the one that is farther away. -/
theorem closer_file_wins_iff {inner outer : Path} (hfolder : startFolder? w start = some folder)
    (hcloser : List.Sublist [inner, outer] folder.ancestors)
    (hnear : near ∈ files w start) (hinner : near.same (inner.join fileName) = true)
    (hfar : far ∈ files w start) (houter : far.same (outer.join fileName) = true) :
    (List.Sublist [far, near] (files w start) ↔ (homeFile w).any near.same = false) ∧
      ((homeFile w).any near.same = false →
        ∃ before after, files w start = before ++ near :: after ∧ far ∈ before ∧
          ∀ f v, given? w near f = some v →
            (settings w start).1.value f = (after.reverse.findSome? (given? w · f)).getD v) := by
  have hlater := sublist_files_of_closer hfolder hcloser hnear hinner hfar houter
  refine ⟨⟨fun hsub => ?_, hlater⟩, fun hhome => ?_⟩
  · rw [← Bool.not_eq_true]
    exact fun hhome => not_sublist_files_of_home hfolder hhome hsub
  · obtain ⟨before, after, hfiles, hmem⟩ := exists_append_of_sublist (hlater hhome)
    exact ⟨before, after, hfiles, hmem, fun f v hv => value_settings_of_append hfiles hv⟩

end Closer

def nestedStart : Path := ⟨"/h/p/a.ahk".toList⟩

/-- Settings files in the root, in the home directory below it, and beside the script below that. -/
def nestedWorld : World where
  tree := { files := [
    (["ahkfmt.toml".toList], Utf8.encode "tab_width = 2\n".toList),
    (["h".toList, "ahkfmt.toml".toList], Utf8.encode "tab_width = 8\n".toList),
    (["h".toList, "p".toList, "ahkfmt.toml".toList], Utf8.encode "tab_width = 3\n".toList),
    (["h".toList, "p".toList, "a.ahk".toList], Utf8.encode [])] }
  home := some ⟨"/h".toList⟩

theorem closer_file_wins_iff_nested :
    List.Sublist [⟨"/h/ahkfmt.toml".toList⟩, ⟨"/h/p/ahkfmt.toml".toList⟩]
        (files nestedWorld nestedStart) ∧
      ∃ before after, files nestedWorld nestedStart =
          before ++ ⟨"/h/p/ahkfmt.toml".toList⟩ :: after ∧
        (settings nestedWorld nestedStart).1.value .tabWidth =
          (after.reverse.findSome? (given? nestedWorld · .tabWidth)).getD (3 : UInt64) := by
  have hfiles : files nestedWorld nestedStart =
      [⟨"/h/ahkfmt.toml".toList⟩, ⟨"/ahkfmt.toml".toList⟩, ⟨"/h/p/ahkfmt.toml".toList⟩] := by
    decide +kernel
  have hfolder : startFolder? nestedWorld nestedStart = some ⟨"/h/p".toList⟩ := by decide +kernel
  have hcloser : List.Sublist [⟨"/h/p".toList⟩, ⟨"/h".toList⟩]
      (⟨"/h/p".toList⟩ : Path).ancestors := by decide +kernel
  have hnear : ⟨"/h/p/ahkfmt.toml".toList⟩ ∈ files nestedWorld nestedStart := by simp [hfiles]
  have hfar : ⟨"/h/ahkfmt.toml".toList⟩ ∈ files nestedWorld nestedStart := by simp [hfiles]
  have hhome : (homeFile nestedWorld).any (Path.same ⟨"/h/p/ahkfmt.toml".toList⟩) = false := by
    decide +kernel
  obtain ⟨horder, hvalue⟩ := closer_file_wins_iff hfolder hcloser hnear (by decide +kernel) hfar
    (by decide +kernel)
  obtain ⟨before, after, hsplit, -, hgiven⟩ := hvalue hhome
  exact ⟨horder.mpr hhome, before, after, hsplit, hgiven .tabWidth 3 (by decide +kernel)⟩

def overriddenWorld : World where
  tree := { files := [
    (["ahkfmt.toml".toList], Utf8.encode "tab_width = 2\n".toList),
    (["h".toList, "ahkfmt.toml".toList], Utf8.encode "tab_width = 8\n".toList),
    (["h".toList, "p".toList, "a.ahk".toList], Utf8.encode [])] }
  home := some ⟨"/h".toList⟩

/-- The file of the home directory is closer to the script than that of the root, but comes first and
is overridden. -/
theorem closer_home_file_is_overridden :
    startFolder? overriddenWorld nestedStart = some ⟨"/h/p".toList⟩ ∧
      List.Sublist [⟨"/h".toList⟩, ⟨"/".toList⟩] (⟨"/h/p".toList⟩ : Path).ancestors ∧
      files overriddenWorld nestedStart = [⟨"/h/ahkfmt.toml".toList⟩, ⟨"/ahkfmt.toml".toList⟩] ∧
      given? overriddenWorld ⟨"/h/ahkfmt.toml".toList⟩ .tabWidth = some (8 : UInt64) ∧
      (settings overriddenWorld nestedStart).1.tabWidth = 2 := by
  decide +kernel

end Discovery
end HotkeyScript
