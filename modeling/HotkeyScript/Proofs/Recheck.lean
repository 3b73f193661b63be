import HotkeyScript.Proofs.DirectiveLines
import HotkeyScript.Proofs.Stability
import HotkeyScript.Run.Job

/-!
# A formatted script stays formatted

The bytes of a script decide, through its directive, the settings that the script is formatted
under. Formatting keeps the directive and has nothing left to do when it runs again, so a script
that has been formatted in place is its own formatted form, and a run that only checks it finds no
change.
-/

namespace HotkeyScript
namespace Utf8

theorem returns_suffix_encode {s : List Char} (h : ['\r', '\r'] <:+ s) :
    [13, 13] <:+ (encode s).data.toList := by
  obtain ⟨r, rfl⟩ := h
  have hencode : encode (r ++ ['\r', '\r']) = r.utf8Encode ++ ['\r', '\r'].utf8Encode := by
    rw [encode, String.toUTF8_eq_toByteArray, String.toByteArray_ofList, List.utf8Encode_append]
  have hreturns : ['\r', '\r'].utf8Encode.data.toList = [13, 13] := by decide
  rw [hencode, ByteArray.toList_data_append, hreturns]
  exact List.suffix_append _ _

end Utf8

namespace Run

open Command Document

theorem formatted_eq_ok_iff {s : Settings} {p : Path} {bytes out : ByteArray} :
    formatted s p bytes = .ok out ↔
      ∃ text, bytes = Utf8.encode text ∧ (Directive.adjust s text).fault? = none ∧
        out = Utf8.encode (layOut (Directive.adjust s text) text) := by
  constructor
  · intro h
    unfold formatted at h
    split at h
    · cases h
    · next text hdecode =>
      split at h
      · cases h
      · next laid hformat =>
        obtain ⟨hfault, rfl⟩ := format_eq_ok_iff.mp hformat
        exact ⟨text, Utf8.eq_encode_of_decode hdecode, hfault, (Except.ok.inj h).symm⟩
  · rintro ⟨text, rfl, hfault, rfl⟩
    have hformat : format (Directive.adjust s text) text =
        .ok (layOut (Directive.adjust s text) text) := format_eq_ok_iff.mpr ⟨hfault, rfl⟩
    simp only [formatted, Utf8.decode_encode, hformat]

/-- The formatted form of a script is its own formatted form, under the settings that are read back
from it. -/
theorem formatted_formatted {s : Settings} {p : Path} {bytes out : ByteArray}
    (h : formatted s p bytes = .ok out) (hend : ¬[13, 13] <:+ bytes.data.toList) :
    formatted s p out = .ok out := by
  obtain ⟨text, rfl, hfault, rfl⟩ := formatted_eq_ok_iff.mp h
  have htext : ¬['\r', '\r'] <:+ text := fun hs => hend (Utf8.returns_suffix_encode hs)
  have hadjust := Directive.adjust_layOut s (Directive.adjust s text) text
  refine formatted_eq_ok_iff.mpr ⟨_, rfl, ?_, ?_⟩
  · rw [hadjust, hfault]
  · rw [hadjust, layOut_layOut _ htext]

theorem read_write {g : Progress} {p : Path} {old : ByteArray} (h : g.world.read p = .ok old)
    (bytes : ByteArray) : (g.write p bytes).world.read p = .ok bytes := by
  obtain ⟨l, hlocate, hold⟩ := FileTree.read_eq_ok_iff.mp h
  have hwrite : (g.write p bytes).world =
      { g.world with tree := g.world.tree.write l bytes } := by
    rw [Progress.write, hlocate]
  rw [hwrite]
  refine FileTree.read_eq_ok_iff.mpr ⟨l, ?_, FileTree.contents?_write hold bytes⟩
  rw [FileTree.locate_write, hlocate]

/-- In place, the script is its formatted form afterwards, whether or not that had to be written. -/
theorem read_deliver {a : Arguments} {g : Progress} {p : Path} {bytes : ByteArray}
    (hstdout : a.stdout = false) (hcheck : a.check = false) (h : g.world.read p = .ok bytes)
    (out : ByteArray) : (deliver a p bytes out g).world.read p = .ok out := by
  unfold deliver
  rw [if_neg (by simp [hstdout])]
  split
  · next hsame => rw [h, ByteArray.ext hsame]
  · rw [if_neg (by simp [hcheck])]
    exact read_write h out

/-- The script is read, is not skipped, and has a formatted form. -/
structure Formats (a : Arguments) (s : Settings) (p : Path) (w : World) (bytes out : ByteArray) :
    Prop where
  read : w.read p = .ok bytes
  taken : skipped? a p bytes = none
  formatted : formatted s p bytes = .ok out

section FormatScript

variable {a : Arguments} {s : Settings} {p : Path} {g : Progress} {bytes out : ByteArray}

theorem formatScript_of_formats (h : Formats a s p g.world bytes out) :
    formatScript a s p g =
      (.ok (if bytes.data = out.data then .unchanged else .changed), deliver a p bytes out g) := by
  simp [formatScript, h.read, h.taken, h.formatted]

theorem skipped_or_error_of_not_formats (h : ¬∃ bytes out, Formats a s p g.world bytes out) :
    ((formatScript a s p g).1 = .ok .skipped ∨ ∃ f, (formatScript a s p g).1 = .error f) ∧
      (formatScript a s p g).2.world = g.world := by
  cases hread : g.world.read p with
  | error f => simp [formatScript, hread]
  | ok bytes =>
    cases hskip : skipped? a p bytes with
    | some n => simp [formatScript, hread, hskip, Progress.note]
    | none =>
      cases hf : formatted s p bytes with
      | error f => simp [formatScript, hread, hskip, hf]
      | ok out => exact absurd ⟨bytes, out, hread, hskip, hf⟩ h

theorem formatScript_of_not_formats (h : ¬∃ bytes out, Formats a s p g.world bytes out) :
    (formatScript a s p g).1 ≠ .ok .changed ∧ (formatScript a s p g).2.world = g.world := by
  obtain ⟨hskipped | ⟨f, herror⟩, hworld⟩ := skipped_or_error_of_not_formats h
  · exact ⟨by simp [hskipped], hworld⟩
  · exact ⟨by simp [herror], hworld⟩

theorem formatScript_ne_changed (hread : g.world.read p = .ok bytes)
    (hf : formatted s p bytes = .ok bytes) : (formatScript a s p g).1 ≠ .ok .changed := by
  by_cases h : ∃ bytes' out, Formats a s p g.world bytes' out
  · obtain ⟨bytes', out, h⟩ := h
    have hbytes : bytes' = bytes := Except.ok.inj (h.read.symm.trans hread)
    have hout : out = bytes := Except.ok.inj (h.formatted.symm.trans (hbytes ▸ hf))
    rw [formatScript_of_formats h, hbytes, hout, if_pos rfl]
    simp
  · exact (formatScript_of_not_formats h).1

/-- After a run in place, a run that only checks the script, under the same settings and with the
same arguments otherwise, does not find it changed. A script that is formatted is its formatted form
in between. -/
theorem format_then_check (hstdout : a.stdout = false) (hcheck : a.check = false)
    (hend : ∀ bytes, g.world.read p = .ok bytes → ¬[13, 13] <:+ bytes.data.toList) :
    (formatScript { a with check := true } s p (formatScript a s p g).2).1 ≠ .ok .changed ∧
      ∀ bytes out, Formats a s p g.world bytes out →
        (formatScript a s p g).2.world.read p = .ok out := by
  have hwritten : ∀ bytes out, Formats a s p g.world bytes out →
      (formatScript a s p g).2.world.read p = .ok out := by
    intro bytes out h
    rw [formatScript_of_formats h]
    exact read_deliver hstdout hcheck h.read out
  refine ⟨?_, hwritten⟩
  by_cases h : ∃ bytes out, Formats a s p g.world bytes out
  · obtain ⟨bytes, out, h⟩ := h
    exact formatScript_ne_changed (hwritten bytes out h)
      (formatted_formatted h.formatted (hend bytes h.read))
  · have hworld := (formatScript_of_not_formats h).2
    refine (formatScript_of_not_formats ?_).1
    rintro ⟨bytes, out, hread, htaken, hf⟩
    rw [hworld] at hread
    exact h ⟨bytes, out, hread, htaken, hf⟩

end FormatScript

/-- A script with two kinds of line ends. Its directive stands in a block comment. -/
def noted : List Char := "/*\n\t;  AHKFMT:  -t  2\n*/\r\nf(a,\n\n\nb) \x7b\nc  \r".toList

def notedForm : List Char :=
  "/*\r\n\t; AHKFMT: -t 2\r\n*/\r\nf(a,\r\n\r\n  b) \x7b\r\n  c ".toList

def notedPath : Path := ⟨"a.ahk".toList⟩

def notedStart : Progress where
  world := { tree := { files := [(["a.ahk".toList], Utf8.encode noted)] } }

theorem format_then_check_noted :
    (formatScript { maxLines := some 8 } {} notedPath notedStart).2.world.read notedPath =
        .ok (Utf8.encode notedForm) ∧
      (formatScript { maxLines := some 8, check := true } {} notedPath
        (formatScript { maxLines := some 8 } {} notedPath notedStart).2).1 ≠ .ok .changed := by
  have hread : notedStart.world.read notedPath = .ok (Utf8.encode noted) :=
    FileTree.read_eq_ok_iff.mpr ⟨["a.ahk".toList], rfl, rfl⟩
  have hend : ∀ bytes, notedStart.world.read notedPath = .ok bytes →
      ¬[13, 13] <:+ bytes.data.toList := by
    intro bytes h
    rw [hread] at h
    cases h
    decide +kernel
  have hlayOut : layOut (Directive.adjust {} noted) noted = notedForm := by decide +kernel
  have hformatted : formatted {} notedPath (Utf8.encode noted) =
      .ok (Utf8.encode (layOut (Directive.adjust {} noted) noted)) :=
    formatted_eq_ok_iff.mpr ⟨noted, rfl, by decide +kernel, rfl⟩
  have h := format_then_check (a := { maxLines := some 8 }) (s := {}) rfl rfl hend
  refine ⟨?_, h.1⟩
  rw [← hlayOut]
  exact h.2 _ _ ⟨hread, by decide +kernel, hformatted⟩

end Run
end HotkeyScript
