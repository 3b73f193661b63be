import HotkeyScript.Proofs.Recheck

/-!
# Modes of output

A script is written back, printed, or only compared with its formatted form. Which of these is done
is decided after everything else: the result of formatting the script is the same in every mode,
what is printed is what would have been written, and the world is left as it is unless a script that
has changed is to be written back.
-/

namespace HotkeyScript
namespace Run

open Command

@[simp] theorem world_note (g : Progress) (n : Notice) : (g.note n).world = g.world := rfl

@[simp] theorem world_print (g : Progress) (bytes : ByteArray) :
    (g.print bytes).world = g.world := rfl

@[simp] theorem stdout_print (g : Progress) (bytes : ByteArray) :
    (g.print bytes).stdout = g.stdout ++ bytes := rfl

/-- The arguments of a run with the two flags that choose its mode. Without either of them scripts
are written back; printing goes before checking. -/
def inMode (a : Arguments) (stdout check : Bool) : Arguments :=
  { a with stdout := stdout, check := check }

section Deliver

variable {a : Arguments} {p : Path} {before after : ByteArray} {g : Progress}

theorem world_deliver (h : (a.stdout || a.check) = true) :
    (deliver a p before after g).world = g.world := by
  unfold deliver
  split
  · rfl
  · next hstdout =>
    have hcheck : a.check = true := by simpa [hstdout] using h
    split
    · rfl
    · split <;> rfl

theorem stdout_deliver (h : a.stdout = true) :
    (deliver a p before after g).stdout = g.stdout ++ after := by
  rw [deliver, if_pos h, stdout_print]

end Deliver

section FormatScript

variable {a : Arguments} {s : Settings} {p : Path} {g : Progress} {bytes out : ByteArray}

/-- The result of formatting a script does not depend on the mode. -/
theorem result_inMode (a : Arguments) (s : Settings) (p : Path) (g : Progress)
    (stdout check : Bool) :
    (formatScript (inMode a stdout check) s p g).1 = (formatScript a s p g).1 := by
  have hskip : ∀ bytes, skipped? (inMode a stdout check) p bytes = skipped? a p bytes :=
    fun _ => rfl
  simp only [formatScript, hskip]
  split
  · rfl
  · split
    · rfl
    · split <;> rfl

theorem formats_inMode {w : World} {stdout check : Bool} (h : Formats a s p w bytes out) :
    Formats (inMode a stdout check) s p w bytes out :=
  ⟨h.read, h.taken, h.formatted⟩

theorem exists_formats (h : (formatScript a s p g).1 = .ok .changed ∨
    (formatScript a s p g).1 = .ok .unchanged) : ∃ bytes out, Formats a s p g.world bytes out := by
  by_contra hnot
  obtain ⟨hskipped | ⟨f, herror⟩, -⟩ := skipped_or_error_of_not_formats hnot
  · simp [hskipped] at h
  · simp [herror] at h

theorem not_formats (h : (formatScript a s p g).1 = .ok .skipped ∨
    ∃ f, (formatScript a s p g).1 = .error f) : ¬∃ bytes out, Formats a s p g.world bytes out := by
  rintro ⟨bytes, out, hf⟩
  rw [formatScript_of_formats hf] at h
  rcases h with h | ⟨f, h⟩
  · revert h
    split <;> simp
  · cases h

theorem changed_iff (h : Formats a s p g.world bytes out) :
    (formatScript a s p g).1 = .ok .changed ↔ out ≠ bytes := by
  rw [formatScript_of_formats h]
  by_cases hsame : bytes.data = out.data
  · simp [ByteArray.ext hsame]
  · have hne : out ≠ bytes := fun he => hsame (by rw [he])
    simp [hsame, hne]

theorem world_formatScript (h : (a.stdout || a.check) = true) :
    (formatScript a s p g).2.world = g.world := by
  by_cases hf : ∃ bytes out, Formats a s p g.world bytes out
  · obtain ⟨bytes, out, hf⟩ := hf
    rw [formatScript_of_formats hf]
    exact world_deliver h
  · exact (formatScript_of_not_formats hf).2

/-- The modes of output agree. Every mode has the same result. A run that prints or checks leaves
the world as it is, and so does every run if the script is skipped or refused. Otherwise a run that
prints puts out the bytes that the script has after a run in place, and the script is changed if and
only if these are not the bytes that it has had. -/
theorem modes_agree (hread : g.world.read p = .ok bytes) :
    (∀ stdout check stdout' check', (formatScript (inMode a stdout check) s p g).1 =
      (formatScript (inMode a stdout' check') s p g).1) ∧
    (∀ stdout check, (stdout || check) = true →
      (formatScript (inMode a stdout check) s p g).2.world = g.world) ∧
    ((formatScript a s p g).1 = .ok .skipped ∨ (∃ f, (formatScript a s p g).1 = .error f) →
      ∀ stdout check, (formatScript (inMode a stdout check) s p g).2.world = g.world) ∧
    ((formatScript a s p g).1 = .ok .changed ∨ (formatScript a s p g).1 = .ok .unchanged →
      ∃ out, (∀ check, (formatScript (inMode a true check) s p g).2.stdout = g.stdout ++ out) ∧
        (formatScript (inMode a false false) s p g).2.world.read p = .ok out ∧
        ((formatScript a s p g).1 = .ok .changed ↔ out ≠ bytes)) := by
  refine ⟨?_, fun stdout check h => world_formatScript h, ?_, ?_⟩
  · intro stdout check stdout' check'
    rw [result_inMode, result_inMode]
  · intro h stdout check
    rw [← result_inMode a s p g stdout check] at h
    exact (skipped_or_error_of_not_formats (not_formats h)).2
  · intro h
    obtain ⟨bytes', out, hf⟩ := exists_formats h
    obtain rfl : bytes' = bytes := Except.ok.inj (hf.read.symm.trans hread)
    refine ⟨out, fun check => ?_, ?_, changed_iff hf⟩
    · rw [formatScript_of_formats (formats_inMode hf)]
      exact stdout_deliver rfl
    · rw [formatScript_of_formats (formats_inMode hf)]
      exact read_deliver rfl rfl hread out

end FormatScript

def tabbedScript : List Char := "; ahkfmt: --use-tabs\nf() \x7b\nx  := 1\n\x7d".toList

def tabbedForm : List Char := "; ahkfmt: --use-tabs\nf() \x7b\n\tx := 1\n\x7d".toList

def tabbedPath : Path := ⟨"a.ahk".toList⟩

def tabbedStart : Progress where
  world := { tree := { files := [(["a.ahk".toList], Utf8.encode tabbedScript)] } }

theorem formats_tabbedScript :
    Formats {} {} tabbedPath tabbedStart.world (Utf8.encode tabbedScript)
      (Utf8.encode tabbedForm) where
  read := FileTree.read_eq_ok_iff.mpr ⟨["a.ahk".toList], rfl, rfl⟩
  taken := by decide +kernel
  formatted := by
    have hform : Document.layOut (Directive.adjust {} tabbedScript) tabbedScript = tabbedForm := by
      decide +kernel
    exact formatted_eq_ok_iff.mpr ⟨tabbedScript, rfl, by decide +kernel, by rw [hform]⟩

theorem modes_agree_tabbedScript :
    (formatScript { check := true } {} tabbedPath tabbedStart).1 = .ok .changed ∧
      (formatScript { check := true } {} tabbedPath tabbedStart).2.world = tabbedStart.world ∧
      ∃ out, (formatScript { stdout := true } {} tabbedPath tabbedStart).2.stdout = out ∧
        (formatScript {} {} tabbedPath tabbedStart).2.world.read tabbedPath = .ok out := by
  have hne : Utf8.encode tabbedForm ≠ Utf8.encode tabbedScript := by
    intro h
    have hdecode := congrArg Utf8.decode h
    rw [Utf8.decode_encode, Utf8.decode_encode] at hdecode
    exact absurd (Except.ok.inj hdecode) (by decide)
  have hchanged := (changed_iff formats_tabbedScript).mpr hne
  obtain ⟨hresult, hworld, -, hbytes⟩ :=
    modes_agree (a := {}) (s := {}) (g := tabbedStart) formats_tabbedScript.read
  obtain ⟨out, hprinted, hwritten, -⟩ := hbytes (.inl hchanged)
  refine ⟨(hresult false true false false).trans hchanged, hworld false true rfl, out, ?_, hwritten⟩
  exact (hprinted false).trans ByteArray.empty_append

end Run
end HotkeyScript
