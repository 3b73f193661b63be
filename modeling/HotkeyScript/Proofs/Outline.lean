import HotkeyScript.Proofs.Passes

/-!
# Blank runs one by one

The segments of a text fall, in one way only, into the blank run before any content and blocks: a
segment with content and the blank run behind it. The pass that limits blank runs goes over the
segments once, with a counter; seen from the outline it drops the first run and cuts every other run
down to its first segments, each run by itself.
-/

namespace HotkeyScript
namespace BlankRun

open Text

/-- A segment with content and the blank segments between it and the next one with content. -/
structure Block where
  content : List Char
  blanks : List (List Char)
  content_not_blank : isBlankLine content = false
  blanks_blank : ∀ t ∈ blanks, isBlankLine t = true

def Block.toList (b : Block) : List (List Char) := b.content :: b.blanks

def Block.shorten (m : Nat) (b : Block) : Block where
  content := b.content
  blanks := b.blanks.take m
  content_not_blank := b.content_not_blank
  blanks_blank t ht := b.blanks_blank t (List.mem_of_mem_take ht)

/-- The maximal blank runs of a list of segments: the one before any content, and one behind each
segment with content, which is empty if another such segment follows at once. -/
structure Outline where
  lead : List (List Char)
  blocks : List Block
  lead_blank : ∀ t ∈ lead, isBlankLine t = true

namespace Outline

def toList (o : Outline) : List (List Char) := o.lead ++ o.blocks.flatMap Block.toList

def shorten (m : Nat) (o : Outline) : Outline where
  lead := []
  blocks := o.blocks.map (Block.shorten m)
  lead_blank := by simp

def addBlank (t : List Char) (ht : isBlankLine t = true) (o : Outline) : Outline where
  lead := t :: o.lead
  blocks := o.blocks
  lead_blank := List.forall_mem_cons.mpr ⟨ht, o.lead_blank⟩

/-- Behind a segment with content, what was the first run belongs to that segment. -/
def addContent (t : List Char) (ht : isBlankLine t = false) (o : Outline) : Outline where
  lead := []
  blocks := ⟨t, o.lead, ht, o.lead_blank⟩ :: o.blocks
  lead_blank := by simp

def ofList : List (List Char) → Outline
  | [] => ⟨[], [], by simp⟩
  | t :: ts =>
    if ht : isBlankLine t = true then (ofList ts).addBlank t ht
    else (ofList ts).addContent t (eq_false_of_ne_true ht)

theorem toList_ofList (ts : List (List Char)) : (ofList ts).toList = ts := by
  induction ts with
  | nil => rfl
  | cons t ts ih =>
    simp only [ofList]
    split
    · show t :: (ofList ts).toList = t :: ts
      rw [ih]
    · show t :: (ofList ts).toList = t :: ts
      rw [ih]

theorem ofList_blanks {us : List (List Char)} (hus : ∀ t ∈ us, isBlankLine t = true)
    (ts : List (List Char)) :
    (ofList (us ++ ts)).lead = us ++ (ofList ts).lead ∧
      (ofList (us ++ ts)).blocks = (ofList ts).blocks := by
  induction us with
  | nil => exact ⟨rfl, rfl⟩
  | cons u us ih =>
    have hu : isBlankLine u = true := hus u (by simp)
    obtain ⟨hlead, hblocks⟩ := ih fun t ht => hus t (by simp [ht])
    simp [ofList, hu, addBlank, hlead, hblocks]

theorem ofList_blocks (bs : List Block) :
    ofList (bs.flatMap Block.toList) = ⟨[], bs, by simp⟩ := by
  induction bs with
  | nil => rfl
  | cons b bs ih =>
    obtain ⟨hlead, hblocks⟩ := ofList_blanks b.blanks_blank (bs.flatMap Block.toList)
    simp only [ih, List.append_nil] at hlead hblocks
    simp [Block.toList, ofList, b.content_not_blank, addContent, hlead, hblocks]

theorem ofList_toList (o : Outline) : ofList o.toList = o := by
  obtain ⟨hlead, hblocks⟩ := ofList_blanks o.lead_blank (o.blocks.flatMap Block.toList)
  rw [ofList_blocks] at hlead hblocks
  cases h : ofList o.toList
  simp_all [toList]

end Outline

theorem keep_lead {us : List (List Char)} (hus : ∀ t ∈ us, isBlankLine t = true) (m run : Nat)
    (ts : List (List Char)) : keep m false run (us ++ ts) = keep m false run ts := by
  induction us with
  | nil => rfl
  | cons u us ih =>
    have hu : isBlankLine u = true := hus u (by simp)
    simpa [keep, hu] using ih fun t ht => hus t (by simp [ht])

/-- Of a run the limit leaves as many segments as it has not yet used up. -/
theorem keep_blanks {us : List (List Char)} (hus : ∀ t ∈ us, isBlankLine t = true) (m run : Nat)
    (ts : List (List Char)) :
    keep m true run (us ++ ts) = us.take (m - run) ++ keep m true (run + us.length) ts := by
  induction us generalizing run with
  | nil => simp
  | cons u us ih =>
    have hu : isBlankLine u = true := hus u (by simp)
    have hrest := ih (fun t ht => hus t (by simp [ht])) (run + 1)
    have hlength : run + 1 + us.length = run + (u :: us).length := by simp; omega
    rw [hlength] at hrest
    by_cases hrun : run + 1 ≤ m
    · have htake : m - run = (m - (run + 1)) + 1 := by omega
      simp [keep, hu, hrun, hrest, htake]
    · have htake : m - run = 0 := by omega
      have htake' : m - (run + 1) = 0 := by omega
      simp [keep, hu, hrun, hrest, htake, htake']

/-- A segment with content starts the count again, so nothing before a block matters to it. -/
theorem keep_blocks (m : Nat) (seen : Bool) (run : Nat) (bs : List Block) :
    keep m seen run (bs.flatMap Block.toList) =
      (bs.map (Block.shorten m)).flatMap Block.toList := by
  induction bs generalizing seen run with
  | nil => rfl
  | cons b bs ih =>
    have hblanks := keep_blanks b.blanks_blank m 0 (bs.flatMap Block.toList)
    simp only [ih, Nat.sub_zero] at hblanks
    simp [Block.toList, Block.shorten, keep, b.content_not_blank, hblanks]

theorem keep_toList (m : Nat) (o : Outline) :
    keep m false 0 o.toList = (o.shorten m).toList := by
  simp only [Outline.toList, keep_lead o.lead_blank, keep_blocks]
  rfl

theorem segments_limit_of_nonneg {m : Int32} (hm : 0 ≤ m) (text : List Char) :
    segments (limit m text) = keep m.toInt.toNat false 0 (segments text) := by
  rw [segments_limit, limitSegments, if_neg (Int32.not_lt.mpr hm)]

theorem toNat_min (m n : Int32) :
    (min m n).toInt.toNat = min m.toInt.toNat n.toInt.toNat := by
  have hmin : min m n = if m ≤ n then m else n := rfl
  rw [hmin]
  split
  · next h =>
    have hle : m.toInt ≤ n.toInt := Int32.le_iff_toInt_le.mp h
    omega
  · next h =>
    have hle : ¬m.toInt ≤ n.toInt := fun hle => h (Int32.le_iff_toInt_le.mpr hle)
    omega

theorem min_nonneg {m n : Int32} (hm : 0 ≤ m) (hn : 0 ≤ n) : 0 ≤ min m n := by
  show 0 ≤ if m ≤ n then m else n
  split
  · exact hm
  · exact hn

theorem limit_limit_min {m n : Int32} (hm : 0 ≤ m) (hn : 0 ≤ n) (text : List Char) :
    limit n (limit m text) = limit (min m n) text := by
  have hkeep := keep_keep m.toInt.toNat n.toInt.toNat false 0 (segments text)
  rw [Nat.zero_min] at hkeep
  apply eq_of_segments_eq
  rw [segments_limit_of_nonneg hn, segments_limit_of_nonneg hm,
    segments_limit_of_nonneg (min_nonneg hm hn), toNat_min, hkeep]

/-- Limiting the blank runs of a text drops the run before any content, leaves of every other
maximal run its first `m` segments, and leaves the segments with content alone; limiting them again
by `n` is limiting them once by the smaller number. -/
theorem limit_shortens_runs (text : List Char) {m n : Int32} (hm : 0 ≤ m) (hn : 0 ≤ n) :
    (∃ o : Outline, o.toList = segments text ∧
      (∀ o' : Outline, o'.toList = segments text → o' = o) ∧
      segments (limit m text) = (o.shorten m.toInt.toNat).toList) ∧
    limit n (limit m text) = limit (min m n) text := by
  refine ⟨⟨.ofList (segments text), Outline.toList_ofList _, ?_, ?_⟩, limit_limit_min hm hn text⟩
  · intro o ho
    rw [← ho, Outline.ofList_toList]
  · rw [segments_limit_of_nonneg hm, ← keep_toList, Outline.toList_ofList]

def gappedText : List Char := "\n \r\na\r\n\r\n\t\n\r\r\nb\n\n \t".toList

theorem limit_shortens_runs_gappedText :
    (∃ o : Outline, o.toList = segments gappedText ∧
      o.lead = ["\n".toList, " \r\n".toList] ∧
      segments (limit 2 gappedText) = (o.shorten 2).toList) ∧
    limit 1 (limit 2 gappedText) = limit 1 gappedText := by
  obtain ⟨⟨o, ho, hunique, hlimit⟩, hmin⟩ :=
    limit_shortens_runs gappedText (m := 2) (n := 1) (by decide) (by decide)
  have ho' : o = .ofList (segments gappedText) := (hunique _ (Outline.toList_ofList _)).symm
  refine ⟨⟨o, ho, ?_, hlimit⟩, hmin⟩
  rw [ho']
  decide +kernel

end BlankRun
end HotkeyScript
