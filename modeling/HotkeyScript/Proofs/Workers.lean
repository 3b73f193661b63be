import HotkeyScript.Proofs.Places
import HotkeyScript.Run.Session
import Mathlib.Data.List.Pairwise
import Mathlib.Logic.Relation

/-!
# Workers

The scripts of a run wait for workers, and nothing fixes the order in which they are taken. If the
scripts are different files and none of them is a settings file that is read for another, then what
is done about a script is decided by the world that the run has started from: its settings, its
result and what is written in its place are the same whichever scripts have been written before.
Writing to different places commutes, so every order leaves the same tree, the same results and the
same tally as taking the scripts one by one.
-/

namespace HotkeyScript

namespace FileTree

theorem contents?_write_of_ne {l m : Location} (h : m ≠ l) (t : FileTree) (bytes : ByteArray) :
    (t.write l bytes).contents? m = t.contents? m := by
  obtain ⟨files, folders⟩ := t
  simp only [contents?, write]
  induction files with
  | nil => rfl
  | cons f files ih =>
    by_cases hf : f.1 = l
    · have hmf : (m == f.1) = false := by simpa [hf] using h
      rw [List.map_cons, if_pos hf, List.lookup_cons, List.lookup_cons, hmf]
      exact ih
    · rw [List.map_cons, if_neg hf, List.lookup_cons, List.lookup_cons, ih]

theorem write_comm {l m : Location} (h : l ≠ m) (t : FileTree) (b c : ByteArray) :
    (t.write l b).write m c = (t.write m c).write l b := by
  simp only [write, List.map_map, FileTree.mk.injEq, and_true]
  apply List.map_congr_left
  intro f _
  by_cases hl : f.1 = l
  · simp [hl, h]
  · by_cases hm : f.1 = m
    · simp [hm, h.symm]
    · simp [hl, hm]

end FileTree

namespace World

def put (w : World) : Option (Location × ByteArray) → World
  | none => w
  | some (l, bytes) => { w with tree := w.tree.write l bytes }

def Misses (w : World) (p : Path) (change : Option (Location × ByteArray)) : Prop :=
  ∀ c ∈ change, w.tree.locate w.cwd p ≠ .ok c.1

@[simp] theorem locate_put (w : World) (change : Option (Location × ByteArray)) (p : Path) :
    (w.put change).tree.locate (w.put change).cwd p = w.tree.locate w.cwd p := by
  cases change with
  | none => rfl
  | some c => exact w.tree.locate_write c.1 c.2 w.cwd p

@[simp] theorem isFile_put (w : World) (change : Option (Location × ByteArray)) :
    (w.put change).isFile = w.isFile := by
  cases change with
  | none => rfl
  | some c =>
    funext p
    simp [put, isFile, FileTree.isFile]

@[simp] theorem isFolder_put (w : World) (change : Option (Location × ByteArray)) :
    (w.put change).isFolder = w.isFolder := by
  cases change with
  | none => rfl
  | some c =>
    funext p
    simp [put, isFolder, FileTree.isFolder]

@[simp] theorem here_put (w : World) (change : Option (Location × ByteArray)) :
    (w.put change).here = w.here := by
  cases change <;> rfl

@[simp] theorem homeFolder_put (w : World) (change : Option (Location × ByteArray)) :
    (w.put change).homeFolder = w.homeFolder := by
  cases change <;> rfl

theorem contents?_put {w : World} {change : Option (Location × ByteArray)} {l : Location}
    (h : ∀ c ∈ change, l ≠ c.1) : (w.put change).tree.contents? l = w.tree.contents? l := by
  cases change with
  | none => rfl
  | some c => exact FileTree.contents?_write_of_ne (h c rfl) w.tree c.2

theorem Misses.contents? {w : World} {p : Path} {change : Option (Location × ByteArray)}
    {l : Location} (h : w.Misses p change) (hl : w.tree.locate w.cwd p = .ok l) :
    (w.put change).tree.contents? l = w.tree.contents? l := by
  apply contents?_put
  rintro c hc rfl
  exact h c hc hl

theorem read_put {w : World} {p : Path} {change : Option (Location × ByteArray)}
    (h : w.Misses p change) : (w.put change).read p = w.read p := by
  simp only [read, FileTree.read, locate_put]
  cases hl : w.tree.locate w.cwd p with
  | error f => rfl
  | ok l => simp only [bind, Except.bind, h.contents? hl]

theorem put_comm {w : World} {c d : Option (Location × ByteArray)}
    (h : ∀ x ∈ c, ∀ y ∈ d, x.1 ≠ y.1) : (w.put c).put d = (w.put d).put c := by
  cases c with
  | none => rfl
  | some x =>
    cases d with
    | none => rfl
    | some y => simp only [put, FileTree.write_comm (h x rfl y rfl)]

end World

namespace Discovery

@[simp] theorem files_put (w : World) (change : Option (Location × ByteArray)) (start : Path) :
    files (w.put change) start = files w start := by
  have hadd : addFile (w.put change) = addFile w := by
    funext found p
    simp [addFile]
  simp [files, homeFile, startFolder?, hadd]

theorem readLayer_put {w : World} {file : Path} {change : Option (Location × ByteArray)}
    (h : w.Misses file change) : readLayer (w.put change) file = readLayer w file := by
  simp only [readLayer, World.read_put h]

theorem layer_put {w : World} {change : Option (Location × ByteArray)} {found : List Path}
    (h : ∀ file ∈ found, w.Misses file change) (s : Settings) :
    layer (w.put change) s found = layer w s found := by
  induction found generalizing s with
  | nil => rfl
  | cons file rest ih =>
    have hrest := ih fun f hf => h f (List.mem_cons_of_mem _ hf)
    simp only [layer, readLayer_put (h file List.mem_cons_self), hrest]

end Discovery

namespace Run

open Command

/-- The settings files that are read when a script is formatted. -/
def consulted (w : World) (a : Arguments) (common : Option Settings) (p : Path) : List Path :=
  match common, a.config with
  | some _, _ => []
  | none, some file => [file]
  | none, none => Discovery.files w p

@[simp] theorem consulted_put (w : World) (change : Option (Location × ByteArray)) (a : Arguments)
    (common : Option Settings) (p : Path) :
    consulted (w.put change) a common p = consulted w a common p := by
  cases common <;> cases hconfig : a.config <;> simp [consulted, hconfig]

theorem baseSettings_put {w : World} {a : Arguments} {p : Path}
    {change : Option (Location × ByteArray)}
    (h : ∀ file ∈ consulted w a none p, w.Misses file change) :
    baseSettings (w.put change) a p = baseSettings w a p := by
  unfold baseSettings
  cases hconfig : a.config with
  | some file =>
    have hfile : w.Misses file change := h file (by simp [consulted, hconfig])
    simp only [Discovery.readLayer_put hfile]
  | none =>
    have hlayers : Discovery.settings (w.put change) p = Discovery.settings w p := by
      rw [Discovery.settings, Discovery.files_put, Discovery.settings]
      apply Discovery.layer_put
      intro file hfile
      exact h file (by simpa [consulted, hconfig] using hfile)
    simp only [hlayers]

/-- The result of a script, and what is written in its place, if anything is. -/
structure Effect where
  result : Except Fault Outcome
  change : Option (Location × ByteArray) := none

def effectOn (a : Arguments) (s : Settings) (p : Path) (l : Location) (bytes : ByteArray) : Effect :=
  if (skipped? a p bytes).isSome then { result := .ok .skipped }
  else match formatted s p bytes with
    | .error f => { result := .error f }
    | .ok out =>
      if bytes.data = out.data then { result := .ok .unchanged }
      else { result := .ok .changed, change := if a.stdout || a.check then none else some (l, out) }

def effectUnder (a : Arguments) (s : Settings) (p : Path) (w : World) : Effect :=
  match w.tree.locate w.cwd p with
  | .error f => { result := .error (.unreadable f) }
  | .ok l =>
    match w.tree.contents? l with
    | none => { result := .error (.unreadable .isDirectory) }
    | some bytes => effectOn a s p l bytes

def effect (a : Arguments) (common : Option Settings) (p : Path) (w : World) : Effect :=
  match common with
  | some s => effectUnder a s p w
  | none =>
    match (baseSettings w a p).1 with
    | .error f => { result := .error (.failed f) }
    | .ok s => effectUnder a s p w

section Effect

variable {a : Arguments} {s : Settings} {common : Option Settings} {p : Path} {w : World}

theorem world_deliver_of_ne {g : Progress} {l : Location} {before after : ByteArray}
    (hl : g.world.tree.locate g.world.cwd p = .ok l) (hne : before.data ≠ after.data) :
    (deliver a p before after g).world =
      g.world.put (if a.stdout || a.check then none else some (l, after)) := by
  unfold deliver
  cases a.stdout with
  | true => rfl
  | false =>
    cases a.check with
    | true =>
      rw [if_neg Bool.false_ne_true, if_neg hne, if_pos rfl]
      split <;> rfl
    | false => simp [hne, Progress.write, hl, World.put]

theorem formatScript_eq (a : Arguments) (s : Settings) (p : Path) (g : Progress) :
    (formatScript a s p g).1 = (effectUnder a s p g.world).result ∧
      (formatScript a s p g).2.world = g.world.put (effectUnder a s p g.world).change := by
  simp only [formatScript, effectUnder, World.read, FileTree.read]
  cases hl : g.world.tree.locate g.world.cwd p with
  | error f => exact ⟨rfl, rfl⟩
  | ok l =>
    simp only [bind, Except.bind]
    cases g.world.tree.contents? l with
    | none => exact ⟨rfl, rfl⟩
    | some bytes =>
      simp only [effectOn]
      cases skipped? a p bytes with
      | some n => exact ⟨rfl, rfl⟩
      | none =>
        cases formatted s p bytes with
        | error f => exact ⟨rfl, rfl⟩
        | ok out =>
          by_cases hsame : bytes.data = out.data
          · simp only [hsame, if_true, Option.isSome_none, Bool.false_eq_true, if_false, World.put,
              true_and, deliver]
            split <;> simp [Progress.print]
          · simp [hsame, world_deliver_of_ne hl hsame]

theorem runScript_eq (a : Arguments) (common : Option Settings) (p : Path) (g : Progress) :
    (runScript a common p g).1 = (effect a common p g.world).result ∧
      (runScript a common p g).2.world = g.world.put (effect a common p g.world).change := by
  cases common with
  | some s => exact formatScript_eq a s p g
  | none =>
    simp only [runScript, effect]
    cases (baseSettings g.world a p).1 with
    | error f => exact ⟨rfl, rfl⟩
    | ok s =>
      exact formatScript_eq a s p { g with notices := g.notices ++ (baseSettings g.world a p).2 }

theorem fst_of_mem_effectOn {l : Location} {bytes : ByteArray} {c : Location × ByteArray}
    (h : c ∈ (effectOn a s p l bytes).change) : c.1 = l := by
  unfold effectOn at h
  split at h
  · cases h
  · split at h
    · cases h
    · split at h
      · cases h
      · dsimp only at h
        split at h
        · cases h
        · cases h
          rfl

theorem locate_of_mem_effectUnder {c : Location × ByteArray}
    (h : c ∈ (effectUnder a s p w).change) : w.tree.locate w.cwd p = .ok c.1 := by
  unfold effectUnder at h
  split at h
  · cases h
  · next l hl =>
    split at h
    · cases h
    · rw [hl, fst_of_mem_effectOn h]

theorem locate_of_mem_effect {c : Location × ByteArray} (h : c ∈ (effect a common p w).change) :
    w.tree.locate w.cwd p = .ok c.1 := by
  cases common with
  | some s => exact locate_of_mem_effectUnder h
  | none =>
    simp only [effect] at h
    split at h
    · cases h
    · exact locate_of_mem_effectUnder h

/-- A change that is made neither to a script nor to its settings files does not concern it. -/
theorem effect_put {change : Option (Location × ByteArray)} (hp : w.Misses p change)
    (hfiles : ∀ file ∈ consulted w a common p, w.Misses file change) :
    effect a common p (w.put change) = effect a common p w := by
  have hunder : ∀ s, effectUnder a s p (w.put change) = effectUnder a s p w := by
    intro s
    simp only [effectUnder, World.locate_put]
    cases hl : w.tree.locate w.cwd p with
    | error f => rfl
    | ok l => simp only [hp.contents? hl]
  cases common with
  | some s => exact hunder s
  | none => simp only [effect, baseSettings_put hfiles, hunder]

theorem effect_foldl_put {changes : List (Option (Location × ByteArray))}
    (hp : ∀ c ∈ changes, w.Misses p c)
    (hfiles : ∀ file ∈ consulted w a common p, ∀ c ∈ changes, w.Misses file c) :
    effect a common p (changes.foldl World.put w) = effect a common p w := by
  induction changes generalizing w with
  | nil => rfl
  | cons c changes ih =>
    have hfirst : effect a common p (w.put c) = effect a common p w :=
      effect_put (hp c List.mem_cons_self) fun file hfile => hfiles file hfile c List.mem_cons_self
    rw [List.foldl_cons, ih, hfirst]
    · intro d hd
      simpa only [World.Misses, World.locate_put] using hp d (List.mem_cons_of_mem _ hd)
    · intro file hfile d hd
      rw [consulted_put] at hfile
      simpa only [World.Misses, World.locate_put] using
        hfiles file hfile d (List.mem_cons_of_mem _ hd)

end Effect

/-- Scripts that wait, the results of those that have been taken, and what has been counted and done
so far. -/
structure Pool where
  waiting : List Path
  results : List (Path × Except Fault Outcome) := []
  state : Tally × Progress

namespace Pool

inductive Step (a : Arguments) (common : Option Settings) : Pool → Pool → Prop
  | take (before after : List Path) (p : Path) (results : List (Path × Except Fault Outcome))
      (state : Tally × Progress) :
    Step a common ⟨before ++ p :: after, results, state⟩
      ⟨before ++ after, results ++ [(p, (runScript a common p state.2).1)],
        countScript a common state p⟩

abbrev Steps (a : Arguments) (common : Option Settings) : Pool → Pool → Prop :=
  Relation.ReflTransGen (Step a common)

def start (scripts : List Path) (g : Progress) : Pool where
  waiting := scripts
  state := ({}, g)

end Pool

def resultsInTurn (a : Arguments) (common : Option Settings) :
    List Path → Tally × Progress → List (Path × Except Fault Outcome)
  | [], _ => []
  | p :: rest, state =>
    (p, (runScript a common p state.2).1) ::
      resultsInTurn a common rest (countScript a common state p)

section Order

variable {a : Arguments} {common : Option Settings} {scripts : List Path} {g : Progress}

/-- Taking the scripts one by one is one way to take them. -/
theorem steps_inTurn (scripts : List Path) (results : List (Path × Except Fault Outcome))
    (state : Tally × Progress) :
    Pool.Steps a common ⟨scripts, results, state⟩
      ⟨[], results ++ resultsInTurn a common scripts state,
        scripts.foldl (countScript a common) state⟩ := by
  induction scripts generalizing results state with
  | nil =>
    rw [resultsInTurn, List.append_nil]
    exact .refl
  | cons p rest ih =>
    have hstep : Pool.Step a common ⟨p :: rest, results, state⟩ _ := .take [] rest p results state
    have hrest := ih (results ++ [(p, (runScript a common p state.2).1)])
      (countScript a common state p)
    rw [List.append_assoc] at hrest
    exact .head hstep hrest

@[simp] theorem countScript_fst (state : Tally × Progress) (p : Path) :
    (countScript a common state p).1 = state.1.add (runScript a common p state.2).1 := rfl

theorem world_countScript (state : Tally × Progress) (p : Path) :
    (countScript a common state p).2.world =
      state.2.world.put (effect a common p state.2.world).change := by
  rw [← (runScript_eq a common p state.2).2]
  simp only [countScript]
  split <;> rfl

theorem Tally.add_comm (t : Tally) (r s : Except Fault Outcome) :
    (t.add r).add s = (t.add s).add r := by
  rcases r with f | (_ | _ | _) <;> rcases s with f' | (_ | _ | _) <;> rfl

def isChanged : Except Fault Outcome → Bool
  | .ok .changed => true
  | _ => false

theorem changed_foldl_add (t : Tally) (results : List (Except Fault Outcome)) :
    (results.foldl Tally.add t).changed = t.changed + results.countP isChanged := by
  induction results generalizing t with
  | nil => rfl
  | cons r rest ih =>
    rw [List.foldl_cons, ih, List.countP_cons]
    rcases r with f | (_ | _ | _) <;> simp [Tally.add, isChanged]
    omega

/-- Different scripts, none of which is a settings file that is read for one of them. -/
structure Independent (a : Arguments) (common : Option Settings) (w : World)
    (scripts : List Path) : Prop where
  apart : scripts.Pairwise w.Apart
  settings : ∀ p ∈ scripts, ∀ file ∈ consulted w a common p, ∀ q ∈ scripts, w.Apart file q

/-- The scripts that are no longer waiting have had the effects that they have on the world of the
start, and nothing else has been done. -/
structure Pool.Sound (a : Arguments) (common : Option Settings) (scripts : List Path) (g : Progress)
    (q : Pool) (done : List Path) : Prop where
  perm : (done ++ q.waiting).Perm scripts
  results : q.results = done.map fun p => (p, (effect a common p g.world).result)
  tally : q.state.1 = (q.results.map Prod.snd).foldl Tally.add {}
  world : q.state.2.world =
    (done.map fun p => (effect a common p g.world).change).foldl World.put g.world

theorem Pool.sound_start : (start scripts g).Sound a common scripts g [] :=
  ⟨.refl _, rfl, rfl, rfl⟩

theorem Pool.Sound.step (hind : Independent a common g.world scripts) {q r : Pool}
    {done : List Path} (hq : q.Sound a common scripts g done) (h : Step a common q r) :
    ∃ p, r.Sound a common scripts g (done ++ [p]) := by
  obtain ⟨before, after, p, results, state⟩ := h
  obtain ⟨hperm, hresults, htally, hworld⟩ := hq
  dsimp only at hperm hresults htally hworld
  have hapart : (done ++ (before ++ p :: after)).Pairwise g.world.Apart :=
    (hperm.pairwise_iff fun h => h.symm).mpr hind.apart
  have hmem : ∀ d ∈ done, d ∈ scripts := fun d hd => hperm.subset (List.mem_append_left _ hd)
  have hp : p ∈ scripts := hperm.subset (by simp)
  have heffect : effect a common p state.2.world = effect a common p g.world := by
    rw [hworld]
    apply effect_foldl_put
    · intro c hc change hchange hl
      obtain ⟨d, hd, rfl⟩ := List.mem_map.mp hc
      have hdp : g.world.Apart d p := (List.pairwise_append.mp hapart).2.2 d hd p (by simp)
      exact hdp _ (locate_of_mem_effect hchange) hl
    · intro file hfile c hc change hchange hl
      obtain ⟨d, hd, rfl⟩ := List.mem_map.mp hc
      exact hind.settings p hp file hfile d (hmem d hd) _ hl (locate_of_mem_effect hchange)
  have hresult : (runScript a common p state.2).1 = (effect a common p g.world).result := by
    rw [(runScript_eq a common p state.2).1, heffect]
  refine ⟨p, ?_, ?_, ?_, ?_⟩
  · have hmove : ([p] ++ (before ++ after)).Perm (before ++ p :: after) := by
      rw [List.singleton_append]
      exact List.perm_middle.symm
    rw [List.append_assoc]
    exact (hmove.append_left done).trans hperm
  · simp [hresults, hresult]
  · simp [htally]
  · rw [world_countScript, heffect, hworld, List.map_append, List.foldl_append]
    rfl

theorem Pool.Sound.steps (hind : Independent a common g.world scripts) {q : Pool}
    (h : Steps a common (start scripts g) q) : ∃ done, q.Sound a common scripts g done := by
  induction h with
  | refl => exact ⟨[], sound_start⟩
  | tail _ hstep ih =>
    obtain ⟨done, hq⟩ := ih
    obtain ⟨p, hr⟩ := hq.step hind hstep
    exact ⟨done ++ [p], hr⟩

/-- Changes that scripts make to their own places commute. -/
theorem foldl_put_perm {ps qs : List Path} {w : World} (h : ps.Perm qs)
    (hapart : ps.Pairwise w.Apart) :
    (ps.map fun p => (effect a common p w).change).foldl World.put w =
      (qs.map fun p => (effect a common p w).change).foldl World.put w := by
  rw [List.foldl_map, List.foldl_map]
  apply h.foldl_eq'
  intro p hp q hq v
  by_cases hpq : p = q
  · rw [hpq]
  · have hne := hapart.forall hp hq hpq
    apply World.put_comm
    intro c hc d hd hcd
    exact hne c.1 (locate_of_mem_effect hc) (hcd ▸ locate_of_mem_effect hd)

/-- When no script waits any more, the order in which they were taken makes no difference. -/
theorem Pool.Sound.agree (hind : Independent a common g.world scripts) {q r : Pool}
    {done done' : List Path} (hq : q.Sound a common scripts g done)
    (hr : r.Sound a common scripts g done') (hqw : q.waiting = []) (hrw : r.waiting = []) :
    q.state.2.world = r.state.2.world ∧ q.results.Perm r.results ∧ q.state.1 = r.state.1 := by
  have hdone : done.Perm scripts := by simpa [hqw] using hq.perm
  have hdone' : done'.Perm scripts := by simpa [hrw] using hr.perm
  have hperm : done.Perm done' := hdone.trans hdone'.symm
  have hresults : q.results.Perm r.results := by
    rw [hq.results, hr.results]
    exact hperm.map _
  refine ⟨?_, hresults, ?_⟩
  · rw [hq.world, hr.world]
    exact foldl_put_perm hperm ((hdone.pairwise_iff fun h => h.symm).mpr hind.apart)
  · rw [hq.tally, hr.tally]
    exact (hresults.map Prod.snd).foldl_eq' (fun x _ y _ t => Tally.add_comm t x y) _

/-- The order of scripts does not matter. If they are different files and none of them is a settings
file that is read for one of them, then however they are taken, one at a time, until none waits any
more, the world, the result of each script and the tally are those of a run that takes them one by
one, and the scripts that count as changed are those with this result. -/
theorem any_order_agrees (hind : Independent a common g.world scripts) {q : Pool}
    (hsteps : Pool.Steps a common (.start scripts g) q) (hdone : q.waiting = []) :
    q.state.2.world = (runScripts a common scripts g).2.world ∧
      q.results.Perm (resultsInTurn a common scripts ({}, g)) ∧
      q.state.1 = (runScripts a common scripts g).1 ∧
      q.state.1.changed = q.results.countP (isChanged ·.2) := by
  obtain ⟨done, hq⟩ := Pool.Sound.steps hind hsteps
  obtain ⟨done', hturn⟩ := Pool.Sound.steps hind (steps_inTurn scripts [] ({}, g))
  obtain ⟨hworld, hresults, htally⟩ := hq.agree hind hturn hdone rfl
  refine ⟨hworld, hresults, htally, ?_⟩
  rw [hq.tally, changed_foldl_add, Nat.zero_add, List.countP_map]
  rfl

def pairFirst : Path := ⟨"/w/a.ahk".toList⟩

def pairSecond : Path := ⟨"/w/x/b.ahk".toList⟩

/-- Two scripts that share a settings file. The second one has a settings file of its own as well,
and a directive. -/
def pairStart : Progress where
  world := { tree := { files := [
    (["w".toList, "ahkfmt.toml".toList], Utf8.encode "tab_width = 2\n".toList),
    (["w".toList, "a.ahk".toList], Utf8.encode "f() \x7b\nx  := 1\n\x7d".toList),
    (["w".toList, "x".toList, "ahkfmt.toml".toList], Utf8.encode "max_blank_lines = 0\n".toList),
    (["w".toList, "x".toList, "b.ahk".toList],
      Utf8.encode "; ahkfmt: --use-tabs\n\nf() \x7b\nx := 1\n\x7d".toList)] } }

def pairOuter : Path := ⟨"/w/ahkfmt.toml".toList⟩

def pairInner : Path := ⟨"/w/x/ahkfmt.toml".toList⟩

theorem independent_pair : Independent {} none pairStart.world [pairFirst, pairSecond] := by
  have hfirst : pairStart.world.tree.locate pairStart.world.cwd pairFirst =
      .ok ["w".toList, "a.ahk".toList] := rfl
  have hsecond : pairStart.world.tree.locate pairStart.world.cwd pairSecond =
      .ok ["w".toList, "x".toList, "b.ahk".toList] := rfl
  have houter : pairStart.world.tree.locate pairStart.world.cwd pairOuter =
      .ok ["w".toList, "ahkfmt.toml".toList] := rfl
  have hinner : pairStart.world.tree.locate pairStart.world.cwd pairInner =
      .ok ["w".toList, "x".toList, "ahkfmt.toml".toList] := rfl
  have hfiles : consulted pairStart.world {} none pairFirst = [pairOuter] := by decide +kernel
  have hfiles' : consulted pairStart.world {} none pairSecond = [pairOuter, pairInner] := by
    decide +kernel
  constructor
  · simp [World.Apart, hfirst, hsecond]
  · simp [World.Apart, hfiles, hfiles', hfirst, hsecond, houter, hinner]

theorem any_order_agrees_pair :
    ∃ q, Pool.Steps {} none (.start [pairFirst, pairSecond] pairStart) q ∧
      q.results.map Prod.fst = [pairSecond, pairFirst] ∧
      q.state.2.world = (runScripts {} none [pairFirst, pairSecond] pairStart).2.world ∧
      q.results.Perm (resultsInTurn {} none [pairFirst, pairSecond] ({}, pairStart)) ∧
      (runScripts {} none [pairFirst, pairSecond] pairStart).1 =
        { processed := 2, changed := 2 } := by
  have hsteps : Pool.Steps {} none (.start [pairFirst, pairSecond] pairStart) _ :=
    .tail (.single (.take [pairFirst] [] pairSecond [] ({}, pairStart)))
      (.take [] [] pairFirst _ _)
  obtain ⟨hworld, hresults, htally, -⟩ := any_order_agrees independent_pair hsteps rfl
  refine ⟨_, hsteps, rfl, hworld, hresults, ?_⟩
  rw [← htally]
  decide +kernel

end Order

end Run
end HotkeyScript
