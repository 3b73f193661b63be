import HotkeyScript.Files.Tree
import HotkeyScript.Text.Basic
import Mathlib.Data.List.Infix

/-!
# Components of paths

A path is read as an anchor and the steps after it. Joining adds steps, and the ancestors of a path
have the prefixes of its steps and are no longer than it is.
-/

namespace HotkeyScript
namespace Path

def Anchor.components : Anchor → List Component
  | .root => [.root]
  | .here => [.here]
  | .bare => []

/-- The pieces that name something. -/
def steps (p : Path) : List (List Char) := (p.text.splitOn '/').filter (!isVoid ·)

def anchorOf : List (List Char) → Anchor
  | [] :: _ :: _ => .root
  | ['.'] :: _ => .here
  | _ => .bare

theorem splitOn_slash (s : List Char) : ('/' :: s).splitOn '/' = [] :: s.splitOn '/' :=
  List.splitOn_append_cons_self_of_not_mem List.not_mem_nil s

theorem exists_splitOn_cons {c : Char} (hc : c ≠ '/') (s : List Char) :
    ∃ h t, s.splitOn '/' = h :: t ∧ (c :: s).splitOn '/' = (c :: h) :: t := by
  obtain ⟨h, t, hs⟩ := List.exists_cons_of_ne_nil (List.splitOn_ne_nil '/' s)
  refine ⟨h, t, hs, ?_⟩
  have hne : (c == '/') = false := by simpa using hc
  rw [List.splitOn_cons_eq_if_modifyHead, hne, if_neg Bool.false_ne_true, hs]
  rfl

theorem anchor_eq (p : Path) : p.anchor = anchorOf (p.text.splitOn '/') := by
  obtain ⟨s⟩ := p
  cases s with
  | nil => rfl
  | cons c s =>
    by_cases hc : c = '/'
    · obtain ⟨h, t, hs⟩ := List.exists_cons_of_ne_nil (List.splitOn_ne_nil '/' s)
      rw [hc, splitOn_slash, hs]
      rfl
    · obtain ⟨h, t, hs, hcs⟩ := exists_splitOn_cons hc s
      rw [hcs]
      cases s with
      | nil =>
        obtain ⟨rfl, rfl⟩ : h = [] ∧ t = [] := by simpa [eq_comm] using hs
        by_cases hdot : c = '.'
        · simp [anchor, anchorOf, hdot]
        · simp [anchor, anchorOf, hdot, hc]
      | cons d s =>
        by_cases hd : d = '/'
        · obtain ⟨rfl, -⟩ : [] = h ∧ s.splitOn '/' = t := by simpa [hd, splitOn_slash] using hs
          by_cases hdot : c = '.'
          · simp [anchor, anchorOf, hdot, hd]
          · simp [anchor, anchorOf, hdot, hc]
        · obtain ⟨h', t', -, hds⟩ := exists_splitOn_cons hd s
          obtain ⟨rfl, -⟩ : d :: h' = h ∧ t' = t := by simpa [hds] using hs
          simp [anchor, anchorOf, hc, hd]

theorem anchor_eq_root_iff {p : Path} : p.anchor = .root ↔ ∃ s, p.text = '/' :: s := by
  unfold anchor
  split <;> simp_all

theorem text_of_anchor_here {p : Path} (h : p.anchor = .here) :
    p.text = ['.'] ∨ ∃ s, p.text = '.' :: '/' :: s := by
  unfold anchor at h
  split at h <;> simp_all

theorem splitOn_dot_slash (s : List Char) :
    ('.' :: '/' :: s).splitOn '/' = ['.'] :: s.splitOn '/' :=
  List.splitOn_append_cons_self_of_not_mem (by decide : '/' ∉ ['.']) s

/-- A void piece in front is what the anchor stands for. -/
theorem filter_pieces (p : Path) : p.pieces.filter (!isVoid ·) = p.steps := by
  unfold pieces steps
  cases hanchor : p.anchor with
  | root =>
    obtain ⟨s, hs⟩ := anchor_eq_root_iff.mp hanchor
    rw [hs, splitOn_slash]
    rfl
  | here =>
    rcases text_of_anchor_here hanchor with hs | ⟨s, hs⟩
    · rw [hs]
      rfl
    · have hdrop : ('.' :: '/' :: s).drop Anchor.here.text.length = '/' :: s := rfl
      rw [hs, splitOn_dot_slash, hdrop, splitOn_slash]
      rfl
  | bare => rfl

theorem components_eq (p : Path) : p.components = p.anchor.components ++ p.steps.map .ofPiece := by
  rw [components, filter_pieces]
  cases p.anchor <;> rfl

/-- Pieces that can stand after an anchor: with a slash between them they are read back as they
are. -/
structure Spells (a : Anchor) (ps : List (List Char)) : Prop where
  slash : ∀ piece ∈ ps, '/' ∉ piece
  here : a = .here → ∀ piece ∈ ps.head?, piece = []
  bare : a = .bare → anchorOf ps = .bare

/-- The first two pieces decide the anchor, and usually the first one alone. -/
theorem anchorOf_append {ps : List (List Char)} (h : ps ≠ []) (h' : ps ≠ [[]])
    (qs : List (List Char)) : anchorOf (ps ++ qs) = anchorOf ps := by
  match ps, h, h' with
  | [] :: _ :: _, _, _ => rfl
  | [c] :: ps, _, _ => by_cases hc : c = '.' <;> simp [anchorOf, hc]
  | (_ :: _ :: _) :: ps, _, _ => simp [anchorOf]

theorem anchorOf_of_prefix {ps qs : List (List Char)} (h : ps <+: qs) (hqs : anchorOf qs = .bare) :
    anchorOf ps = .bare := by
  obtain ⟨rest, rfl⟩ := h
  by_cases hnil : ps = []
  · rw [hnil]
    rfl
  · by_cases hvoid : ps = [[]]
    · rw [hvoid]
      rfl
    · rw [← anchorOf_append hnil hvoid rest, hqs]

theorem Spells.initial {a : Anchor} {ps qs : List (List Char)} (h : Spells a qs) (hp : ps <+: qs) :
    Spells a ps where
  slash piece hpiece := h.slash piece (hp.subset hpiece)
  here ha piece hpiece := by
    obtain ⟨rest, rfl⟩ := hp
    cases ps with
    | nil => cases hpiece
    | cons q ps => exact h.here ha piece hpiece
  bare ha := anchorOf_of_prefix hp (h.bare ha)

theorem spells_pieces (p : Path) : Spells p.anchor p.pieces where
  slash _ h := Text.notMem_of_mem_splitOn h
  here ha := by
    rw [pieces, ha]
    rcases text_of_anchor_here ha with hs | ⟨s, hs⟩
    · rw [hs]
      simp [Anchor.text]
    · have hdrop : ('.' :: '/' :: s).drop Anchor.here.text.length = '/' :: s := rfl
      rw [hs, hdrop, splitOn_slash]
      simp
  bare ha := by
    rw [← ha, anchor_eq p, pieces, ha]
    rfl

theorem splitOn_ofPieces {a : Anchor} {ps : List (List Char)} (h : Spells a ps) (hps : ps ≠ []) :
    (ofPieces a ps).text.splitOn '/' =
      match a with
      | .root => [] :: ps
      | .here => ['.'] :: ps.tail
      | .bare => ps := by
  have hread : (['/'].intercalate ps).splitOn '/' = ps := List.splitOn_intercalate '/' h.slash hps
  cases a with
  | root => exact (splitOn_slash _).trans (congrArg _ hread)
  | bare => exact hread
  | here =>
    obtain ⟨piece, rest, rfl⟩ := List.exists_cons_of_ne_nil hps
    obtain rfl : piece = [] := h.here rfl piece rfl
    cases rest with
    | nil => rfl
    | cons q rest =>
      have hrest : (['/'].intercalate (q :: rest)).splitOn '/' = q :: rest :=
        List.splitOn_intercalate '/' (fun x hx => h.slash x (List.mem_cons_of_mem _ hx))
          (List.cons_ne_nil q rest)
      have htext : (ofPieces .here ([] :: q :: rest)).text =
          '.' :: '/' :: ['/'].intercalate (q :: rest) := by
        simp [ofPieces, Anchor.text, List.intercalate_cons_cons]
      rw [htext, splitOn_dot_slash, hrest]
      rfl

theorem anchor_steps_ofPieces {a : Anchor} {ps : List (List Char)} (h : Spells a ps) :
    (ofPieces a ps).anchor = a ∧ (ofPieces a ps).steps = ps.filter (!isVoid ·) := by
  rw [anchor_eq, steps]
  by_cases hps : ps = []
  · subst hps
    cases a <;> exact ⟨rfl, rfl⟩
  · obtain ⟨piece, rest, rfl⟩ := List.exists_cons_of_ne_nil hps
    rw [splitOn_ofPieces h hps]
    cases a with
    | root => exact ⟨rfl, rfl⟩
    | bare => exact ⟨h.bare rfl, rfl⟩
    | here =>
      obtain rfl : piece = [] := h.here rfl piece rfl
      exact ⟨rfl, rfl⟩

theorem components_ofPieces {a : Anchor} {ps : List (List Char)} (h : Spells a ps) :
    (ofPieces a ps).components = a.components ++ (ps.filter (!isVoid ·)).map .ofPiece := by
  rw [components_eq, (anchor_steps_ofPieces h).1, (anchor_steps_ofPieces h).2]

/-- The components on the way to a path with these steps, from the farthest to the nearest. -/
def way (a : Anchor) (cs : List Component) : List (List Component) :=
  (if a = .here then [[]] else []) ++ cs.inits.map (a.components ++ ·)

theorem way_append_singleton (a : Anchor) (cs : List Component) (c : Component) :
    way a (cs ++ [c]) = way a cs ++ [a.components ++ (cs ++ [c])] := by
  simp [way, List.inits_append]

theorem prefix_of_mem_way {a : Anchor} {cs ds : List Component} (h : ds ∈ way a cs) :
    ds <+: a.components ++ cs := by
  rw [way, List.mem_append, List.mem_map] at h
  rcases h with h | ⟨i, hi, rfl⟩
  · split at h
    · rw [List.mem_singleton.mp h]
      exact List.nil_prefix
    · cases h
  · rw [List.prefix_append_right_inj]
    exact (List.mem_inits i cs).mp hi

theorem pairwise_way (a : Anchor) (cs : List Component) :
    (way a cs).Pairwise fun ds es => ds.length < es.length := by
  induction cs using List.reverseRecOn with
  | nil => cases a <;> simp [way, Anchor.components]
  | append_singleton cs c ih =>
    rw [way_append_singleton, List.pairwise_append]
    refine ⟨ih, List.pairwise_singleton _ _, ?_⟩
    intro ds hds es hes
    have hlength := (prefix_of_mem_way hds).length_le
    rw [List.mem_singleton.mp hes]
    simp only [List.length_append, List.length_singleton] at hlength ⊢
    omega

theorem filter_dropWhile_isVoid (ps : List (List Char)) :
    (ps.dropWhile isVoid).filter (!isVoid ·) = ps.filter (!isVoid ·) := by
  induction ps with
  | nil => rfl
  | cons piece ps ih => cases h : isVoid piece <;> simp [h, ih]

theorem components_above {a : Anchor} {rs : List (List Char)} (h : Spells a rs.reverse) :
    (above a rs).reverse.map components ++
        [a.components ++ (rs.reverse.filter (!isVoid ·)).map .ofPiece] =
      way a ((rs.reverse.filter (!isVoid ·)).map .ofPiece) := by
  induction rs with
  | nil => cases a <;> rfl
  | cons piece rest ih =>
    have hrest := ih (h.initial (by simp))
    rw [above]
    cases hvoid : isVoid piece with
    | true => simpa [hvoid] using hrest
    | false =>
      have hprefix : (rest.dropWhile isVoid).reverse <+: (piece :: rest).reverse := by
        rw [List.reverse_prefix]
        exact (List.dropWhile_suffix isVoid).trans (List.suffix_cons piece rest)
      have hfilter : (rest.dropWhile isVoid).reverse.filter (!isVoid ·) =
          rest.reverse.filter (!isVoid ·) := by
        rw [List.filter_reverse, List.filter_reverse, filter_dropWhile_isVoid]
      have hnearest := components_ofPieces (h.initial hprefix)
      rw [hfilter] at hnearest
      simp only [hvoid, Bool.false_eq_true, if_false, List.reverse_cons, List.map_append,
        List.map_cons, List.map_nil, hnearest, hrest, List.filter_append, List.filter_cons,
        Bool.not_false, if_true, List.filter_nil, way_append_singleton]

theorem components_ancestors (p : Path) :
    p.ancestors.reverse.map components = way p.anchor (p.steps.map .ofPiece) := by
  have hspells : Spells p.anchor p.pieces.reverse.reverse := by
    rw [List.reverse_reverse]
    exact spells_pieces p
  have habove := components_above hspells
  rw [List.reverse_reverse, filter_pieces, ← components_eq] at habove
  rw [ancestors, List.reverse_cons, List.map_append]
  exact habove

def Component.piece? : Component → Option (List Char)
  | .root | .here => none
  | .up => some ['.', '.']
  | .name s => some s

theorem Component.piece?_ofPiece (piece : List Char) : (ofPiece piece).piece? = some piece := by
  unfold ofPiece
  split
  · next hup => rw [hup, piece?]
  · rfl

theorem filterMap_piece? (ps : List (List Char)) :
    (ps.map Component.ofPiece).filterMap Component.piece? = ps := by
  induction ps with
  | nil => rfl
  | cons piece ps ih => simp [Component.piece?_ofPiece, ih]

theorem steps_eq (p : Path) : p.steps = p.components.filterMap Component.piece? := by
  rw [components_eq, List.filterMap_append, filterMap_piece?]
  cases p.anchor <;> rfl

theorem anchor_eq_root_iff_components {p : Path} :
    p.anchor = .root ↔ p.components.head? = some .root := by
  have hpiece : ∀ piece, Component.ofPiece piece ≠ .root := by
    intro piece
    unfold Component.ofPiece
    split <;> simp
  rw [components_eq]
  cases p.anchor with
  | root => simp [Anchor.components]
  | here => simp [Anchor.components]
  | bare => cases p.steps <;> simp [Anchor.components, hpiece]

/-- The steps of the ancestors of a path are the prefixes of its own. A full stop in front of it
makes one more ancestor, without steps. -/
theorem steps_ancestors (p : Path) :
    p.ancestors.reverse.map steps = (if p.anchor = .here then [[]] else []) ++ p.steps.inits := by
  have hread : ∀ i : List Component, (p.anchor.components ++ i).filterMap Component.piece? =
      i.filterMap Component.piece? := by
    intro i
    rw [List.filterMap_append]
    cases p.anchor <;> rfl
  have hway : p.ancestors.reverse.map steps =
      (p.ancestors.reverse.map components).map (List.filterMap Component.piece?) := by
    simp [steps_eq]
  rw [hway, components_ancestors, way, List.map_append, List.map_inits, List.map_map, List.map_map]
  congr 1
  · split <;> rfl
  · refine (List.map_congr_left fun i _ => ?_).trans (List.map_id _)
    simp only [Function.comp_apply, hread, filterMap_piece?, id]

theorem steps_initial_of_mem_ancestors {p d : Path} (h : d ∈ p.ancestors) : d.steps <+: p.steps := by
  have hmem : d.steps ∈ p.ancestors.reverse.map steps :=
    List.mem_map_of_mem (List.mem_reverse.mpr h)
  rw [steps_ancestors, List.mem_append] at hmem
  rcases hmem with hmem | hmem
  · split at hmem
    · rw [List.mem_singleton.mp hmem]
      exact List.nil_prefix
    · cases hmem
  · exact (List.mem_inits _ _).mp hmem

theorem mem_above {a : Anchor} {rs : List (List Char)} {d : Path} (h : d ∈ above a rs) :
    (a = .here ∧ d = ⟨[]⟩) ∨ ∃ ps, ps <+: rs.reverse ∧ d = ofPieces a ps := by
  induction rs with
  | nil =>
    rw [above] at h
    split at h
    · next ha => exact .inl ⟨ha, List.mem_singleton.mp h⟩
    · cases h
  | cons piece rest ih =>
    have hrest : rest.reverse <+: (piece :: rest).reverse := by simp
    have hlater : d ∈ above a rest →
        (a = .here ∧ d = ⟨[]⟩) ∨ ∃ ps, ps <+: (piece :: rest).reverse ∧ d = ofPieces a ps := fun h =>
      (ih h).imp_right fun ⟨ps, hps, hd⟩ => ⟨ps, hps.trans hrest, hd⟩
    rw [above] at h
    split at h
    · exact hlater h
    · rcases List.mem_cons.mp h with rfl | h
      · refine .inr ⟨_, .trans ?_ hrest, rfl⟩
        exact List.reverse_prefix.mpr (List.dropWhile_suffix isVoid)
      · exact hlater h

theorem eq_ofPieces (p : Path) : p = ofPieces p.anchor p.pieces := by
  have hpieces : ['/'].intercalate p.pieces = p.text.drop p.anchor.text.length :=
    List.intercalate_splitOn '/'
  have htext : p.text = p.anchor.text ++ p.text.drop p.anchor.text.length := by
    cases hanchor : p.anchor with
    | root =>
      obtain ⟨s, hs⟩ := anchor_eq_root_iff.mp hanchor
      simp [hs, Anchor.text]
    | here => rcases text_of_anchor_here hanchor with hs | ⟨s, hs⟩ <;> simp [hs, Anchor.text]
    | bare => simp [Anchor.text]
  rw [ofPieces, hpieces, ← htext]

theorem mem_ancestors {p d : Path} (h : d ∈ p.ancestors) :
    (p.anchor = .here ∧ d = ⟨[]⟩) ∨ ∃ ps, ps <+: p.pieces ∧ d = ofPieces p.anchor ps := by
  rcases List.mem_cons.mp h with rfl | h
  · exact .inr ⟨d.pieces, List.prefix_rfl, eq_ofPieces d⟩
  · have habove := mem_above h
    rwa [List.reverse_reverse] at habove

theorem anchor_of_mem_ancestors {p d : Path} (h : d ∈ p.ancestors) :
    d.anchor = .root ↔ p.anchor = .root := by
  rcases mem_ancestors h with ⟨hhere, rfl⟩ | ⟨ps, hps, rfl⟩
  · rw [hhere]
    decide
  · rw [(anchor_steps_ofPieces ((spells_pieces p).initial hps)).1]

theorem width_intercalate_of_prefix {ps qs : List (List Char)} (h : ps <+: qs) :
    Utf8.width (['/'].intercalate ps) ≤ Utf8.width (['/'].intercalate qs) := by
  induction ps generalizing qs with
  | nil => exact Nat.zero_le _
  | cons piece ps ih =>
    obtain ⟨qs, rfl, hqs⟩ := List.cons_prefix_iff.mp h
    have hrest := ih hqs
    cases ps with
    | nil => cases qs <;> simp [List.intercalate_cons_cons]
    | cons p ps =>
      obtain ⟨qs, rfl, -⟩ := List.cons_prefix_iff.mp hqs
      simp only [List.intercalate_cons_cons, Utf8.width_append] at hrest ⊢
      omega

theorem width_of_mem_ancestors {p d : Path} (h : d ∈ p.ancestors) :
    Utf8.width d.text ≤ Utf8.width p.text := by
  rcases mem_ancestors h with ⟨-, rfl⟩ | ⟨ps, hps, rfl⟩
  · exact Nat.zero_le _
  · have hprefix := width_intercalate_of_prefix hps
    rw [congrArg text (eq_ofPieces p), ofPieces, ofPieces, Utf8.width_append, Utf8.width_append]
    omega

/-- A path with a last step has a parent, with the steps before it. -/
theorem exists_parent {p : Path} {ss : List (List Char)} {s : List Char} (h : p.steps = ss ++ [s]) :
    ∃ d, p.parent? = some d ∧ d ∈ p.ancestors ∧ d.steps = ss := by
  have hparents : p.parents.reverse.map steps ++ [ss ++ [s]] =
      ((if p.anchor = .here then [[]] else []) ++ ss.inits) ++ [ss ++ [s]] := by
    have hsteps := steps_ancestors p
    simpa [ancestors, h, List.inits_append] using hsteps
  have hlast : (p.parents.reverse.map steps).getLast? = some ss := by
    have hinits : ss.inits.getLast? = some ss := by
      cases ss using List.reverseRecOn <;> simp [List.inits_append]
    rw [List.append_cancel_right hparents, List.getLast?_append, hinits, Option.some_or]
  rw [List.getLast?_map, List.getLast?_reverse, Option.map_eq_some_iff] at hlast
  obtain ⟨d, hd, hss⟩ := hlast
  exact ⟨d, hd, List.mem_cons_of_mem _ (List.mem_of_mem_head? hd), hss⟩

theorem join_nil (name : List Char) : (⟨[]⟩ : Path).join name = ⟨name⟩ := rfl

theorem text_join {p : Path} (h : p.text ≠ []) (name : List Char) :
    (∃ s, p.text = s ++ ['/'] ∧ (p.join name).text = s ++ '/' :: name) ∨
      (p.join name).text = p.text ++ '/' :: name := by
  unfold join
  split
  · next hend =>
    obtain ⟨s, hs⟩ := List.getLast?_eq_some_iff.mp (hend.resolve_left h)
    exact .inl ⟨s, hs, by simp [hs]⟩
  · exact .inr rfl

theorem splitOn_join {p : Path} (h : p.text ≠ []) (name : List Char) :
    ∃ ps, (p.join name).text.splitOn '/' = ps ++ name.splitOn '/' ∧
      ps.filter (!isVoid ·) = p.steps := by
  rcases text_join h name with ⟨s, hs, hjoin⟩ | hjoin
  · refine ⟨s.splitOn '/', ?_, ?_⟩
    · rw [hjoin, List.splitOn_append_cons_self]
    · rw [steps, hs, List.splitOn_append_cons_self]
      simp [isVoid]
  · refine ⟨p.text.splitOn '/', ?_, rfl⟩
    rw [hjoin, List.splitOn_append_cons_self]

theorem text_join_ne_nil {p : Path} (h : p.text ≠ []) (name : List Char) :
    (p.join name).text ≠ [] := by
  rcases text_join h name with ⟨s, -, hjoin⟩ | hjoin <;> simp [hjoin]

theorem width_le_join {p : Path} (h : p.text ≠ []) (name : List Char) :
    Utf8.width name ≤ Utf8.width (p.join name).text := by
  rcases text_join h name with ⟨s, -, hjoin⟩ | hjoin
  · simp only [hjoin, Utf8.width_append, Utf8.width_cons]
    omega
  · simp only [hjoin, Utf8.width_append, Utf8.width_cons]
    omega

theorem width_join_le (p : Path) (name : List Char) :
    Utf8.width (p.join name).text ≤ Utf8.width p.text + 1 + Utf8.width name := by
  unfold join
  split <;> simp only [Utf8.width_append, Utf8.width_cons]
  · omega
  · have hslash : '/'.utf8Size = 1 := rfl
    omega

theorem steps_join (p : Path) (name : List Char) :
    (p.join name).steps = p.steps ++ (⟨name⟩ : Path).steps := by
  by_cases hp : p.text = []
  · obtain ⟨s⟩ := p
    cases hp
    rfl
  · obtain ⟨ps, hsplit, hps⟩ := splitOn_join hp name
    rw [steps, hsplit, List.filter_append, hps]
    rfl

theorem splitOn_ne_void {s : List Char} (h : s ≠ []) : s.splitOn '/' ≠ [[]] := by
  intro hs
  have hread : ['/'].intercalate (s.splitOn '/') = s := List.intercalate_splitOn '/'
  rw [hs] at hread
  exact h hread.symm

/-- Only the empty path takes its anchor from what is joined to it. -/
theorem anchor_join {p : Path} (h : p.text ≠ []) (name : List Char) :
    (p.join name).anchor = p.anchor := by
  have hsplit : ∀ s : List Char, s ≠ [] → ∀ qs,
      anchorOf (s.splitOn '/' ++ qs) = anchorOf (s.splitOn '/') := fun s hs =>
    anchorOf_append (List.splitOn_ne_nil '/' s) (splitOn_ne_void hs)
  rw [anchor_eq, anchor_eq]
  rcases text_join h name with ⟨s, hs, hjoin⟩ | hjoin
  · rw [hjoin, hs, List.splitOn_append_cons_self, List.splitOn_append_cons_self]
    cases s with
    | nil =>
      obtain ⟨first, rest, hname⟩ := List.exists_cons_of_ne_nil (List.splitOn_ne_nil '/' name)
      rw [hname]
      rfl
    | cons c s => rw [hsplit _ (List.cons_ne_nil c s), hsplit _ (List.cons_ne_nil c s)]
  · rw [hjoin, List.splitOn_append_cons_self, hsplit _ h]

theorem components_join {p : Path} (h : p.text ≠ []) (q : Path) :
    (p.join q.text).components = p.components ++ q.steps.map .ofPiece := by
  rw [components_eq, anchor_join h, steps_join, List.map_append, ← List.append_assoc,
    ← components_eq]

structure IsName (s : List Char) : Prop where
  void : isVoid s = false
  up : s ≠ ['.', '.']
  slash : '/' ∉ s
  width : Utf8.width s ≤ FileTree.longestName

instance (s : List Char) : Decidable (IsName s) :=
  decidable_of_iff (isVoid s = false ∧ s ≠ ['.', '.'] ∧ '/' ∉ s ∧
      Utf8.width s ≤ FileTree.longestName)
    ⟨fun ⟨hvoid, hup, hslash, hwidth⟩ => ⟨hvoid, hup, hslash, hwidth⟩,
      fun ⟨hvoid, hup, hslash, hwidth⟩ => ⟨hvoid, hup, hslash, hwidth⟩⟩

theorem IsName.ofPiece {s : List Char} (h : IsName s) : Component.ofPiece s = .name s :=
  if_neg h.up

theorem IsName.steps {s : List Char} (h : IsName s) : (⟨s⟩ : Path).steps = [s] := by
  rw [Path.steps, List.splitOn_eq_singleton h.slash]
  simp [h.void]

theorem IsName.anchor {s : List Char} (h : IsName s) : (⟨s⟩ : Path).anchor = .bare := by
  have hvoid := h.void
  rw [anchor_eq, List.splitOn_eq_singleton h.slash]
  match s, hvoid with
  | [c], hvoid =>
    have hc : c ≠ '.' := by simpa [isVoid] using hvoid
    simp [anchorOf, hc]
  | _ :: _ :: _, _ => simp [anchorOf]

theorem components_join_name (p : Path) {s : List Char} (h : IsName s) :
    (p.join s).components = p.components ++ [.name s] := by
  by_cases hp : p.text = []
  · obtain ⟨t⟩ := p
    cases hp
    rw [join_nil, components_eq, h.anchor, h.steps]
    exact congrArg _ (congrArg (· :: []) h.ofPiece)
  · rw [components_join hp ⟨s⟩, h.steps, List.map_singleton, h.ofPiece]

end Path
end HotkeyScript
