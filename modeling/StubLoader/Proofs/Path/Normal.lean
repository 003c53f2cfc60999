import Mathlib.Data.List.Basic
import Mathlib.Tactic.SplitIfs
import StubLoader.Path.Normal
/-!
# Normal paths

A folded path is a root, or a climb of steps up, and names below it. Spelling such steps and
reading them again gives them back, and folding them once more changes nothing.
-/

namespace StubLoader.Path

/-! ### Segments -/

theorem segments_ne_nil (bytes : Bytes) : segments bytes ≠ [] := by
  cases bytes with
  | nil => simp [segments]
  | cons b r =>
    rw [segments]
    split_ifs
    · simp
    · split <;> simp

theorem slash_not_mem_segments {bytes : Bytes} : ∀ s ∈ segments bytes, slash ∉ s := by
  induction bytes with
  | nil =>
    intro s h
    rw [List.mem_singleton.mp h]
    exact List.not_mem_nil
  | cons b r ih =>
    intro s h
    rw [segments] at h
    split_ifs at h with hb
    · rcases List.mem_cons.mp h with rfl | h
      · exact List.not_mem_nil
      · exact ih s h
    · split at h
      · next hnil => exact absurd hnil (segments_ne_nil r)
      · next t ts hts =>
        rcases List.mem_cons.mp h with rfl | h
        · have ht := ih t (hts ▸ List.mem_cons_self)
          simp only [List.mem_cons, not_or]
          exact ⟨fun e => hb e.symm, ht⟩
        · exact ih s (hts ▸ List.mem_cons_of_mem t h)

theorem segments_of_not_mem {s : Bytes} (h : slash ∉ s) : segments s = [s] := by
  induction s with
  | nil => rfl
  | cons b r ih =>
    simp only [List.mem_cons, not_or] at h
    rw [segments, if_neg (Ne.symm h.1), ih h.2]

theorem segments_append_slash {s : Bytes} (h : slash ∉ s) (r : Bytes) :
    segments (s ++ slash :: r) = s :: segments r := by
  induction s with
  | nil => rw [List.nil_append, segments, if_pos rfl]
  | cons b s ih =>
    simp only [List.mem_cons, not_or] at h
    rw [List.cons_append, segments, if_neg (Ne.symm h.1), ih h.2]

theorem segments_joinSegments : ∀ {ss : List Bytes}, ss ≠ [] → (∀ s ∈ ss, slash ∉ s) →
    segments (joinSegments ss) = ss
  | [], hne, _ => absurd rfl hne
  | [s], _, h => segments_of_not_mem (h s List.mem_cons_self)
  | s :: t :: ss, _, h => by
    rw [joinSegments, segments_append_slash (h s List.mem_cons_self),
      segments_joinSegments (by simp) fun u hu => h u (List.mem_cons_of_mem s hu)]
    exact fun h => nomatch h

/-! ### Steps and their spelling -/

/-- A name is no other step, and it can stand between slashes. -/
def Component.WellFormed : Component → Prop
  | .name s => s ≠ [] ∧ s ≠ [dot] ∧ s ≠ [dot, dot] ∧ slash ∉ s
  | _ => True

theorem wellFormed_of_ofSegment? {s : Bytes} {c : Component} (hs : slash ∉ s)
    (h : Component.ofSegment? s = some c) : c.WellFormed := by
  unfold Component.ofSegment? at h
  split_ifs at h with hempty hdot hdots
  · cases h; trivial
  · cases h; exact ⟨hempty, hdot, hdots, hs⟩

theorem ne_root_of_ofSegment? {s : Bytes} {c : Component}
    (h : Component.ofSegment? s = some c) : c ≠ .root := by
  unfold Component.ofSegment? at h
  split_ifs at h <;> cases h <;> simp

/-- The steps of a path are a root or not, and others after it. -/
theorem components_eq (p : Path) : ∃ front steps, p.components = front ++ steps ∧
    (front = if p.isAbsolute then [.root] else []) ∧
    ∀ c ∈ steps, c.WellFormed ∧ c ≠ .root := by
  have hsteps : ∀ c ∈ (segments p.bytes).filterMap Component.ofSegment?,
      c.WellFormed ∧ c ≠ .root := by
    intro c hc
    obtain ⟨s, hs, hc⟩ := List.mem_filterMap.mp hc
    exact ⟨wellFormed_of_ofSegment? (slash_not_mem_segments s hs) hc, ne_root_of_ofSegment? hc⟩
  unfold components
  dsimp only
  split_ifs with habs hcurrent
  · exact ⟨[.root], _, rfl, rfl, hsteps⟩
  · exact ⟨[], _, rfl, rfl, List.forall_mem_cons.mpr ⟨⟨trivial, by simp⟩, hsteps⟩⟩
  · exact ⟨[], _, rfl, rfl, hsteps⟩

/-! ### Folding -/

/-- Folded steps, the last one first. -/
inductive Folded : List Component → Prop where
  | root : Folded [.root]
  /-- Nothing but steps up. -/
  | climb (n : Nat) : Folded (List.replicate n .parent)
  | name {steps : List Component} (s : Bytes) (h : Folded steps) : Folded (.name s :: steps)

theorem Folded.step {steps : List Component} (h : Folded steps) {c : Component}
    (hc : c ≠ .root) : Folded (foldStep steps c) := by
  cases c with
  | root => exact absurd rfl hc
  | current => simpa [foldStep] using h
  | name s => simpa [foldStep] using h.name s
  | parent =>
    cases h with
    | root => exact .root
    | name s h => simpa [foldStep] using h
    | climb n =>
      cases n with
      | zero => exact .climb 1
      | succ n => exact .climb (n + 2)

theorem Folded.foldl {cs : List Component} (hcs : ∀ c ∈ cs, c ≠ .root) :
    ∀ {steps : List Component}, Folded steps → Folded (cs.foldl foldStep steps) := by
  induction cs with
  | nil => exact fun h => h
  | cons c cs ih =>
    intro steps h
    exact ih (fun d hd => hcs d (List.mem_cons_of_mem c hd)) (h.step (hcs c List.mem_cons_self))

theorem folded_fold (p : Path) : Folded (fold p.components).reverse := by
  obtain ⟨front, steps, hcs, hfront, hsteps⟩ := components_eq p
  have hroot : ∀ c ∈ steps, c ≠ .root := fun c hc => (hsteps c hc).2
  rw [fold, List.reverse_reverse, hcs, List.foldl_append, hfront]
  split_ifs
  · exact Folded.foldl hroot .root
  · exact Folded.foldl hroot (.climb 0)

/-- A step is added, or it is left out and perhaps the one before as well. -/
theorem foldStep_sublist (steps : List Component) (c : Component) :
    (foldStep steps c).Sublist (c :: steps) := by
  unfold foldStep
  split
  · exact List.sublist_cons_self _ _
  · exact (List.sublist_cons_self _ _).trans (List.sublist_cons_self _ _)
  · exact List.sublist_cons_self _ _
  · exact List.Sublist.refl _

/-- Folding makes up no steps and leaves those that stay in their order. -/
theorem fold_sublist (cs : List Component) : (fold cs).Sublist cs := by
  have hfoldl : ∀ {cs steps : List Component},
      (cs.foldl foldStep steps).Sublist (cs.reverse ++ steps) := by
    intro cs
    induction cs with
    | nil => exact List.Sublist.refl _
    | cons c cs ih =>
      intro steps
      rw [List.foldl_cons, List.reverse_cons, List.append_assoc]
      exact ih.trans ((foldStep_sublist steps c).append_left cs.reverse)
  simpa [fold] using (@hfoldl cs []).reverse

theorem mem_fold {cs : List Component} {d : Component} (h : d ∈ fold cs) : d ∈ cs :=
  (fold_sublist cs).subset h

theorem wellFormed_of_mem_components {p : Path} {c : Component} (h : c ∈ p.components) :
    c.WellFormed := by
  obtain ⟨front, steps, hcs, hfront, hsteps⟩ := components_eq p
  rw [hcs] at h
  rcases List.mem_append.mp h with h | h
  · rw [hfront] at h
    split_ifs at h
    · rw [List.mem_singleton.mp h]; trivial
    · exact absurd h List.not_mem_nil
  · exact (hsteps c h).1

/-- Folded steps stay as they are. -/
theorem Folded.fold {cs : List Component} (h : Folded cs.reverse) : fold cs = cs := by
  have hfoldl : ∀ {steps : List Component}, Folded steps →
      steps.reverse.foldl foldStep [] = steps := by
    intro steps h
    induction h with
    | root => rfl
    | name s _ ih => rw [List.reverse_cons, List.foldl_append, ih]; rfl
    | climb n =>
      induction n with
      | zero => rfl
      | succ n ih =>
        rw [List.replicate_succ, List.reverse_cons, List.foldl_append, ih]
        cases n <;> rfl
  rw [Path.fold, ← List.reverse_reverse cs, hfoldl h, List.reverse_reverse]

/-! ### Spelling folded steps -/

theorem ofSegment?_bytes {c : Component} (h : c.WellFormed) (hroot : c ≠ .root)
    (hcurrent : c ≠ .current) : Component.ofSegment? c.bytes = some c := by
  cases c with
  | root => exact absurd rfl hroot
  | current => exact absurd rfl hcurrent
  | parent => rfl
  | name s =>
    obtain ⟨hempty, hdot, hdots, -⟩ := h
    rw [Component.bytes, Component.ofSegment?, if_neg hempty, if_neg hdot, if_neg hdots]

theorem Component.WellFormed.slash_not_mem {c : Component} (h : c.WellFormed)
    (hroot : c ≠ .root) : slash ∉ c.bytes := by
  cases c with
  | root => exact absurd rfl hroot
  | current | parent => decide
  | name s => exact h.2.2.2

theorem Component.WellFormed.bytes_ne {c : Component} (h : c.WellFormed) (hroot : c ≠ .root)
    (hcurrent : c ≠ .current) : c.bytes ≠ [] ∧ c.bytes ≠ [dot] := by
  cases c with
  | root => exact absurd rfl hroot
  | current => exact absurd rfl hcurrent
  | parent => decide
  | name s => exact ⟨h.1, h.2.1⟩

theorem isAbsolute_joinSegments {s : Bytes} (hne : s ≠ []) (hslash : slash ∉ s) (ss : List Bytes) :
    Path.isAbsolute ⟨joinSegments (s :: ss)⟩ = false := by
  match s, hne with
  | b :: r, _ =>
    have hb : b ≠ slash := fun e => hslash (e ▸ List.mem_cons_self)
    have hhead : (joinSegments ((b :: r) :: ss)).head? = some b := by
      cases ss <;> rfl
    rw [isAbsolute, hhead]
    simpa using hb

section Spelling

variable {cs : List Component} (h : ∀ c ∈ cs, c.WellFormed ∧ c ≠ .root ∧ c ≠ .current)
include h

/-- The spelling of a step up or a name stands alone between slashes. -/
theorem forall_bytes : ∀ s ∈ cs.map Component.bytes, (s ≠ [] ∧ s ≠ [dot]) ∧ slash ∉ s := by
  refine List.forall_mem_map.mpr fun c hc => ?_
  obtain ⟨hwell, hroot, hcurrent⟩ := h c hc
  exact ⟨hwell.bytes_ne hroot hcurrent, hwell.slash_not_mem hroot⟩

theorem segments_spelled (hne : cs ≠ []) :
    segments (joinSegments (cs.map Component.bytes)) = cs.map Component.bytes :=
  segments_joinSegments (by simpa using hne) fun s hs => (forall_bytes h s hs).2

theorem filterMap_segments :
    (segments (joinSegments (cs.map Component.bytes))).filterMap Component.ofSegment? = cs := by
  by_cases hne : cs = []
  · rw [hne]
    rfl
  · have hall : ∀ c ∈ cs, (Component.ofSegment? ∘ Component.bytes) c = some c := fun c hc =>
      ofSegment?_bytes (h c hc).1 (h c hc).2.1 (h c hc).2.2
    rw [segments_spelled h hne, List.filterMap_map, List.filterMap_congr hall,
      List.filterMap_some]

theorem ofComponents_relative : ofComponents cs = ⟨joinSegments (cs.map Component.bytes)⟩ := by
  unfold ofComponents
  split
  · exact absurd rfl (h _ List.mem_cons_self).2.1
  · rfl

/-- Steps up and names are read from their plainest spelling. -/
theorem components_joinSegments : components ⟨joinSegments (cs.map Component.bytes)⟩ = cs := by
  unfold components
  dsimp only
  by_cases hne : cs = []
  · rw [hne]
    rfl
  · obtain ⟨c, rest, rfl⟩ := List.exists_cons_of_ne_nil hne
    obtain ⟨⟨hempty, hdot⟩, hslash⟩ := forall_bytes h c.bytes List.mem_cons_self
    have habs : isAbsolute ⟨joinSegments ((c :: rest).map Component.bytes)⟩ = false :=
      isAbsolute_joinSegments hempty hslash _
    have hhead : (segments (joinSegments ((c :: rest).map Component.bytes))).head? ≠
        some [dot] := by
      rw [segments_spelled h hne]
      simpa using hdot
    rw [habs, if_neg Bool.false_ne_true, if_neg hhead, filterMap_segments h]

end Spelling

theorem Folded.cases_root {cs : List Component} (h : Folded cs.reverse) :
    (∃ names, cs = .root :: names ∧ ∀ c ∈ names, c ≠ .root ∧ c ≠ .current) ∨
      ∀ c ∈ cs, c ≠ .root ∧ c ≠ .current := by
  generalize hr : cs.reverse = steps at h
  induction h generalizing cs with
  | root =>
    rw [List.reverse_eq_iff] at hr
    exact .inl ⟨[], hr, fun _ h => nomatch h⟩
  | climb n =>
    rw [List.reverse_eq_iff, List.reverse_replicate] at hr
    refine .inr fun c hc => ?_
    rw [hr] at hc
    rw [List.eq_of_mem_replicate hc]
    simp
  | @name steps s _ ih =>
    rw [List.reverse_eq_iff, List.reverse_cons] at hr
    have hname : ∀ c ∈ [Component.name s], c ≠ .root ∧ c ≠ .current := by simp
    rcases @ih steps.reverse (List.reverse_reverse _) with ⟨names, hcs, hnames⟩ | hall
    · refine .inl ⟨names ++ [.name s], by rw [hr, hcs, List.cons_append], fun c hc => ?_⟩
      exact (List.mem_append.mp hc).elim (hnames c) (hname c)
    · refine .inr fun c hc => ?_
      rw [hr] at hc
      exact (List.mem_append.mp hc).elim (hall c) (hname c)

/-- Folded steps are read from their plainest spelling. -/
theorem components_ofComponents {cs : List Component} (hcs : ∀ c ∈ cs, c.WellFormed)
    (h : Folded cs.reverse) : (ofComponents cs).components = cs := by
  rcases h.cases_root with ⟨names, rfl, hnames⟩ | hall
  · have hfilter := filterMap_segments fun c hc =>
      And.intro (hcs c (List.mem_cons_of_mem _ hc)) (hnames c hc)
    rw [ofComponents, components]
    simp only [isAbsolute, List.head?_cons, BEq.rfl, if_true]
    rw [segments, if_pos rfl, List.filterMap_cons]
    simp only [Component.ofSegment?, if_true]
    exact congrArg _ hfilter
  · have hsteps := fun c hc => And.intro (hcs c hc) (hall c hc)
    rw [ofComponents_relative hsteps, components_joinSegments hsteps]

/-- The steps of a folded path are its folded steps. -/
theorem components_normalize (p : Path) : (normalize p).components = fold p.components :=
  components_ofComponents (fun _ hc => wellFormed_of_mem_components (mem_fold hc)) (folded_fold p)

/-- Folding a path twice is folding it once. -/
theorem normalize_normalize (p : Path) : normalize (normalize p) = normalize p := by
  rw [normalize, components_normalize, (folded_fold p).fold, ← normalize]

/-! ### The root -/

theorem root_mem_foldStep {steps : List Component} (h : .root ∈ steps) (c : Component) :
    .root ∈ foldStep steps c := by
  unfold foldStep
  split
  · exact h
  · simpa using h
  · exact h
  · exact List.mem_cons_of_mem _ h

theorem root_mem_foldl : ∀ (cs : List Component) {steps : List Component}, .root ∈ steps →
    .root ∈ cs.foldl foldStep steps
  | [], _, h => h
  | c :: cs, _, h => root_mem_foldl cs (root_mem_foldStep h c)

/-- Folding a path that starts at the root gives one that does. -/
theorem isAbsolute_normalize {p : Path} (h : p.isAbsolute = true) :
    p.normalize.isAbsolute = true := by
  obtain ⟨front, steps, hcs, hfront, -⟩ := components_eq p
  rw [if_pos h] at hfront
  have hmem : Component.root ∈ fold p.components := by
    rw [hcs, hfront, fold, List.mem_reverse]
    exact root_mem_foldl steps List.mem_cons_self
  rcases (folded_fold p).cases_root with ⟨names, hnames, -⟩ | hnone
  · rw [normalize, hnames]
    rfl
  · exact absurd rfl (hnone _ hmem).1

end StubLoader.Path
