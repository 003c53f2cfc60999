import Mathlib.Data.List.TakeWhile
import StubLoader.Proofs.Path.Canonical
/-!
# Paths seen from the root

Seen from the root, a path keeps its steps up, two slashes in front and one at the end; folding
leaves none of these. What comes out is the path joined to the current directory and folded, in a
spelling that is the same from every directory:

    cwd, p    ↦    /d₁/…/dₖ

Anchoring joins one step after the other, and leaves out a step in place that comes first. Still it
takes the steps that joining the path at once takes, and folding looks at nothing else.
-/

namespace StubLoader.Path

/-! ### Steps -/

theorem components_of_absolute {p : Path} (h : p.isAbsolute = true) :
    p.components = .root :: p.steps := by
  unfold components
  dsimp only
  rw [if_pos h]
  rfl

theorem bytes_ne_of_absolute {p : Path} (h : p.isAbsolute = true) : p.bytes ≠ [] := by
  intro hempty
  rw [isAbsolute, hempty] at h
  cases h

/-- Without the step in place that may begin it, a relative path is the steps that it adds to a
directory. -/
theorem dropWhile_components {p : Path} (h : p.isAbsolute = false) :
    p.components.dropWhile (· == .current) = p.steps := by
  have hsteps : p.steps.dropWhile (· == .current) = p.steps := by
    refine List.dropWhile_eq_self_iff.mpr fun hlength => ?_
    simpa using (forall_steps p _ (List.getElem_mem hlength)).2.2
  unfold components
  dsimp only
  rw [if_neg (by simp [h])]
  split_ifs
  · rw [List.dropWhile_cons_of_pos (by simp)]
    exact hsteps
  · exact hsteps

/-- Steps that are joined one by one come after those of the directory. -/
theorem components_foldl_push {a : Path} (ha : a.bytes ≠ []) {cs : List Component}
    (h : ∀ c ∈ cs, c.WellFormed ∧ c ≠ .root ∧ c ≠ .current) :
    (cs.foldl push a).components = a.components ++ cs := by
  have hread : (cs.map Component.bytes).filterMap Component.ofSegment? = cs := by
    rw [List.filterMap_map, List.filterMap_congr (g := some), List.filterMap_some]
    exact fun c hc => ofSegment?_bytes (h c hc).1 (h c hc).2.1 (h c hc).2.2
  have hjoined := components_foldl_join ha fun s hs => (forall_bytes h s hs).2
  rwa [List.foldl_map, hread] at hjoined

/-! ### Anchoring -/

/-- A slash at the end, if one is put there, adds no step to a path that has some. -/
theorem components_trailing {a : Path} (h : a.components ≠ []) (c : Prop) [Decidable c] :
    (if c then a.join ⟨[]⟩ else a).components = a.components := by
  split_ifs
  · have ha : a.bytes ≠ [] := by
      intro hempty
      obtain rfl : a = ⟨[]⟩ := congrArg Path.mk hempty
      exact h rfl
    rw [components_join ha rfl]
    exact List.append_nil _
  · rfl

/-- A path that starts at the root keeps its steps when it is anchored, wherever that is done. -/
theorem components_anchor_of_absolute {p : Path} (h : p.isAbsolute = true) (cwd : Path) :
    (anchor cwd p).components = p.components := by
  have hsteps : p.components.dropWhile (· == .current) = .root :: p.steps := by
    rw [components_of_absolute h, List.dropWhile_cons_of_neg (by decide)]
  have hpushed {root : Path} (hroot : root.bytes ≠ []) (hone : root.components = [.root]) :
      (p.steps.foldl push root).components = p.components := by
    rw [components_foldl_push hroot (forall_steps p), hone, components_of_absolute h]
    rfl
  have hanchored : (if p.hasDoubleRoot then p.steps.foldl push ⟨[slash, slash]⟩
      else p.steps.foldl push ⟨[slash]⟩).components = p.components := by
    split_ifs
    · exact hpushed (by decide) (by decide)
    · exact hpushed (by decide) (by decide)
  unfold anchor
  dsimp only
  rw [hsteps, if_pos h, List.tail_cons, List.foldl_cons,
    show push ⟨[]⟩ .root = ⟨[slash]⟩ from rfl, components_trailing, hanchored]
  rw [hanchored, components_of_absolute h]
  exact List.cons_ne_nil _ _

theorem hasDoubleRoot_of_relative {p : Path} (h : p.isAbsolute = false) :
    p.hasDoubleRoot = false := by
  obtain ⟨_ | ⟨b, bytes⟩⟩ := p
  · rfl
  · have hb : slash ≠ b := by
      rintro rfl
      cases h
    simp [hasDoubleRoot, hb]

/-- Anchoring a path takes the same steps as joining it to the current directory. -/
theorem components_anchor {cwd : Path} (hcwd : cwd.isAbsolute = true) (p : Path) :
    (anchor cwd p).components = (cwd.join p).components := by
  cases h : p.isAbsolute with
  | true =>
    rw [components_anchor_of_absolute h, join, h]
    rfl
  | false =>
    have hbytes := bytes_ne_of_absolute hcwd
    have hpushed := components_foldl_push hbytes (forall_steps p)
    unfold anchor
    dsimp only
    rw [dropWhile_components h, hasDoubleRoot_of_relative h, h, components_join hbytes h, ← hpushed]
    refine components_trailing ?_ _
    simp only [Bool.false_eq_true, if_false]
    rw [hpushed, components_of_absolute hcwd]
    exact List.cons_ne_nil _ _

/-! ### Absolutizing -/

/-- A path in its canonical spelling from the root on. -/
structure Rooted (p : Path) : Prop extends Canonical p where
  absolute : p.isAbsolute = true
  /-- No step up is written. -/
  noDots : [dot, dot] ∉ segments p.bytes

theorem rooted_normalize {p : Path} (h : p.isAbsolute = true) : Rooted p.normalize := by
  have habsolute := isAbsolute_normalize h
  have hcanonical := canonical_normalize p
  refine ⟨hcanonical, habsolute, fun hdots => ?_⟩
  obtain ⟨n, names, hcomponents⟩ := hcanonical.climbs
  have hparent : Component.parent ∈ p.normalize.steps :=
    List.mem_filterMap.mpr ⟨_, hdots, by decide⟩
  rw [components_of_absolute habsolute, if_pos habsolute] at hcomponents
  rw [List.cons_injective hcomponents] at hparent
  simp at hparent

/-- Only the empty path has no place. -/
theorem absolutize?_eq_none {cwd p : Path} : absolutize? cwd p = none ↔ p.isEmpty = true := by
  unfold absolutize?
  split_ifs with h <;> simp [h]

theorem absolutize?_eq {cwd p : Path} (hcwd : cwd.isAbsolute = true) (hp : p.isEmpty = false) :
    absolutize? cwd p = some (cwd.join p).normalize := by
  rw [absolutize?, hp, normalize, components_anchor hcwd, ← normalize]
  rfl

/-- A path that starts at the root has the same place seen from everywhere. -/
theorem absolutize?_of_absolute {p : Path} (h : p.isAbsolute = true) (cwd : Path) :
    absolutize? cwd p = some p.normalize := by
  have hp : p.isEmpty = false := by
    obtain ⟨_ | _⟩ := p
    · cases h
    · rfl
  rw [absolutize?, hp, normalize, components_anchor_of_absolute h, ← normalize]
  rfl

theorem isAbsolute_join {a : Path} (ha : a.isAbsolute = true) (b : Path) :
    (a.join b).isAbsolute = true := by
  rw [← root_mem_components]
  cases h : b.isAbsolute with
  | true =>
    rw [join, h]
    exact root_mem_components.mpr h
  | false =>
    rw [components_join (bytes_ne_of_absolute ha) h]
    exact List.mem_append_left _ (root_mem_components.mpr ha)

/-- Seen from an absolute current directory, only the empty path has no place. The place of every
other path is that of the path joined to the directory and folded; it is spelled canonically from
the root on, and its own place from everywhere. A path that starts at the root does not depend on
the current directory at all. -/
theorem absolutize_joins_and_folds (cwd p : Path) (hcwd : cwd.isAbsolute = true) :
    (absolutize? cwd p = none ↔ p.isEmpty = true) ∧
    (p.isEmpty = false → absolutize? cwd p = some (cwd.join p).normalize) ∧
    (∀ q, absolutize? cwd p = some q → Rooted q ∧ ∀ cwd', absolutize? cwd' q = some q) ∧
    (p.isAbsolute = true → ∀ cwd', absolutize? cwd' p = absolutize? cwd p) := by
  refine ⟨absolutize?_eq_none, absolutize?_eq hcwd, fun q hq => ?_, fun hp cwd' => ?_⟩
  · have hempty : p.isEmpty = false := by
      rw [← Bool.not_eq_true, ← @absolutize?_eq_none cwd, hq]
      exact Option.some_ne_none q
    rw [absolutize?_eq hcwd hempty, Option.some_inj] at hq
    have hrooted := hq ▸ rooted_normalize (isAbsolute_join hcwd p)
    refine ⟨hrooted, fun cwd' => ?_⟩
    rw [absolutize?_of_absolute hrooted.absolute, ← hq, normalize_normalize]
  · rw [absolutize?_of_absolute hp, absolutize?_of_absolute hp]

/-- Seen from `/a//b/`, two slashes, steps in place and up, and a slash at the end are all
folded. -/
theorem absolutize_joins_and_folds_sample :
    absolutize? (.ofString "/a//b/") (.ofString "./../.././../c//d/./") = some (.ofString "/c/d") ∧
      absolutize? (.ofString "/a//b/") (.ofString "//c/../") = some (.ofString "/") ∧
      Rooted (.ofString "/c/d") := by
  have hcwd : (ofString "/a//b/").isAbsolute = true := by decide
  obtain ⟨-, hjoined, hrooted, -⟩ :=
    absolutize_joins_and_folds (.ofString "/a//b/") (.ofString "./../.././../c//d/./") hcwd
  obtain ⟨-, hroot, -⟩ := absolutize_joins_and_folds (.ofString "/a//b/") (.ofString "//c/../") hcwd
  have hplace : absolutize? (.ofString "/a//b/") (.ofString "./../.././../c//d/./") =
      some (.ofString "/c/d") := (hjoined (by decide)).trans (by decide +kernel)
  exact ⟨hplace, (hroot (by decide)).trans (by decide +kernel), (hrooted _ hplace).1⟩

end StubLoader.Path
