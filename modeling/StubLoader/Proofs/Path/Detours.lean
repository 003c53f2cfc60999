import Mathlib.Data.List.Induction
import Mathlib.Logic.Relation
import StubLoader.Proofs.Path.Canonical
/-!
# Detours

Whatever leads nowhere can be put between the steps of a path without changing what it is folded to:
a step in place, one slash more, a name and the step up that takes it back, and a step up from the
root. Nothing else is lost: when two paths are folded to one spelling, putting in such detours and
taking them out again leads from one to the other.

    a/../b  ─out─▶  b  ─in─▶  ./b  ─in─▶  .//b

Segments are put behind a path one at a time. What is already folded stays so up to detours, hence
every path is its folded spelling up to detours.
-/

namespace StubLoader.Path

open Relation (EqvGen)

/-! ### What leads nowhere -/

/-- A stretch of a path that leads back to where it begins. -/
inductive Detour : Bytes → Prop where
  | empty : Detour []
  | current : Detour [dot]
  | back {s : Bytes} (h : (Component.name s).WellFormed) : Detour (s ++ [slash, dot, dot])

/-- The second path is the first one with a detour put between its steps, before them or behind
them, or with a step up from the root. -/
inductive Padded : Path → Path → Prop where
  | between {piece : Bytes} (h : Detour piece) (x y : Bytes) :
    Padded ⟨x ++ slash :: y⟩ ⟨x ++ slash :: (piece ++ slash :: y)⟩
  | before {piece y : Bytes} (h : Detour piece) (hpiece : piece ≠ [])
    (hy : isAbsolute ⟨y⟩ = false) : Padded ⟨y⟩ ⟨piece ++ slash :: y⟩
  | behind {piece x : Bytes} (h : Detour piece) (hx : x ≠ []) : Padded ⟨x⟩ ⟨x ++ slash :: piece⟩
  | above (y : Bytes) : Padded ⟨slash :: y⟩ ⟨slash :: dot :: dot :: slash :: y⟩

/-- A detour leaves folded steps as they are. -/
theorem Detour.foldl {piece : Bytes} (h : Detour piece) (done : List Component) :
    (steps ⟨piece⟩).foldl foldStep done = done := by
  cases h with
  | empty | current => rfl
  | @back s h =>
    rw [steps_append s [dot, dot], steps_name h]
    rfl

/-- What is put before a slash comes before all that is put behind it. -/
theorem exists_components_append (x : Bytes) :
    ∃ front, ∀ y, components ⟨x ++ slash :: y⟩ = front ++ steps ⟨y⟩ := by
  by_cases hx : x = []
  · subst hx
    exact ⟨[.root], components_slash_cons⟩
  · exact ⟨components ⟨x⟩, components_append hx⟩

theorem Detour.isAbsolute {piece : Bytes} (h : Detour piece) :
    Path.isAbsolute ⟨piece⟩ = false := by
  cases h with
  | empty | current => rfl
  | @back s h =>
    have hs := isAbsolute_segment h.2.2.2
    cases s with
    | nil => exact absurd rfl h.1
    | cons b s => exact hs

theorem Padded.fold {p q : Path} (h : Padded p q) :
    fold q.components = Path.fold p.components := by
  cases h with
  | between h x y =>
    obtain ⟨front, hfront⟩ := exists_components_append x
    rw [hfront, hfront, steps_append, fold_append, fold_append, List.foldl_append, h.foldl]
  | @before piece y h hpiece hy =>
    rw [components_append hpiece, Path.fold, Path.fold, List.foldl_append,
      foldl_components h.isAbsolute, h.foldl, foldl_components hy]
  | behind h hx => rw [components_append hx, fold_append, h.foldl, List.reverse_reverse]
  | above y =>
    have habove : steps ⟨dot :: dot :: slash :: y⟩ = .parent :: steps ⟨y⟩ :=
      steps_append [dot, dot] y
    rw [components_slash_cons, components_slash_cons, habove]
    rfl

theorem Padded.normalize_eq {p q : Path} (h : Padded p q) : q.normalize = p.normalize := by
  rw [normalize, h.fold, ← normalize]

theorem normalize_eq_of_eqvGen {p q : Path} (h : EqvGen Padded p q) :
    p.normalize = q.normalize := by
  induction h with
  | rel p q h => exact h.normalize_eq.symm
  | refl p => rfl
  | symm p q _ ih => exact ih.symm
  | trans p q r _ _ hpq hqr => exact hpq.trans hqr

/-! ### One segment more -/

/-- The path with a segment behind it. -/
def extend (p : Path) (s : Bytes) : Path :=
  if p.bytes = [] then ⟨s⟩ else ⟨p.bytes ++ slash :: s⟩

theorem extend_nil (s : Bytes) : extend ⟨[]⟩ s = ⟨s⟩ := rfl

theorem extend_of_ne {x : Bytes} (hx : x ≠ []) (s : Bytes) : extend ⟨x⟩ s = ⟨x ++ slash :: s⟩ :=
  if_neg hx

/-- With a segment behind both paths, a detour in one of them is still one. -/
theorem Padded.extend {p q : Path} (h : Padded p q) {s : Bytes} (hs : slash ∉ s) :
    EqvGen Padded (p.extend s) (q.extend s) := by
  cases h with
  | between h x y =>
    rw [extend_of_ne (by simp), extend_of_ne (by simp)]
    simpa using EqvGen.rel _ _ (Padded.between h x (y ++ slash :: s))
  | @before piece y h hpiece hy =>
    rw [extend_of_ne (x := piece ++ slash :: y) (by simp)]
    by_cases hempty : y = []
    · subst hempty
      rw [extend_nil]
      have hslash := Padded.between .empty piece s
      have hbefore := Padded.before h hpiece (isAbsolute_segment hs)
      simpa using EqvGen.trans _ _ _ (.rel _ _ hbefore) (.rel _ _ hslash)
    · have hrelative : isAbsolute ⟨y ++ slash :: s⟩ = false := by
        cases y with
        | nil => exact absurd rfl hempty
        | cons b y => exact hy
      rw [extend_of_ne hempty]
      simpa using EqvGen.rel _ _ (Padded.before h hpiece hrelative)
  | @behind piece x h hx =>
    rw [extend_of_ne hx, extend_of_ne (by simp)]
    simpa using EqvGen.rel _ _ (Padded.between h x s)
  | above y =>
    rw [extend_of_ne (by simp), extend_of_ne (by simp)]
    exact .rel _ _ (Padded.above (y ++ slash :: s))

theorem extend_eqvGen {p q : Path} (h : EqvGen Padded p q) {s : Bytes} (hs : slash ∉ s) :
    EqvGen Padded (p.extend s) (q.extend s) := by
  induction h with
  | rel p q h => exact h.extend hs
  | refl p => exact .refl _
  | symm p q _ ih => exact ih.symm
  | trans p q r _ _ hpq hqr => exact hpq.trans _ _ _ hqr

/-- A detour behind a path can be taken out. -/
theorem extend_detour {piece : Bytes} (h : Detour piece) (p : Path) :
    EqvGen Padded (p.extend piece) p := by
  obtain ⟨x⟩ := p
  by_cases hx : x = []
  · subst hx
    rw [extend_nil]
    by_cases hpiece : piece = []
    · rw [hpiece]
      exact .refl _
    · exact .trans _ _ _ (.rel _ _ (Padded.behind .empty hpiece))
        (.symm _ _ (.rel _ _ (Padded.before h hpiece rfl)))
  · rw [extend_of_ne hx]
    exact .symm _ _ (.rel _ _ (Padded.behind h hx))

/-- A name behind a path and a step up can be taken out. -/
theorem extend_extend_parent {s : Bytes} (h : (Component.name s).WellFormed) (p : Path) :
    EqvGen Padded ((p.extend s).extend [dot, dot]) p := by
  have hback : (p.extend s).extend [dot, dot] = p.extend (s ++ [slash, dot, dot]) := by
    obtain ⟨x⟩ := p
    by_cases hx : x = []
    · subst hx
      rw [extend_nil, extend_nil, extend_of_ne h.1]
    · rw [extend_of_ne hx, extend_of_ne hx, extend_of_ne (by simp)]
      simp
  rw [hback]
  exact extend_detour (.back h) p

/-- A slash more behind the root can be taken out. -/
theorem extend_root (s : Bytes) : EqvGen Padded (extend ⟨[slash]⟩ s) ⟨slash :: s⟩ :=
  .symm _ _ (.rel _ _ (Padded.between .empty [] s))

theorem extend_root_parent : EqvGen Padded (extend ⟨[slash]⟩ [dot, dot]) ⟨[slash]⟩ :=
  calc
    EqvGen Padded (extend ⟨[slash]⟩ [dot, dot]) ⟨[slash, dot, dot]⟩ := extend_root _
    EqvGen Padded _ ⟨[slash, dot, dot, slash]⟩ :=
      .rel _ _ (Padded.behind .empty (x := [slash, dot, dot]) (by simp))
    EqvGen Padded _ ⟨[slash]⟩ := .symm _ _ (.rel _ _ (Padded.above []))

/-! ### Every path is its folded spelling, up to detours -/

theorem Component.WellFormed.bytes_ne_nil {c : Component} (h : c.WellFormed) : c.bytes ≠ [] := by
  cases c with
  | root | current | parent => exact List.cons_ne_nil _ _
  | name s => exact h.1

/-- A step behind the plainest spelling gives that of one step more, up to detours. -/
theorem extend_ofComponents {cs : List Component} (hcs : ∀ c ∈ cs, c.WellFormed) (c : Component) :
    EqvGen Padded ((ofComponents cs).extend c.bytes) (ofComponents (cs ++ [c])) := by
  have hjoin {ds : List Component} (hds : ds ≠ []) :
      joinSegments ((ds ++ [c]).map Component.bytes) =
        joinSegments (ds.map Component.bytes) ++ slash :: c.bytes := by
    rw [List.map_append]
    exact joinSegments_concat (by simpa using hds) _
  cases cs with
  | nil => cases c <;> exact .refl _
  | cons d ds =>
    by_cases hroot : d = .root
    · subst hroot
      rw [List.cons_append, ofComponents, ofComponents]
      by_cases hds : ds = []
      · subst hds
        exact extend_root c.bytes
      · rw [extend_of_ne (by simp), hjoin hds]
        exact .refl _
    · have hspelled (es : List Component) :
          ofComponents (d :: es) = ⟨joinSegments ((d :: es).map Component.bytes)⟩ := by
        cases d with
        | root => exact absurd rfl hroot
        | current | parent | name s => rfl
      have hbytes := (hcs d List.mem_cons_self).bytes_ne_nil
      have hne : joinSegments ((d :: ds).map Component.bytes) ≠ [] := by
        cases ds with
        | nil => exact hbytes
        | cons e es => exact List.append_ne_nil_of_left_ne_nil hbytes _
      rw [List.cons_append, hspelled, hspelled, extend_of_ne hne, ← List.cons_append,
        hjoin (List.cons_ne_nil d ds)]
      exact .refl _

/-- Folded steps, the last one first, that a path takes up to detours. -/
structure Takes (p : Path) (steps : List Component) : Prop where
  folded : Folded steps
  wellFormed : ∀ c ∈ steps, c.WellFormed
  alike : EqvGen Padded p (ofComponents steps.reverse)

/-- One segment more is a step more, a step less or none at all. -/
theorem Takes.extend {p : Path} {steps : List Component} (h : Takes p steps) {s : Bytes}
    (hs : slash ∉ s) : ∃ steps, Takes (p.extend s) steps := by
  have hextended := extend_eqvGen h.alike hs
  have hnext (c : Component) :
      EqvGen Padded ((ofComponents steps.reverse).extend c.bytes)
        (ofComponents (c :: steps).reverse) := by
    rw [List.reverse_cons]
    exact extend_ofComponents (by simpa using h.wellFormed) c
  by_cases hidle : s = [] ∨ s = [dot]
  · have hdetour : Detour s := by
      rcases hidle with rfl | rfl
      · exact .empty
      · exact .current
    exact ⟨steps, h.folded, h.wellFormed, hextended.trans _ _ _ (extend_detour hdetour _)⟩
  rw [not_or] at hidle
  by_cases hdots : s = [dot, dot]
  · subst hdots
    have hwell := h.wellFormed
    cases h.folded with
    | root => exact ⟨[.root], .root, hwell, hextended.trans _ _ _ extend_root_parent⟩
    | climb n =>
      exact ⟨_, .climb (n + 1), fun c hc => List.eq_of_mem_replicate hc ▸ trivial,
        hextended.trans _ _ _ (hnext .parent)⟩
    | @name steps s hfolded =>
      obtain ⟨hname, hwell⟩ := List.forall_mem_cons.mp hwell
      rw [List.reverse_cons] at hextended
      -- the name is put behind the steps before it, and then taken back
      have hname' := @extend_ofComponents steps.reverse (by simpa using hwell) (.name s)
      exact ⟨steps, hfolded, hwell, hextended.trans _ _ _
        ((extend_eqvGen hname'.symm hs).trans _ _ _ (extend_extend_parent hname _))⟩
  · have hname : (Component.name s).WellFormed := ⟨hidle.1, hidle.2, hdots, hs⟩
    exact ⟨.name s :: steps, h.folded.name s, List.forall_mem_cons.mpr ⟨hname, h.wellFormed⟩,
      hextended.trans _ _ _ (hnext (.name s))⟩

/-- Every path takes some folded steps: its segments are put behind it one by one. -/
theorem exists_takes (p : Path) : ∃ steps, Takes p steps := by
  have hempty : Takes ⟨[]⟩ [] := ⟨.climb 0, fun _ hc => absurd hc List.not_mem_nil, .refl _⟩
  have hroot : Takes ⟨[slash]⟩ [.root] :=
    ⟨.root, List.forall_mem_singleton.mpr trivial, .refl _⟩
  have hjoined (ss : List Bytes) (hss : ∀ s ∈ ss, slash ∉ s) :
      ∃ steps, Takes ⟨joinSegments ss⟩ steps := by
    induction ss using List.reverseRecOn with
    | nil => exact ⟨_, hempty⟩
    | append_singleton ss s ih =>
      obtain ⟨hss, hs⟩ := List.forall_mem_append.mp hss
      have hs := hs s List.mem_cons_self
      by_cases hnil : ss = []
      · subst hnil
        exact hempty.extend hs
      rw [joinSegments_concat hnil]
      by_cases hfront : joinSegments ss = []
      · rw [hfront]
        obtain ⟨steps, hfolded, hwell, halike⟩ := hroot.extend hs
        exact ⟨steps, hfolded, hwell, (extend_root s).symm.trans _ _ _ halike⟩
      · obtain ⟨steps, hsteps⟩ := ih hss
        rw [← extend_of_ne hfront]
        exact hsteps.extend hs
  have hp := hjoined (segments p.bytes) slash_not_mem_segments
  rwa [joinSegments_segments] at hp

theorem eqvGen_normalize (p : Path) : EqvGen Padded p p.normalize := by
  obtain ⟨steps, hfolded, hwell, halike⟩ := exists_takes p
  have hcomponents := @components_ofComponents steps.reverse (by simpa using hwell)
    (by simpa using hfolded)
  have hspelled : p.normalize = ofComponents steps.reverse := by
    rw [normalize_eq_of_eqvGen halike, normalize, hcomponents, Folded.fold (by simpa using hfolded)]
  rwa [hspelled]

/-- Two paths are folded to one spelling exactly if detours lead from one to the other. -/
theorem normalize_eq_iff {p q : Path} : p.normalize = q.normalize ↔ EqvGen Padded p q := by
  refine ⟨fun h => ?_, normalize_eq_of_eqvGen⟩
  have hq : EqvGen Padded p.normalize q := h ▸ .symm _ _ (eqvGen_normalize q)
  exact (eqvGen_normalize p).trans _ _ _ hq

/-- Folding gives every path its canonical spelling, which starts at the root exactly if the path
does and is folded to itself. What leads nowhere makes no difference to it, wherever it stands
between steps; nor does it whether a directory is folded before something is joined to it. A path
that is spelled canonically stays as it is, and two paths are folded to one spelling only if detours
lead from one to the other. The steps that are left are steps of the path in their order, and
without steps up they are all but those in place. -/
theorem normalize_spells_canonically :
    (∀ p : Path, Canonical p.normalize ∧ p.normalize.isAbsolute = p.isAbsolute ∧
      p.normalize.normalize = p.normalize) ∧
    (∀ p q : Path, Padded p q → q.normalize = p.normalize) ∧
    (∀ a b : Path, (a.join b).normalize = (a.normalize.join b).normalize) ∧
    (∀ p : Path, Canonical p → p.normalize = p) ∧
    (∀ p q : Path, p.normalize = q.normalize ↔ EqvGen Padded p q) ∧
    ∀ p : Path, p.normalize.components.Sublist p.components ∧
      (.parent ∉ p.components →
        p.normalize.components = p.components.filter (· != .current)) := by
  refine ⟨fun p => ⟨canonical_normalize p, isAbsolute_normalize_eq p, normalize_normalize p⟩,
    fun p q => Padded.normalize_eq, normalize_join, fun p => Canonical.normalize_eq,
    fun p q => normalize_eq_iff, fun p => ?_⟩
  rw [components_normalize]
  exact ⟨fold_sublist _, fold_eq_filter⟩

/-- Only two steps up are left of three when one takes back a name, and the name behind them is
kept: detours lead to it, and to no other. -/
theorem normalize_spells_canonically_winding :
    (ofString "../a/.././/..//b/").normalize = ofString "../../b" ∧
      Canonical (ofString "../../b") ∧
      EqvGen Padded (ofString "../a/.././/..//b/") (ofString "../../b") ∧
      ¬EqvGen Padded (ofString "../a/.././/..//b/") (ofString "../../a") := by
  obtain ⟨hspelled, -, -, hkept, hiff, -⟩ := normalize_spells_canonically
  have hfolded : (ofString "../a/.././/..//b/").normalize = ofString "../../b" := by
    decide +kernel
  have hcanonical : Canonical (ofString "../../b") := hfolded ▸ (hspelled _).1
  refine ⟨hfolded, hcanonical, (hiff _ _).mp ?_, fun h => ?_⟩
  · rw [hfolded, hkept _ hcanonical]
  · have hother := (hiff _ _).mpr h
    rw [hfolded] at hother
    exact absurd hother (by decide +kernel)

end StubLoader.Path
