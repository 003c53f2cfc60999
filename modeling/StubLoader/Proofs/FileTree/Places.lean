import StubLoader.FileTree
import StubLoader.Proofs.Json.Reading
import StubLoader.Proofs.Path.Names
/-!
# Places in file trees

Wherever a path leads in a tree, the place is the one that its components name, whatever else the
tree holds. A path that leads somewhere still leads there when the tree has grown; so what is made
or written at one place leaves alone what other paths lead to.
-/

namespace StubLoader.FileTree

/-! ### Where paths lead -/

/-- Where a component leads from a place. -/
def land (place : Place) : Path.Component → Place
  | .root => []
  | .current => place
  | .parent => place.dropLast
  | .name s => place ++ [s]

/-- The place that the components of a path name. -/
def placed (cwd p : Path) : Place := p.components.foldl land (placeOf cwd)

theorem checkDirectory_eq_ok_iff {t : FileTree} {place : Place} :
    t.checkDirectory place = .ok () ↔ t.node? place = some .directory := by
  unfold checkDirectory
  split
  · next h => simp [h]
  · next h => simp [h]
  · next h => simp [h]
  · next h => simp [h]

/-- Where a segment leads from a place. -/
def landing (place : Place) (s : Bytes) : Place :=
  (Path.Component.ofSegment? s).elim place (land place)

theorem ofSegment?_idle {s : Bytes} (h : Path.isIdle s = true) :
    Path.Component.ofSegment? s = none := by
  simp only [Path.isIdle, Bool.or_eq_true, decide_eq_true_eq] at h
  rcases h with rfl | rfl <;> rfl

theorem ofSegment?_name {s : Bytes} (hidle : ¬Path.isIdle s = true)
    (hdots : s ≠ [Path.dot, Path.dot]) : Path.Component.ofSegment? s = some (.name s) := by
  simp only [Path.isIdle, Bool.or_eq_true, decide_eq_true_eq, not_or] at hidle
  rw [Path.Component.ofSegment?, if_neg hidle.1, if_neg hidle.2, if_neg hdots]

theorem step_eq (t : FileTree) (place : Place) (s : Bytes) :
    t.step place s = match t.checkDirectory place with
      | .error e => .error e
      | .ok _ =>
        if Path.isIdle s then .ok place
        else if s = [Path.dot, Path.dot] then .ok place.dropLast
        else if maxName < s.length then .error .tooLong
        else if (t.node? (place ++ [s])).isSome then .ok (place ++ [s])
        else .error .noEntry := by
  unfold step
  cases t.checkDirectory place with
  | error e => rfl
  | ok _ =>
    simp only [bind, Except.bind, pure, Except.pure]
    split_ifs <;> rfl

/-- A step starts from a directory, and one to a name ends at something. -/
theorem step_eq_ok_iff {t : FileTree} {place place' : Place} {s : Bytes} :
    t.step place s = .ok place' ↔ t.node? place = some .directory ∧ place' = landing place s ∧
      (Path.Component.ofSegment? s = some (.name s) →
        s.length ≤ maxName ∧ (t.node? place').isSome) := by
  rw [step_eq, landing, ← checkDirectory_eq_ok_iff]
  cases t.checkDirectory place with
  | error e => simp
  | ok _ =>
    by_cases hidle : Path.isIdle s = true
    · simpa [hidle, ofSegment?_idle hidle] using eq_comm
    by_cases hdots : s = [Path.dot, Path.dot]
    · have hparent : Path.Component.ofSegment? s = some .parent := by rw [hdots]; rfl
      rw [if_neg hidle, if_pos hdots, hparent]
      simpa [land] using eq_comm
    · simp only [if_neg hidle, if_neg hdots, ofSegment?_name hidle hdots, Option.elim_some, land,
        true_and, forall_const, ← Nat.not_lt]
      split_ifs with hlong hsome
      · simp [hlong]
      · constructor
        · rintro h
          cases h
          exact ⟨rfl, hlong, hsome⟩
        · rintro ⟨rfl, -, -⟩
          rfl
      · refine iff_of_false (fun h => nomatch h) ?_
        rintro ⟨rfl, -, h⟩
        exact hsome h

/-! ### Growing -/

theorem lookup_filter_ne (place place' : Place) : ∀ nodes : List (Place × Node),
    (nodes.filter (·.1 ≠ place)).lookup place' =
      if place' = place then none else nodes.lookup place'
  | [] => by simp
  | (p, n) :: nodes => by
    rw [List.filter_cons]
    have ih := lookup_filter_ne place place' nodes
    by_cases hp : p = place
    · subst hp
      rw [if_neg (by simp), ih, List.lookup_cons]
      split_ifs with h
      · rfl
      · rw [beq_eq_false_iff_ne.mpr h]
    · rw [if_pos (by simpa using hp), List.lookup_cons, List.lookup_cons, ih]
      by_cases h : place' = p
      · subst h
        simp [hp]
      · rw [beq_eq_false_iff_ne.mpr h]

/-- What is at places after something was put at one of them. -/
theorem node?_put (t : FileTree) (place : Place) (node : Node) (place' : Place) :
    (t.put place node).node? place' = if place' = [] then some .directory
      else if place' = place then some node else t.node? place' := by
  unfold put node?
  by_cases hroot : place' = []
  · rw [if_pos hroot, if_pos hroot]
  rw [if_neg hroot, if_neg hroot, List.lookup_cons, lookup_filter_ne]
  split_ifs with h
  · rw [beq_iff_eq.mpr h]
  · rw [beq_eq_false_iff_ne.mpr h]

/-- Directories are still there, and where there was something there still is. -/
structure Grows (t t' : FileTree) : Prop where
  directory : ∀ place, t.node? place = some .directory → t'.node? place = some .directory
  isSome : ∀ place, (t.node? place).isSome → (t'.node? place).isSome

section Grows

variable {t t' : FileTree} (h : t.Grows t')
include h

theorem Grows.step {place place' : Place} {s : Bytes} (hstep : t.step place s = .ok place') :
    t'.step place s = .ok place' := by
  obtain ⟨hdirectory, hplace, hname⟩ := step_eq_ok_iff.mp hstep
  exact step_eq_ok_iff.mpr ⟨h.directory _ hdirectory, hplace, fun hs =>
    ⟨(hname hs).1, h.isSome _ (hname hs).2⟩⟩

theorem Grows.foldlM : ∀ {ss : List Bytes} {place place' : Place},
    ss.foldlM t.step place = .ok place' → ss.foldlM t'.step place = .ok place'
  | [], _, _, hfold => hfold
  | s :: ss, place, _, hfold => by
    rw [List.foldlM_cons] at hfold ⊢
    obtain ⟨next, hstep, hfold⟩ := Json.bind_eq_ok hfold
    rw [h.step hstep]
    exact Grows.foldlM hfold

theorem Grows.resolve {cwd p : Path} {place : Place} (hresolve : t.resolve cwd p = .ok place) :
    t'.resolve cwd p = .ok place := by
  obtain ⟨⟨⟩, hcheck, hfold⟩ := Json.bind_eq_ok hresolve
  rw [FileTree.resolve, hcheck]
  exact h.foldlM hfold

end Grows

/-- Putting something where there is no directory lets a tree grow. -/
theorem grows_put {t : FileTree} {place : Place} (h : t.node? place ≠ some .directory)
    (node : Node) : t.Grows (t.put place node) := by
  refine ⟨fun place' hdirectory => ?_, fun place' hsome => ?_⟩
  · rw [node?_put]
    split_ifs with hroot heq
    · rfl
    · exact absurd (heq ▸ hdirectory) h
    · exact hdirectory
  · rw [node?_put]
    split_ifs
    · rfl
    · rfl
    · exact hsome

/-! ### Places and components -/

theorem foldlM_step_eq_ok {t : FileTree} : ∀ {ss : List Bytes} {place place' : Place},
    ss.foldlM t.step place = .ok place' →
      place' = (ss.filterMap Path.Component.ofSegment?).foldl land place
  | [], _, _, h => by cases h; rfl
  | s :: ss, place, _, h => by
    rw [List.foldlM_cons] at h
    obtain ⟨next, hstep, h⟩ := Json.bind_eq_ok h
    obtain ⟨-, rfl, -⟩ := step_eq_ok_iff.mp hstep
    rw [foldlM_step_eq_ok h, landing]
    cases hs : Path.Component.ofSegment? s with
    | none => rw [List.filterMap_cons_none hs]; rfl
    | some c => rw [List.filterMap_cons_some hs]; rfl

/-- A path leads to the place that its components name, if it leads anywhere. -/
theorem resolve_eq_ok {t : FileTree} {cwd p : Path} {place : Place}
    (h : t.resolve cwd p = .ok place) : place = placed cwd p := by
  obtain ⟨⟨⟩, -, hfold⟩ := Json.bind_eq_ok h
  rw [foldlM_step_eq_ok hfold, placed, Path.components, origin]
  split_ifs <;> rfl

theorem foldl_land_named (place : Place) (names : List String) :
    (Path.named names).foldl land place = place ++ names.map Utf8.ofString := by
  induction names generalizing place with
  | nil => exact (List.append_nil place).symm
  | cons name names ih =>
    rw [List.map_cons, List.append_cons]
    exact ih (place ++ [Utf8.ofString name])

/-- Different names below one directory lead to different places. -/
theorem placed_ne {cwd p q : Path} {d : List Path.Component} {names names' : List String}
    (hp : p.components = d ++ Path.named names) (hq : q.components = d ++ Path.named names')
    (hne : names ≠ names') : placed cwd p ≠ placed cwd q := by
  rw [placed, placed, hp, hq, List.foldl_append, List.foldl_append, foldl_land_named,
    foldl_land_named]
  intro heq
  exact hne (List.map_injective_iff.mpr (fun _ _ => Utf8.ofString_inj)
    (List.append_cancel_left heq))

end StubLoader.FileTree
