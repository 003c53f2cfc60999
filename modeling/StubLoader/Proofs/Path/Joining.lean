import StubLoader.Output
import StubLoader.Proofs.Path.Normal
import StubLoader.Proofs.Text.Utf8
/-!
# Joined paths

The steps of a joined path are those of the directory and then those of what was joined to it. So a
slash-separated text leads to the same place below every directory, and names that are joined one by
one are the last steps to it.
-/

namespace StubLoader.Path

theorem segments_append (x y : Bytes) : segments (x ++ slash :: y) = segments x ++ segments y := by
  induction x with
  | nil => simp [segments]
  | cons b x ih =>
    rw [List.cons_append, segments, segments]
    split
    · rw [ih]; rfl
    · rw [ih]
      cases hx : segments x with
      | nil => exact absurd hx (segments_ne_nil x)
      | cons s ss => rfl

/-- The steps that a path adds to a directory it is joined to. -/
def steps (p : Path) : List Component := (segments p.bytes).filterMap Component.ofSegment?

/-- They are steps up and names. -/
theorem forall_steps (p : Path) : ∀ c ∈ p.steps, c.WellFormed ∧ c ≠ .root ∧ c ≠ .current := by
  intro c hc
  obtain ⟨s, hs, hc⟩ := List.mem_filterMap.mp hc
  refine ⟨wellFormed_of_ofSegment? (slash_not_mem_segments s hs) hc, ne_root_of_ofSegment? hc, ?_⟩
  unfold Component.ofSegment? at hc
  split_ifs at hc <;> cases hc <;> exact Component.noConfusion

theorem steps_append (x y : Bytes) : steps ⟨x ++ slash :: y⟩ = steps ⟨x⟩ ++ steps ⟨y⟩ := by
  rw [steps, segments_append, List.filterMap_append, steps, steps]

theorem components_append {x : Bytes} (hx : x ≠ []) (y : Bytes) :
    components ⟨x ++ slash :: y⟩ = components ⟨x⟩ ++ steps ⟨y⟩ := by
  have habs : isAbsolute ⟨x ++ slash :: y⟩ = isAbsolute ⟨x⟩ := by
    cases x with
    | nil => exact absurd rfl hx
    | cons b x => rfl
  have hhead : (segments (x ++ slash :: y)).head? = (segments x).head? := by
    rw [segments_append, List.head?_append]
    cases hsegments : segments x with
    | nil => exact absurd hsegments (segments_ne_nil x)
    | cons s ss => rfl
  have hsteps : (segments (x ++ slash :: y)).filterMap Component.ofSegment? =
      (segments x).filterMap Component.ofSegment? ++ steps ⟨y⟩ := steps_append x y
  unfold components
  dsimp only
  rw [habs, hhead, hsteps]
  split_ifs <;> rfl

/-- A trailing slash adds no step. -/
theorem components_slash {x : Bytes} (hx : x ≠ []) : components ⟨x ++ [slash]⟩ = components ⟨x⟩ :=
  (components_append hx []).trans (List.append_nil _)

/-- The steps of a relative path come after those of the directory. -/
theorem components_join {a b : Path} (ha : a.bytes ≠ []) (hb : b.isAbsolute = false) :
    (a.join b).components = a.components ++ b.steps := by
  obtain ⟨x, c, hx⟩ : ∃ x c, a.bytes = x ++ [c] :=
    ⟨_, a.bytes.getLast ha, (List.dropLast_append_getLast ha).symm⟩
  have hjoin : a.join b =
      if c = slash then ⟨a.bytes ++ b.bytes⟩ else ⟨a.bytes ++ slash :: b.bytes⟩ := by
    rw [join, hb, hx, List.getLast?_concat]
    rfl
  rw [hjoin]
  split_ifs with hc
  · obtain ⟨bytes⟩ := a
    subst hc hx
    rw [List.append_assoc]
    by_cases hempty : x = []
    · -- the directory is the root
      subst hempty
      simp [components, isAbsolute, segments, steps, Component.ofSegment?]
    · rw [components_slash hempty]
      exact components_append hempty b.bytes
  · exact components_append ha b.bytes

theorem bytes_join_ne {a b : Path} (ha : a.bytes ≠ []) (hb : b.isAbsolute = false) :
    (a.join b).bytes ≠ [] := by
  unfold join
  rw [hb]
  simp only [Bool.false_eq_true, if_false]
  split
  · next h => exact absurd (List.getLast?_eq_none_iff.mp h) ha
  · split_ifs
    · exact List.append_ne_nil_of_left_ne_nil ha _
    · exact List.append_ne_nil_of_left_ne_nil ha _

theorem isAbsolute_segment {s : Bytes} (h : slash ∉ s) : isAbsolute ⟨s⟩ = false := by
  cases s with
  | nil => rfl
  | cons b s =>
    simp only [List.mem_cons, not_or] at h
    exact beq_eq_false_iff_ne.mpr fun heq => h.1 (Option.some_inj.mp heq).symm

/-- Joining segments one by one adds their steps one by one. -/
theorem components_foldl_join : ∀ {ss : List Bytes} {a : Path}, a.bytes ≠ [] →
    (∀ s ∈ ss, slash ∉ s) → (ss.foldl (fun p s => p.join ⟨s⟩) a).components =
      a.components ++ ss.filterMap Component.ofSegment?
  | [], a, _, _ => (List.append_nil _).symm
  | s :: ss, a, ha, hss => by
    obtain ⟨hs, hss⟩ := List.forall_mem_cons.mp hss
    have hrelative := isAbsolute_segment hs
    rw [List.foldl_cons, components_foldl_join (bytes_join_ne ha hrelative) hss,
      components_join ha hrelative, List.append_assoc, steps, segments_of_not_mem hs,
      ← List.filterMap_append]
    rfl

/-- The place of a generated file is found by the same steps from every directory. -/
theorem components_locate {w : Path} (hw : w.bytes ≠ []) (relative : String) :
    (Output.locate w relative).components = w.components ++ (ofString relative).steps :=
  components_foldl_join hw slash_not_mem_segments

/-! ### Names -/

theorem ofSegment?_of_wellFormed {s : Bytes} (h : (Component.name s).WellFormed) :
    Component.ofSegment? s = some (.name s) := by
  obtain ⟨hempty, hdot, hdots, -⟩ := h
  rw [Component.ofSegment?, if_neg hempty, if_neg hdot, if_neg hdots]

theorem steps_name {s : Bytes} (h : (Component.name s).WellFormed) : steps ⟨s⟩ = [.name s] := by
  rw [steps, segments_of_not_mem h.2.2.2, List.filterMap_cons, ofSegment?_of_wellFormed h]
  rfl

theorem components_join_name (a : Path) {s : Bytes} (h : (Component.name s).WellFormed) :
    (a.join ⟨s⟩).components = a.components ++ [.name s] := by
  have hsteps := steps_name h
  by_cases ha : a.bytes = []
  · have hjoin : a.join ⟨s⟩ = ⟨s⟩ := by
      rw [join, isAbsolute_segment h.2.2.2, ha]
      rfl
    obtain ⟨bytes⟩ := a
    subst ha
    rw [hjoin, components, isAbsolute_segment h.2.2.2, segments_of_not_mem h.2.2.2]
    simp only [List.head?_cons, Option.some_inj, if_neg h.2.1]
    exact (congrArg _ (segments_of_not_mem h.2.2.2)).symm.trans hsteps
  · rw [components_join ha (isAbsolute_segment h.2.2.2), hsteps]

theorem components_foldl_join_names : ∀ {ss : List Bytes} (a : Path),
    (∀ s ∈ ss, (Component.name s).WellFormed) →
      (ss.foldl (fun p s => p.join ⟨s⟩) a).components = a.components ++ ss.map .name
  | [], a, _ => (List.append_nil _).symm
  | s :: ss, a, hss => by
    obtain ⟨hs, hss⟩ := List.forall_mem_cons.mp hss
    rw [List.foldl_cons, components_foldl_join_names _ hss, components_join_name a hs,
      List.append_assoc]
    rfl

end StubLoader.Path
