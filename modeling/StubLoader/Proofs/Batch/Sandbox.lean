import Mathlib.Logic.Function.Basic
import StubLoader.Proofs.Batch.Permits
import StubLoader.Proofs.Path.Joining
/-!
# Sandboxes

A host is sandboxed if every scratch directory that it hands out is a new one, its compiler writes
below the directory that it is told to write to, its removals remove what is below a directory and
nothing else, and its answers are the same whatever the directory is called. `Disk` is what can be
seen of the files of such a host, and `Disk.Laid` says that beside what was there at first the disk
holds the directories that are claimed, apart from each other, and nothing else.
-/

namespace StubLoader

/-! ### The same but for a name -/

/-- A part of a message. -/
inductive Shown where
  | text (said : String)
  /-- The directory of a run. -/
  | directory
  /-- A generated file in it. -/
  | file (relative : String)

/-- The part as it is shown when `w` is the directory of the run. -/
def Shown.fill (w : Path) : Shown → String
  | .text said => said
  | .directory => w.display
  | .file relative => (Output.locate w relative).display

/-- The failures are the same, but where one shows `w` or a file in it the other shows `w'`. -/
def IoError.Alike (w w' : Path) (e e' : IoError) : Prop :=
  e.kind = e'.kind ∧ ∃ parts : List Shown,
    e.text = String.join (parts.map (Shown.fill w)) ∧
    e'.text = String.join (parts.map (Shown.fill w'))

/-- The answers are the same but for the name of a directory in a failure. -/
inductive SameAnswer (w w' : Path) {α : Type} : Except IoError α → Except IoError α → Prop where
  | ok (a : α) : SameAnswer w w' (.ok a) (.ok a)
  | error {e e' : IoError} (h : e.Alike w w' e') : SameAnswer w w' (.error e) (.error e')

/-- The results are the same but for the name of a directory in a failed input or output. -/
inductive SameOutcome (w w' : Path) : Outcome Bytes → Outcome Bytes → Prop where
  | same (result : Outcome Bytes) : SameOutcome w w' result result
  | io {e e' : IoError} (h : e.Alike w w' e') :
    SameOutcome w w' (.error (.io e)) (.error (.io e'))

/-! ### Disks -/

/-- The steps that lead to a file or a directory. -/
abbrev Route := List Path.Component

/-- Neither route goes on from the other. -/
def Route.Apart (a b : Route) : Prop := ¬a <+: b ∧ ¬b <+: a

theorem Route.Apart.symm {a b : Route} (h : Route.Apart a b) : Route.Apart b a := ⟨h.2, h.1⟩

/-- Nothing is below two routes that are apart. -/
theorem Route.Apart.not_under {a b q : Route} (h : Route.Apart a b) (ha : a <+: q) : ¬b <+: q := by
  intro hb
  rcases List.prefix_or_prefix_of_prefix ha hb with hab | hba
  · exact h.1 hab
  · exact h.2 hba

/-- What a directory holds, by the steps from there. -/
abbrev Contents := Route → Option Bytes

/-- Nothing. -/
def Contents.empty : Contents := fun _ => none

/-- What can be seen of the files of a host. -/
structure Disk (σ : Type) where
  /-- Whether the host can be in a state. -/
  valid : σ → Prop
  files : σ → Route → Option Bytes
  /-- Whether there is a scratch directory at a place. -/
  scratch : σ → Route → Prop
  /-- Whether a scratch directory was ever handed out there. -/
  given : σ → Route → Prop

namespace Disk

section Changes

variable {σ : Type} (disk : Disk σ)

/-- What is below a directory. -/
def below (s : σ) (w : Path) : Contents := fun rest => disk.files s (w.components ++ rest)

/-- The directory was handed out and is still there. -/
structure Holds (s : σ) (w : Path) : Prop where
  given : disk.given s w.components
  scratch : disk.scratch s w.components

/-- Nothing has changed. -/
structure Same (s t : σ) : Prop where
  valid : disk.valid t
  files : disk.files t = disk.files s
  scratch : disk.scratch t = disk.scratch s
  given : disk.given t = disk.given s

/-- A directory was made that is empty and apart from all others. -/
structure Created (s : σ) (w : Path) (t : σ) : Prop where
  valid : disk.valid t
  apart : ∀ v, disk.given s v → Route.Apart v w.components
  empty : disk.below s w = .empty
  unused : ∀ d, w.components <+: d → ¬disk.scratch s d
  files : disk.files t = disk.files s
  scratch : ∀ d, disk.scratch t d ↔ disk.scratch s d ∨ d = w.components
  given : ∀ v, disk.given t v ↔ disk.given s v ∨ v = w.components

/-- Files were written below a directory. -/
structure Written (s : σ) (w : Path) (t : σ) : Prop where
  valid : disk.valid t
  files : ∀ q, ¬w.components <+: q → disk.files t q = disk.files s q
  scratch : disk.scratch t = disk.scratch s
  given : disk.given t = disk.given s

/-- A directory was removed with all that was below it. -/
structure Removed (s : σ) (w : Path) (t : σ) : Prop where
  valid : disk.valid t
  empty : disk.below t w = .empty
  files : ∀ q, ¬w.components <+: q → disk.files t q = disk.files s q
  scratch : ∀ d, disk.scratch t d ↔ disk.scratch s d ∧ ¬w.components <+: d
  given : disk.given t = disk.given s

end Changes

end Disk

/-! ### Sandboxed hosts -/

/-- The host answers the call, maybe not the first time that it is asked. -/
def Host.Answered {σ : Type} (host : Host σ) (call : Call) (s : σ) (answer : call.Answer) (t : σ) :
    Prop := ∃ issued, host.ask issued call s = (.now answer, t)

/-- The call that asks for a directory. -/
def Pipeline.creating (p : Pipeline) : Call :=
  .createWorkspace (p.settings.scratchRoot p.temp) p.settings.workspaceLabel

/-- The call that runs a program to write into `w`. -/
def Pipeline.compiling (p : Pipeline) (program plugin source base : Path) (mode : Mode)
    (w : Path) : Call :=
  .runProcess program (Compiler.arguments p.settings.pluginName plugin source base w mode)

/-- What is assumed of a host, as far as the runs of a pipeline call it. -/
structure Host.Sandboxed {σ : Type} (host : Host σ) (p : Pipeline) (disk : Disk σ) : Prop where
  reliable : ∀ {call : Call} {issued : Bool} {s : σ}, disk.valid s →
    (host.ask issued call s).1 ≠ .crash
  waits : ∀ {call : Call} {issued : Bool} {s t : σ}, disk.valid s →
    host.ask issued call s = (.pending, t) → disk.Same s t
  creates : ∀ {s t : σ} {w : Path}, disk.valid s → host.Answered p.creating s (.ok w) t →
    disk.Created s w t
  refuses : ∀ {s t : σ} {e : IoError}, disk.valid s → host.Answered p.creating s (.error e) t →
    disk.Same s t
  finds : ∀ {tool : Path} {s t : σ} {answer : Option Path}, disk.valid s →
    host.Answered (.findExecutable tool) s answer t → disk.Same s t
  compiles : ∀ {program plugin source base w : Path} {mode : Mode} {s t : σ}
    {answer : Except IoError ProcessOutput}, disk.valid s → disk.Holds s w →
    host.Answered (p.compiling program plugin source base mode w) s answer t →
      disk.Written s w t
  loads : ∀ {w : Path} {relative : String} {s t : σ} {answer : Except IoError Bytes},
    disk.valid s → disk.Holds s w →
    host.Answered (.loadFile (Output.locate w relative)) s answer t → disk.Same s t
  removes : ∀ {w : Path} {s t : σ} {answer : Except IoError Unit}, disk.valid s → disk.Holds s w →
    host.Answered (.removeWorkspace w) s answer t → disk.Removed s w t
  /-- Whether a directory is made depends on nothing. -/
  sameCreation : ∀ {s s' t t' : σ} {answer answer' : Except IoError Path},
    disk.valid s → disk.valid s' → host.Answered p.creating s answer t →
    host.Answered p.creating s' answer' t' →
      (∃ w w', answer = .ok w ∧ answer' = .ok w') ∨ ∃ e, answer = .error e ∧ answer' = .error e
  /-- A tool is always found in the same place. -/
  sameTool : ∀ {tool : Path} {s s' t t' : σ} {answer answer' : Option Path},
    disk.valid s → disk.valid s' → host.Answered (.findExecutable tool) s answer t →
    host.Answered (.findExecutable tool) s' answer' t' → answer = answer'
  /-- The compiler does the same in every empty directory. -/
  sameOutput : ∀ {program plugin source base w w' : Path} {mode : Mode} {s s' t t' : σ}
    {answer answer' : Except IoError ProcessOutput}, disk.valid s → disk.valid s' →
    disk.Holds s w → disk.Holds s' w' → disk.below s w = .empty → disk.below s' w' = .empty →
    host.Answered (p.compiling program plugin source base mode w) s answer t →
    host.Answered (p.compiling program plugin source base mode w') s' answer' t' →
      SameAnswer w w' answer answer' ∧ disk.below t w = disk.below t' w'
  /-- Reading a file depends on what is in its directory. -/
  sameFile : ∀ {w w' : Path} {relative : String} {s s' t t' : σ}
    {answer answer' : Except IoError Bytes}, disk.valid s → disk.valid s' →
    disk.Holds s w → disk.Holds s' w' → disk.below s w = disk.below s' w' →
    host.Answered (.loadFile (Output.locate w relative)) s answer t →
    host.Answered (.loadFile (Output.locate w' relative)) s' answer' t' →
      SameAnswer w w' answer answer'
  /-- So does a removal. -/
  sameRemoval : ∀ {w w' : Path} {s s' t t' : σ} {answer answer' : Except IoError Unit},
    disk.valid s → disk.valid s' → disk.Holds s w → disk.Holds s' w' →
    disk.below s w = disk.below s' w' → host.Answered (.removeWorkspace w) s answer t →
    host.Answered (.removeWorkspace w') s' answer' t' → SameAnswer w w' answer answer'

section Paced

variable {σ : Type} {host : Host σ} {p : Pipeline} {disk : Disk σ}

theorem Host.answered_of_paced {call : Call} {s t : σ} {answer : call.Answer}
    (h : host.paced.Answered call s answer t) : host.Answered call s answer t := by
  obtain ⟨issued, h⟩ := h
  cases issued with
  | false => cases h
  | true => exact ⟨false, h⟩

/-- It makes no difference if every call is outstanding once before it is taken. -/
theorem Host.Sandboxed.paced (h : host.Sandboxed p disk) : host.paced.Sandboxed p disk where
  reliable {call issued s} hs := by
    have htaken : (host.ask false call s).1 ≠ .crash := h.reliable hs
    cases issued with
    | false => exact fun hcrash => nomatch hcrash
    | true => exact htaken
  waits {call issued s t} hs hpending := by
    cases issued with
    | false =>
      cases hpending
      exact ⟨hs, rfl, rfl, rfl⟩
    | true =>
      have htaken : host.ask false call s = (.pending, t) := hpending
      exact h.waits hs htaken
  creates hs ha := h.creates hs (answered_of_paced ha)
  refuses hs ha := h.refuses hs (answered_of_paced ha)
  finds hs ha := h.finds hs (answered_of_paced ha)
  compiles hs hw ha := h.compiles hs hw (answered_of_paced ha)
  loads hs hw ha := h.loads hs hw (answered_of_paced ha)
  removes hs hw ha := h.removes hs hw (answered_of_paced ha)
  sameCreation hs hs' ha ha' :=
    h.sameCreation hs hs' (answered_of_paced ha) (answered_of_paced ha')
  sameTool hs hs' ha ha' := h.sameTool hs hs' (answered_of_paced ha) (answered_of_paced ha')
  sameOutput hs hs' hw hw' hempty hempty' ha ha' :=
    h.sameOutput hs hs' hw hw' hempty hempty' (answered_of_paced ha) (answered_of_paced ha')
  sameFile hs hs' hw hw' hbelow ha ha' :=
    h.sameFile hs hs' hw hw' hbelow (answered_of_paced ha) (answered_of_paced ha')
  sameRemoval hs hs' hw hw' hbelow ha ha' :=
    h.sameRemoval hs hs' hw hw' hbelow (answered_of_paced ha) (answered_of_paced ha')

end Paced

/-! ### Claims -/

/-- What a task has of the disk. -/
inductive Claim where
  | none
  /-- A directory, and what it holds. -/
  | holds (w : Path) (contents : Contents)
  /-- A directory, but it is removed. -/
  | gone (w : Path)

/-- The directory that a claim is about. -/
def Claim.path? : Claim → Option Path
  | .none => Option.none
  | .holds w _ | .gone w => some w

namespace Disk

variable {σ : Type}

/-- Beside what was there in `s₀` the disk holds what is claimed, and nothing else. -/
structure Laid (disk : Disk σ) (s₀ : σ) (claims : Nat → Claim) (s : σ) : Prop where
  valid : disk.valid s
  given : ∀ i w, (claims i).path? = some w → disk.given s w.components
  apart : ∀ i j w v, i ≠ j → (claims i).path? = some w → (claims j).path? = some v →
    Route.Apart w.components v.components
  holds : ∀ i w contents, claims i = .holds w contents → disk.below s w = contents
  fresh : ∀ i w contents, claims i = .holds w contents →
    disk.below s₀ w = .empty ∧ ∀ d, w.components <+: d → ¬disk.scratch s₀ d
  files : ∀ q, (∀ i w contents, claims i = .holds w contents → ¬w.components <+: q) →
    disk.files s q = disk.files s₀ q
  scratch : ∀ d, disk.scratch s d ↔
    disk.scratch s₀ d ∨ ∃ i w contents, claims i = .holds w contents ∧ d = w.components

section Below

variable {disk : Disk σ} {s t : σ} {w : Path}

theorem below_congr (h : ∀ q, w.components <+: q → disk.files t q = disk.files s q) :
    disk.below t w = disk.below s w :=
  funext fun _ => h _ (List.prefix_append ..)

theorem Same.below (h : disk.Same s t) (w : Path) : disk.below t w = disk.below s w :=
  below_congr fun q _ => congrFun h.files q

end Below

namespace Laid

variable {disk : Disk σ} {s₀ s t : σ} {claims : Nat → Claim}

theorem initial (h : disk.valid s₀) : disk.Laid s₀ (fun _ => .none) s₀ where
  valid := h
  given _ _ hclaim := nomatch hclaim
  apart _ _ _ _ _ hclaim := nomatch hclaim
  holds _ _ _ hclaim := nomatch hclaim
  fresh _ _ _ hclaim := nomatch hclaim
  files _ _ := rfl
  scratch _ := (or_iff_left fun ⟨_, _, _, hclaim, _⟩ => nomatch hclaim).symm

theorem same (h : disk.Laid s₀ claims s) (hsame : disk.Same s t) : disk.Laid s₀ claims t where
  valid := hsame.valid
  given := hsame.given ▸ h.given
  apart := h.apart
  holds i w contents hclaim := (hsame.below w).trans (h.holds i w contents hclaim)
  fresh := h.fresh
  files := hsame.files ▸ h.files
  scratch := hsame.scratch ▸ h.scratch

/-- A task that holds a directory has been given it, and it is still there. -/
theorem holds_of_claim (h : disk.Laid s₀ claims s) {i : Nat} {w : Path} {contents : Contents}
    (hclaim : claims i = .holds w contents) : disk.Holds s w :=
  ⟨h.given i w (by rw [hclaim]; rfl), (h.scratch _).mpr (.inr ⟨i, w, contents, hclaim, rfl⟩)⟩

/-- What is below a directory that another task holds is not below one's own. -/
theorem not_under (h : disk.Laid s₀ claims s) {i j : Nat} {w v : Path} {contents : Contents}
    (hi : (claims i).path? = some w) (hj : claims j = .holds v contents) (hne : j ≠ i) {q : Route}
    (hq : v.components <+: q) : ¬w.components <+: q :=
  (h.apart j i v w hne (by rw [hj]; rfl) hi).not_under hq

/-! ### Changes of one claim -/

theorem update_eq_iff {i j : Nat} {claim x : Claim} : Function.update claims i claim j = x ↔
    (j = i ∧ claim = x) ∨ (j ≠ i ∧ claims j = x) := by
  by_cases hj : j = i
  · subst hj
    simp
  · simp [hj]

theorem path?_update_iff {i j : Nat} {claim : Claim} {v : Path} :
    (Function.update claims i claim j).path? = some v ↔
      (j = i ∧ claim.path? = some v) ∨ (j ≠ i ∧ (claims j).path? = some v) := by
  by_cases hj : j = i
  · subst hj
    simp
  · simp [hj]

theorem path?_update {i : Nat} {claim : Claim} (hpath : claim.path? = (claims i).path?) (j : Nat) :
    (Function.update claims i claim j).path? = (claims j).path? := by
  by_cases hj : j = i
  · subst hj
    rwa [Function.update_self]
  · rw [Function.update_of_ne hj]

variable {i : Nat} {w : Path} {contents : Contents}

/-- What is below no directory that is held once a claim has changed was below none before. -/
theorem not_under_any {claim : Claim} (hclaim : claims i = .holds w contents) {q : Route}
    (hw : ¬w.components <+: q) (hq : ∀ j v c, Function.update claims i claim j = .holds v c →
      ¬v.components <+: q) : ∀ j v c, claims j = .holds v c → ¬v.components <+: q := by
  intro j v c hj
  by_cases hne : j = i
  · subst hne
    rw [hclaim] at hj
    cases hj
    exact hw
  · exact hq j v c (update_eq_iff.mpr (.inr ⟨hne, hj⟩))

theorem apart_of_created (h : disk.Laid s₀ claims s) (hcreated : disk.Created s w t) {v : Path}
    (hclaim : (claims i).path? = some v) : Route.Apart v.components w.components :=
  hcreated.apart _ (h.given i v hclaim)

/-- Nothing of a task is below a new directory, so nothing was there at first. -/
theorem fresh_of_created (h : disk.Laid s₀ claims s) (hcreated : disk.Created s w t) :
    disk.below s₀ w = .empty ∧ ∀ d, w.components <+: d → ¬disk.scratch s₀ d := by
  refine ⟨(below_congr fun q hq => ?_).trans hcreated.empty, fun d hd hs₀ => ?_⟩
  · refine (h.files q fun j v c hclaim hv => ?_).symm
    have hpath : (claims j).path? = some v := by rw [hclaim]; rfl
    exact (h.apart_of_created hcreated hpath).not_under hv hq
  · exact hcreated.unused d hd ((h.scratch d).mpr (.inl hs₀))

theorem created (h : disk.Laid s₀ claims s) (hnone : claims i = .none)
    (hcreated : disk.Created s w t) :
    disk.Laid s₀ (Function.update claims i (.holds w .empty)) t := by
  have hold : ∀ j v c, claims j = .holds v c →
      Function.update claims i (.holds w .empty) j = .holds v c := by
    intro j v c hclaim
    refine update_eq_iff.mpr (.inr ⟨?_, hclaim⟩)
    rintro rfl
    rw [hnone] at hclaim
    cases hclaim
  refine ⟨hcreated.valid, fun j v hclaim => ?_, fun j k u v hjk hj hk => ?_,
    fun j v c hclaim => ?_, fun j v c hclaim => ?_, fun q hq => ?_, fun d => ?_⟩
  · rcases path?_update_iff.mp hclaim with ⟨-, ⟨⟩⟩ | ⟨-, hclaim⟩
    · exact (hcreated.given _).mpr (.inr rfl)
    · exact (hcreated.given _).mpr (.inl (h.given j v hclaim))
  · rcases path?_update_iff.mp hj with ⟨rfl, ⟨⟩⟩ | ⟨-, hfirst⟩
    · rcases path?_update_iff.mp hk with ⟨rfl, -⟩ | ⟨-, hsecond⟩
      · exact absurd rfl hjk
      · exact (h.apart_of_created hcreated hsecond).symm
    · rcases path?_update_iff.mp hk with ⟨-, ⟨⟩⟩ | ⟨-, hsecond⟩
      · exact h.apart_of_created hcreated hfirst
      · exact h.apart j k u v hjk hfirst hsecond
  · rw [below_congr fun q _ => congrFun hcreated.files q]
    rcases update_eq_iff.mp hclaim with ⟨-, hclaim⟩ | ⟨-, hclaim⟩
    · cases hclaim
      exact hcreated.empty
    · exact h.holds j v c hclaim
  · rcases update_eq_iff.mp hclaim with ⟨-, hclaim⟩ | ⟨-, hclaim⟩
    · cases hclaim
      exact h.fresh_of_created hcreated
    · exact h.fresh j v c hclaim
  · rw [hcreated.files]
    exact h.files q fun j v c hclaim => hq j v c (hold j v c hclaim)
  · rw [hcreated.scratch, h.scratch, or_assoc]
    refine or_congr_right ⟨?_, ?_⟩
    · rintro (⟨j, v, c, hclaim, rfl⟩ | rfl)
      · exact ⟨j, v, c, hold j v c hclaim, rfl⟩
      · exact ⟨i, w, .empty, Function.update_self .., rfl⟩
    · rintro ⟨j, v, c, hclaim, rfl⟩
      rcases update_eq_iff.mp hclaim with ⟨-, hclaim⟩ | ⟨-, hclaim⟩
      · cases hclaim
        exact .inr rfl
      · exact .inl ⟨j, v, c, hclaim, rfl⟩

theorem written (h : disk.Laid s₀ claims s) (hclaim : claims i = .holds w contents)
    (hwritten : disk.Written s w t) :
    disk.Laid s₀ (Function.update claims i (.holds w (disk.below t w))) t := by
  have hw : (claims i).path? = some w := by rw [hclaim]; rfl
  have hpath : ∀ j, (Function.update claims i (.holds w (disk.below t w)) j).path? =
      (claims j).path? := path?_update hw.symm
  refine ⟨hwritten.valid, fun j v hj => ?_, fun j k u v hjk hj hk => ?_, fun j v c hj => ?_,
    fun j v c hj => ?_, fun q hq => ?_, fun d => ?_⟩
  · rw [hwritten.given]
    exact h.given j v (hpath j ▸ hj)
  · exact h.apart j k u v hjk (hpath j ▸ hj) (hpath k ▸ hk)
  · rcases update_eq_iff.mp hj with ⟨-, hj⟩ | ⟨hne, hj⟩
    · cases hj
      rfl
    · rw [below_congr fun q hq => hwritten.files q (h.not_under hw hj hne hq)]
      exact h.holds j v c hj
  · rcases update_eq_iff.mp hj with ⟨-, hj⟩ | ⟨-, hj⟩
    · cases hj
      exact h.fresh i w contents hclaim
    · exact h.fresh j v c hj
  · have hnot : ¬w.components <+: q := hq i w _ (Function.update_self ..)
    rw [hwritten.files q hnot]
    exact h.files q (not_under_any hclaim hnot hq)
  · rw [hwritten.scratch, h.scratch]
    refine or_congr_right ⟨?_, ?_⟩
    · rintro ⟨j, v, c, hj, rfl⟩
      by_cases hne : j = i
      · subst hne
        rw [hclaim] at hj
        cases hj
        exact ⟨j, w, _, Function.update_self .., rfl⟩
      · exact ⟨j, v, c, update_eq_iff.mpr (.inr ⟨hne, hj⟩), rfl⟩
    · rintro ⟨j, v, c, hj, rfl⟩
      rcases update_eq_iff.mp hj with ⟨-, hj⟩ | ⟨-, hj⟩
      · cases hj
        exact ⟨i, w, contents, hclaim, rfl⟩
      · exact ⟨j, v, c, hj, rfl⟩

theorem removed (h : disk.Laid s₀ claims s) (hclaim : claims i = .holds w contents)
    (hremoved : disk.Removed s w t) :
    disk.Laid s₀ (Function.update claims i (.gone w)) t := by
  have hw : (claims i).path? = some w := by rw [hclaim]; rfl
  have hpath : ∀ j, (Function.update claims i (.gone w) j).path? = (claims j).path? :=
    path?_update hw.symm
  have hothers : ∀ j v c, Function.update claims i (.gone w) j = .holds v c →
      j ≠ i ∧ claims j = .holds v c := by
    intro j v c hj
    rcases update_eq_iff.mp hj with ⟨-, hj⟩ | hj
    · cases hj
    · exact hj
  obtain ⟨hempty, hunused⟩ := h.fresh i w contents hclaim
  refine ⟨hremoved.valid, fun j v hj => ?_, fun j k u v hjk hj hk => ?_, fun j v c hj => ?_,
    fun j v c hj => ?_, fun q hq => ?_, fun d => ?_⟩
  · rw [hremoved.given]
    exact h.given j v (hpath j ▸ hj)
  · exact h.apart j k u v hjk (hpath j ▸ hj) (hpath k ▸ hk)
  · obtain ⟨hne, hj⟩ := hothers j v c hj
    rw [below_congr fun q hq => hremoved.files q (h.not_under hw hj hne hq)]
    exact h.holds j v c hj
  · exact h.fresh j v c (hothers j v c hj).2
  · by_cases hunder : w.components <+: q
    · -- what was below the directory is gone, and there was nothing at first
      obtain ⟨rest, rfl⟩ := hunder
      exact (congrFun hremoved.empty rest).trans (congrFun hempty rest).symm
    · rw [hremoved.files q hunder]
      exact h.files q (not_under_any hclaim hunder hq)
  · rw [hremoved.scratch, h.scratch]
    constructor
    · rintro ⟨hs₀ | ⟨j, v, c, hj, rfl⟩, hunder⟩
      · exact .inl hs₀
      · refine .inr ⟨j, v, c, update_eq_iff.mpr (.inr ⟨?_, hj⟩), rfl⟩
        rintro rfl
        rw [hclaim] at hj
        cases hj
        exact hunder List.prefix_rfl
    · rintro (hs₀ | ⟨j, v, c, hj, rfl⟩)
      · exact ⟨.inl hs₀, fun hunder => hunused d hunder hs₀⟩
      · obtain ⟨hne, hj⟩ := hothers j v c hj
        exact ⟨.inr ⟨j, v, c, hj, rfl⟩, h.not_under hw hj hne List.prefix_rfl⟩

end Laid

end Disk

end StubLoader
