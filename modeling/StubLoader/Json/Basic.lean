import StubLoader.Decimal.Binary64
/-!
# JSON values

Numbers are integers as long as their literal is one of moderate size, and doubles otherwise. An
object lists its members by ascending key, one member a key, so that equal objects are equal lists;
`insert` keeps it so and lets the last of several equal keys win.
-/

namespace StubLoader

/-- A JSON value. -/
inductive Json where
  | null
  | bool (b : Bool)
  | int (n : Int)
  | float (x : Binary64)
  | str (s : String)
  | arr (items : List Json)
  | obj (members : List (String × Json))

namespace Json

/-- The members of an object, by ascending key. -/
abbrev Members := List (String × Json)

/-- The members with `key` standing for `value`. -/
def insert (key : String) (value : Json) : Members → Members
  | [] => [(key, value)]
  | (k, v) :: ms =>
    if key < k then (key, value) :: (k, v) :: ms
    else if key = k then (key, value) :: ms
    else (k, v) :: insert key value ms

/-- The members listed in any order, the last of several equal keys winning. -/
def Members.ofList (ms : List (String × Json)) : Members :=
  ms.foldl (fun acc m => insert m.1 m.2 acc) []

/-! ### Equality -/

mutual

/-- Whether two values are the same. -/
def same : Json → Json → Bool
  | .null, .null => true
  | .bool a, .bool b => a == b
  | .int a, .int b => a == b
  | .float a, .float b => a == b
  | .str a, .str b => a == b
  | .arr as, .arr bs => sameItems as bs
  | .obj as, .obj bs => sameMembers as bs
  | _, _ => false

/-- Whether two lists hold the same values. -/
def sameItems : List Json → List Json → Bool
  | [], [] => true
  | a :: as, b :: bs => same a b && sameItems as bs
  | _, _ => false

/-- Whether two lists hold the same members. -/
def sameMembers : List (String × Json) → List (String × Json) → Bool
  | [], [] => true
  | (k, a) :: as, (l, b) :: bs => k == l && same a b && sameMembers as bs
  | _, _ => false

end

mutual

theorem eq_of_same : ∀ {a b : Json}, same a b = true → a = b
  | .null, .null, _ => rfl
  | .bool a, .bool b, h => by simpa [same] using h
  | .int a, .int b, h => by simpa [same] using h
  | .float a, .float b, h => by simpa [same] using h
  | .str a, .str b, h => by simpa [same] using h
  | .arr as, .arr bs, h => by
    have := eq_of_sameItems (by simpa [same] using h : sameItems as bs = true)
    simp [this]
  | .obj as, .obj bs, h => by
    have := eq_of_sameMembers (by simpa [same] using h : sameMembers as bs = true)
    simp [this]
  | .null, .bool _, h | .null, .int _, h | .null, .float _, h | .null, .str _, h
  | .null, .arr _, h | .null, .obj _, h | .bool _, .null, h | .bool _, .int _, h
  | .bool _, .float _, h | .bool _, .str _, h | .bool _, .arr _, h | .bool _, .obj _, h
  | .int _, .null, h | .int _, .bool _, h | .int _, .float _, h | .int _, .str _, h
  | .int _, .arr _, h | .int _, .obj _, h | .float _, .null, h | .float _, .bool _, h
  | .float _, .int _, h | .float _, .str _, h | .float _, .arr _, h | .float _, .obj _, h
  | .str _, .null, h | .str _, .bool _, h | .str _, .int _, h | .str _, .float _, h
  | .str _, .arr _, h | .str _, .obj _, h | .arr _, .null, h | .arr _, .bool _, h
  | .arr _, .int _, h | .arr _, .float _, h | .arr _, .str _, h | .arr _, .obj _, h
  | .obj _, .null, h | .obj _, .bool _, h | .obj _, .int _, h | .obj _, .float _, h
  | .obj _, .str _, h | .obj _, .arr _, h => by simp [same] at h

theorem eq_of_sameItems : ∀ {as bs : List Json}, sameItems as bs = true → as = bs
  | [], [], _ => rfl
  | a :: as, b :: bs, h => by
    simp only [sameItems, Bool.and_eq_true] at h
    rw [eq_of_same h.1, eq_of_sameItems h.2]
  | [], _ :: _, h => by simp [sameItems] at h
  | _ :: _, [], h => by simp [sameItems] at h

theorem eq_of_sameMembers :
    ∀ {as bs : List (String × Json)}, sameMembers as bs = true → as = bs
  | [], [], _ => rfl
  | (k, a) :: as, (l, b) :: bs, h => by
    simp only [sameMembers, Bool.and_eq_true, beq_iff_eq] at h
    rw [h.1.1, eq_of_same h.1.2, eq_of_sameMembers h.2]
  | [], _ :: _, h => by simp [sameMembers] at h
  | _ :: _, [], h => by simp [sameMembers] at h

end

mutual

theorem same_self : ∀ a : Json, same a a = true
  | .null => rfl
  | .bool _ | .int _ | .float _ | .str _ => by simp [same]
  | .arr as => by simpa [same] using sameItems_self as
  | .obj as => by simpa [same] using sameMembers_self as

theorem sameItems_self : ∀ as : List Json, sameItems as as = true
  | [] => rfl
  | a :: as => by simp [sameItems, same_self a, sameItems_self as]

theorem sameMembers_self : ∀ as : List (String × Json), sameMembers as as = true
  | [] => rfl
  | (_, a) :: as => by simp [sameMembers, same_self a, sameMembers_self as]

end

theorem same_iff {a b : Json} : same a b = true ↔ a = b :=
  ⟨eq_of_same, fun h => h ▸ same_self a⟩

instance : DecidableEq Json := fun _ _ => decidable_of_iff _ same_iff

end Json

end StubLoader
