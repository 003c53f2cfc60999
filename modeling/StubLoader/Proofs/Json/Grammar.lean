import StubLoader.Json.Reader
/-!
# The grammar of JSON texts

What a text says before anybody reads it: a *tree*, in which number literals are still letters and
an object has its members in the order of the text, equal keys and all. `Spells t cs rest` says
that the text `cs` begins, spaces aside, with a spelling of the tree `t` and goes on with `rest`.

The relation is defined by recursion on the tree, with one clause for each kind of value; it
mentions neither depth nor bounds nor faults.
-/

namespace StubLoader.Json

/-! ### Strings -/

/-- The code unit of four hexadecimal digits. -/
def hexUnit? (a b c d : Char) : Option Nat :=
  match hexValue? a, hexValue? b, hexValue? c, hexValue? d with
  | some a, some b, some c, some d => some (((a * 16 + b) * 16 + c) * 16 + d)
  | _, _, _, _ => none

/-- The text of a string from after its opening quote on, its characters, and what follows its
closing quote. -/
inductive StringText : List Char → List Char → List Char → Prop where
  | close {rest : List Char} : StringText ('"' :: rest) [] rest
  | plain {c : Char} {cs s rest : List Char} (hq : c ≠ '"') (hb : c ≠ '\\') (hc : 0x20 ≤ c.toNat)
      (h : StringText cs s rest) : StringText (c :: cs) (c :: s) rest
  | letter {l c : Char} {cs s rest : List Char} (hl : escapeLetter? l = some c)
      (h : StringText cs s rest) : StringText ('\\' :: l :: cs) (c :: s) rest
  /-- A code unit that is a character of its own. -/
  | unit {a b c d : Char} {n : Nat} {cs s rest : List Char} (hn : hexUnit? a b c d = some n)
      (hhigh : isHigh n = false) (hlow : isLow n = false) (h : StringText cs s rest) :
      StringText ('\\' :: 'u' :: a :: b :: c :: d :: cs) (Char.ofNat n :: s) rest
  /-- The two code units of a surrogate pair. -/
  | pair {a b c d a' b' c' d' : Char} {n m : Nat} {cs s rest : List Char}
      (hn : hexUnit? a b c d = some n) (hhigh : isHigh n = true)
      (hm : hexUnit? a' b' c' d' = some m) (hlow : isLow m = true) (h : StringText cs s rest) :
      StringText ('\\' :: 'u' :: a :: b :: c :: d :: '\\' :: 'u' :: a' :: b' :: c' :: d' :: cs)
        (pairChar n m :: s) rest

/-! ### Numbers -/

/-- One digit or more. -/
def IsDigits (ds : List Char) : Prop := ds ≠ [] ∧ ∀ c ∈ ds, isDigit c = true

/-- A fraction, or nothing. -/
inductive IsFraction : List Char → Prop where
  | absent : IsFraction []
  | present {ds : List Char} (h : IsDigits ds) : IsFraction ('.' :: ds)

/-- An exponent, or nothing. -/
inductive IsExponent : List Char → Prop where
  | absent : IsExponent []
  | present {e : Char} {sign ds : List Char} (he : e = 'e' ∨ e = 'E')
      (hs : sign = [] ∨ sign = ['+'] ∨ sign = ['-']) (h : IsDigits ds) :
      IsExponent (e :: (sign ++ ds))

/-- A number without its sign. A zero too many in front is not looked at here; such a literal
stands for nothing. -/
inductive IsMagnitude : List Char → Prop where
  | mk {whole fraction exponent : List Char} (hw : IsDigits whole) (hf : IsFraction fraction)
      (he : IsExponent exponent) : IsMagnitude (whole ++ (fraction ++ exponent))

/-- A number literal. -/
inductive IsNumeral : List Char → Prop where
  | positive {m : List Char} (h : IsMagnitude m) : IsNumeral m
  | negative {m : List Char} (h : IsMagnitude m) : IsNumeral ('-' :: m)

/-- Whether the character can be part of a number literal. -/
def isNumberChar (c : Char) : Bool :=
  isDigit c || c == '.' || c == 'e' || c == 'E' || c == '+' || c == '-'

/-- The text does not go on with a character that could belong to a number before it. -/
def Boundary (rest : List Char) : Prop := ∀ c, rest.head? = some c → isNumberChar c = false

/-! ### Values -/

/-- What a text says. -/
inductive Tree where
  | null
  | bool (b : Bool)
  | number (literal : List Char)
  | str (s : String)
  | arr (items : List Tree)
  | obj (members : List (String × Tree))

/-- What holds of a tree if it holds of every tree of whose items or members it holds. -/
theorem Tree.induct {P : Tree → Prop} (null : P .null) (bool : ∀ b, P (.bool b))
    (number : ∀ l, P (.number l)) (str : ∀ s, P (.str s))
    (arr : ∀ ts, (∀ t ∈ ts, P t) → P (.arr ts))
    (obj : ∀ ms, (∀ m ∈ ms, P (Prod.snd m)) → P (.obj ms)) (t : Tree) : P t :=
  @Tree.rec P (fun ts => ∀ t ∈ ts, P t) (fun ms => ∀ m ∈ ms, P (Prod.snd m)) (fun m => P m.2)
    null bool number str arr obj
    (fun _ h => nomatch h)
    (fun _ _ ht hts => fun _ h => (List.mem_cons.mp h).elim (fun e => e ▸ ht) (hts _))
    (fun _ h => nomatch h)
    (fun _ _ hm hms => fun _ h => (List.mem_cons.mp h).elim (fun e => e ▸ hm) (hms _))
    (fun _ _ h => h) t

/-- From the opening quote of a key, spaces before it aside, to after its colon. -/
def SpellsKey (key : String) (cs rest : List Char) : Prop :=
  ∃ k r, skipSpace cs = '"' :: k ∧ StringText k key.toList r ∧ skipSpace r = ':' :: rest

mutual

/-- The text begins, spaces aside, with the tree, and goes on with `rest`. -/
def Spells : Tree → List Char → List Char → Prop
  | .null, cs, rest => skipSpace cs = 'n' :: 'u' :: 'l' :: 'l' :: rest
  | .bool true, cs, rest => skipSpace cs = 't' :: 'r' :: 'u' :: 'e' :: rest
  | .bool false, cs, rest => skipSpace cs = 'f' :: 'a' :: 'l' :: 's' :: 'e' :: rest
  | .number literal, cs, rest => IsNumeral literal ∧ skipSpace cs = literal ++ rest
  | .str s, cs, rest => ∃ r, skipSpace cs = '"' :: r ∧ StringText r s.toList rest
  | .arr items, cs, rest => ∃ r, skipSpace cs = '[' :: r ∧ SpellsItems items r rest
  | .obj members, cs, rest => ∃ r, skipSpace cs = '\x7b' :: r ∧ SpellsMembers members r rest

/-- From after an opening bracket to after its closing one. -/
def SpellsItems : List Tree → List Char → List Char → Prop
  | [], cs, rest => skipSpace cs = ']' :: rest
  | t :: ts, cs, rest => ∃ r, Spells t cs r ∧ SpellsMoreItems ts r rest

/-- From after an item to after the closing bracket. -/
def SpellsMoreItems : List Tree → List Char → List Char → Prop
  | [], cs, rest => skipSpace cs = ']' :: rest
  | t :: ts, cs, rest =>
    ∃ r r', skipSpace cs = ',' :: r ∧ Spells t r r' ∧ SpellsMoreItems ts r' rest

/-- From after an opening brace to after its closing one. -/
def SpellsMembers : List (String × Tree) → List Char → List Char → Prop
  | [], cs, rest => skipSpace cs = '\x7d' :: rest
  | (key, t) :: ms, cs, rest =>
    ∃ v r, SpellsKey key cs v ∧ Spells t v r ∧ SpellsMoreMembers ms r rest

/-- From after a member to after the closing brace. -/
def SpellsMoreMembers : List (String × Tree) → List Char → List Char → Prop
  | [], cs, rest => skipSpace cs = '\x7d' :: rest
  | (key, t) :: ms, cs, rest => ∃ k v r, skipSpace cs = ',' :: k ∧ SpellsKey key k v ∧
      Spells t v r ∧ SpellsMoreMembers ms r rest

end

end StubLoader.Json
