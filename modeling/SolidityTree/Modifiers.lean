/-!
# Visibility, mutability and function kind

Three closed vocabularies.  Each word is written in exactly one way, case-sensitively.
-/

namespace SolidityTree

/-! ## 1. Visibility -/

/-- Who may use a function or variable. -/
inductive Visibility where
  | priv
  | internal
  | pub
  | external
  deriving DecidableEq, Repr

namespace Visibility

/-- The written word. -/
def word : Visibility → String
  | .priv => "private"
  | .internal => "internal"
  | .pub => "public"
  | .external => "external"

/-- The visibility that a word writes. -/
def ofWord? (s : String) : Option Visibility :=
  [.priv, .internal, .pub, .external].find? fun v => v.word = s

@[simp] theorem ofWord?_word (v : Visibility) : ofWord? v.word = some v := by
  cases v <;> rfl

/-- A word writes a visibility exactly if it is its word. -/
theorem ofWord?_eq_some_iff {s : String} {v : Visibility} : ofWord? s = some v ↔ v.word = s := by
  constructor
  · intro h
    have := List.find?_some h
    simpa using this
  · rintro rfl
    exact ofWord?_word v

end Visibility

/-! ## 2. Mutability -/

/-- What a function may do with the state and with payments. -/
inductive Mutability where
  | payable
  | nonpayable
  | pure
  | view
  deriving DecidableEq, Repr

namespace Mutability

/-- The written word. -/
def word : Mutability → String
  | .payable => "payable"
  | .nonpayable => "nonpayable"
  | .pure => "pure"
  | .view => "view"

/-- The mutability that a word writes. -/
def ofWord? (s : String) : Option Mutability :=
  [.payable, .nonpayable, .pure, .view].find? fun m => m.word = s

@[simp] theorem ofWord?_word (m : Mutability) : ofWord? m.word = some m := by
  cases m <;> rfl

/-- A word writes a mutability exactly if it is its word. -/
theorem ofWord?_eq_some_iff {s : String} {m : Mutability} : ofWord? s = some m ↔ m.word = s := by
  constructor
  · intro h
    have := List.find?_some h
    simpa using this
  · rintro rfl
    exact ofWord?_word m

end Mutability

/-! ## 3. Function kinds -/

/-- What sort of function a definition defines. -/
inductive FunctionKind where
  | constructor
  | receive
  | fallback
  | freeFunction
  | function
  deriving DecidableEq, Repr

namespace FunctionKind

/-- The written word. -/
def word : FunctionKind → String
  | .constructor => "constructor"
  | .receive => "receive"
  | .fallback => "fallback"
  | .freeFunction => "freeFunction"
  | .function => "function"

/-- The function kind that a word writes. -/
def ofWord? (s : String) : Option FunctionKind :=
  [.constructor, .receive, .fallback, .freeFunction, .function].find? fun k => k.word = s

@[simp] theorem ofWord?_word (k : FunctionKind) : ofWord? k.word = some k := by
  cases k <;> rfl

/-- A word writes a function kind exactly if it is its word. -/
theorem ofWord?_eq_some_iff {s : String} {k : FunctionKind} : ofWord? s = some k ↔ k.word = s := by
  constructor
  · intro h
    have := List.find?_some h
    simpa using this
  · rintro rfl
    exact ofWord?_word k

/-- Constructors, fallback and receive functions: they are run without being called by name. -/
def isSpecial : FunctionKind → Bool
  | .constructor | .fallback | .receive => true
  | .freeFunction | .function => false

end FunctionKind

end SolidityTree
