import SolidityTree.Text.Bytes

/-!
# JSON values

A value keeps what the tree decoder reads AND how it was written: a number keeps its literal, and
strings, arrays and objects keep their text without the white space around it, because messages
quote it.  The text is a `Thunk`: it is a piece of the document and is cut out only when a message
needs it.

Member names and string values are Unicode text; of several members with one name the LAST counts.
-/

namespace SolidityTree

/-! ## 1. Values -/

/-- A JSON value together with its written form. -/
inductive Json where
  /-- `null` -/
  | null
  /-- `true` or `false` -/
  | bool (b : Bool)
  /-- A number, as it is written. -/
  | num (literal : Bytes)
  /-- A string: its written form with the quotes, and the text that it denotes. -/
  | str (source : Thunk Bytes) (value : String)
  /-- An array. -/
  | arr (source : Thunk Bytes) (items : List Json)
  /-- An object; the members in the order of the text, repeated names included. -/
  | obj (source : Thunk Bytes) (members : List (String × Json))

namespace Json

/-- The written form of a value. -/
def text : Json → Bytes
  | null => utf8 "null"
  | bool true => utf8 "true"
  | bool false => utf8 "false"
  | num literal => literal
  | str source _ => source.get
  | arr source _ => source.get
  | obj source _ => source.get

/-! ## 2. Members -/

/-- The LAST member of a name. -/
def last? (name : String) : List (String × Json) → Option Json
  | [] => none
  | (key, value) :: rest =>
    match last? name rest with
    | some later => some later
    | none => if key = name then some value else none

/-- The last member of a name unless it is `null`: a null member is as good as none. -/
def present? (name : String) (members : List (String × Json)) : Option Json :=
  match last? name members with
  | some null => none
  | found => found

/-! ## 3. Quotations -/

/-- At most forty bytes of a text: a longer one is cut after 37 and marked by three points. -/
def abridge (bs : Bytes) : Bytes :=
  if bs.length > 40 then bs.take 37 ++ utf8 "..." else bs

/-- A value as a message quotes it. -/
def excerpt (v : Json) : Bytes := abridge v.text

/-! ## 4. A size that every part is below -/

mutual

/-- The number of values in a value. -/
def size : Json → Nat
  | null => 1
  | bool _ => 1
  | num _ => 1
  | str _ _ => 1
  | arr _ items => sizeItems items + 1
  | obj _ members => sizeMembers members + 1

/-- The number of values in a list of items. -/
def sizeItems : List Json → Nat
  | [] => 0
  | v :: rest => v.size + sizeItems rest

/-- The number of values in a list of members. -/
def sizeMembers : List (String × Json) → Nat
  | [] => 0
  | (_, v) :: rest => v.size + sizeMembers rest

end

theorem size_le_sizeItems {v : Json} {items : List Json} (h : v ∈ items) :
    v.size ≤ sizeItems items := by
  induction items with
  | nil => cases h
  | cons w rest ih =>
    rcases List.mem_cons.mp h with rfl | h
    · simp [sizeItems]
    · have := ih h
      simp only [sizeItems]
      omega

/-- A member found by its name is below the object. -/
theorem size_le_of_last? {name : String} {v : Json} {members : List (String × Json)}
    (h : last? name members = some v) : v.size ≤ sizeMembers members := by
  induction members with
  | nil => simp [last?] at h
  | cons m rest ih =>
    obtain ⟨key, w⟩ := m
    simp only [last?] at h
    simp only [sizeMembers]
    split at h
    · next found =>
      cases h
      have := ih found
      omega
    · split at h
      · cases h
        omega
      · cases h

/-- A present member is found under its name. -/
theorem last?_of_present? {name : String} {v : Json} {members : List (String × Json)}
    (h : present? name members = some v) : last? name members = some v := by
  simp only [present?] at h
  split at h
  · cases h
  · exact h

end Json

end SolidityTree
