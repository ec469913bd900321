import SolidityTree.Proofs.Agreement

/-!
# Documents that differ in nothing that is read

`Alike slot v v'` lists what two values may differ in without a difference to decoding, if they are
read in the slot:

* the white space inside arrays and objects, so their texts;
* in a node, the order of members with different names, members outside its read set, and members
  that a later one of the same name puts out of sight;
* and all of this further down, as far as nodes are looked into.

Each is a single change at a single place; the relation is closed under doing one after another and
undoing them.  Since agreement of runs is an equivalence (`Agree.symm`, `Agree.trans`), it is enough
that every single change keeps it (`Alike.agree`), and for a change inside an object that is a
statement about the look-up of members alone (`interchangeable_of_last?`).

Contents
* §1  the relation
* §2  looking up members
* §3  single changes
-/

namespace SolidityTree

open Json

/-! ## 1. The relation -/

/-- What the items of an array are read as. -/
def Slot.item : Slot → Slot
  | .nodes => .node
  | .node | .scalar => .scalar

/-- What the members of an object are read as: only those of a node are looked into. -/
def Slot.member : Slot → String → Slot
  | .node, name => slotOf name
  | .nodes, _ | .scalar, _ => .scalar

/-- **`Alike slot v v'`**: the values differ in nothing that is read in the slot. -/
inductive Alike : Slot → Json → Json → Prop
  | refl (slot : Slot) (v : Json) : Alike slot v v
  | symm {slot : Slot} {v w : Json} : Alike slot v w → Alike slot w v
  | trans {slot : Slot} {u v w : Json} : Alike slot u v → Alike slot v w → Alike slot u w
  /-- White space in an array. -/
  | arr {slot : Slot} {items : List Json} (source source' : Thunk Bytes) :
      Alike slot (.arr source items) (.arr source' items)
  /-- White space in an object. -/
  | obj {slot : Slot} {members : List (String × Json)} (source source' : Thunk Bytes) :
      Alike slot (.obj source members) (.obj source' members)
  /-- An item. -/
  | item {slot : Slot} {source : Thunk Bytes} {before after : List Json} {v w : Json} :
      Alike slot.item v w →
      Alike slot (.arr source (before ++ v :: after)) (.arr source (before ++ w :: after))
  /-- The value of a member. -/
  | member {slot : Slot} {source : Thunk Bytes} {before after : List (String × Json)}
      {name : String} {v w : Json} : Alike (slot.member name) v w →
      Alike slot (.obj source (before ++ (name, v) :: after))
        (.obj source (before ++ (name, w) :: after))
  /-- The order of two members with different names. -/
  | swap {source : Thunk Bytes} {before after : List (String × Json)} {m m' : String × Json} :
      m.1 ≠ m'.1 →
      Alike .node (.obj source (before ++ m :: m' :: after))
        (.obj source (before ++ m' :: m :: after))
  /-- A member outside the read set. -/
  | unread {source : Thunk Bytes} {before after : List (String × Json)} {name : String} {v : Json} :
      ¬ IsRead (before ++ after) name →
      Alike .node (.obj source (before ++ after)) (.obj source (before ++ (name, v) :: after))
  /-- A member in front of one of the same name. -/
  | duplicate {source : Thunk Bytes} {before after : List (String × Json)} {name : String}
      {v w : Json} : (name, w) ∈ after →
      Alike .node (.obj source (before ++ after)) (.obj source (before ++ (name, v) :: after))

/-! ## 2. Looking up members -/

theorem Json.last?_append (name : String) (before after : List (String × Json)) :
    last? name (before ++ after) = (last? name after).or (last? name before) := by
  induction before with
  | nil => simp [last?]
  | cons m before ih =>
    obtain ⟨key, v⟩ := m
    simp only [List.cons_append, last?, ih]
    cases last? name after <;> rfl

theorem Json.last?_cons (name key : String) (v : Json) (rest : List (String × Json)) :
    last? name ((key, v) :: rest) =
      (last? name rest).or (if key = name then some v else none) := by
  rw [last?]
  cases last? name rest <;> rfl

section Lookup

variable {opts : Options} {named : Bool} {members members' : List (String × Json)}

theorem rel_refl {slot : Slot} (x : Option Json) : Option.Rel (Agree opts named slot) x x := by
  cases x with
  | none => exact .none
  | some v => exact .some (.refl v)

/-- Members that are there and alike are null on both sides or on neither. -/
theorem rel_present? {slot : Slot} {name : String}
    (h : Option.Rel (Agree opts named slot) (last? name members) (last? name members')) :
    Option.Rel (Agree opts named slot) (present? name members) (present? name members') := by
  unfold present?
  generalize last? name members = x at h
  generalize last? name members' = y at h
  cases h with
  | none => exact .none
  | some h =>
    have hr := h.resembles
    cases hr with
    | null => exact .none
    | _ => exact .some h

theorem readableId_of_rel
    (h : Option.Rel Resembles (last? "id" members) (last? "id" members')) :
    readableId members' = readableId members := by
  unfold readableId
  generalize last? "id" members = x at h
  generalize last? "id" members' = y at h
  cases h with
  | none => rfl
  | some h =>
    rename_i v w
    have hread := regards_toInt v w h
    dsimp only
    generalize v.toInt = r at hread
    generalize w.toInt = r' at hread
    cases hread <;> rfl

/-- **Two objects are interchangeable if looking up the members of their read sets gives alike
values.** -/
theorem interchangeable_of_last? {source source' : Thunk Bytes}
    (h : ∀ name, IsRead members name →
      Option.Rel (Agree opts named (slotOf name)) (last? name members) (last? name members')) :
    Interchangeable opts named (.obj source members) (.obj source' members') := by
  have hid := readableId_of_rel (Decode.resembles_of_agree (h "id" (Or.inr (Or.inl rfl))))
  refine interchangeable_obj (congrArg _ hid) (fun _ _ _ => hid) fun name hname => ?_
  exact rel_present? (h name (hname.imp_right Or.inr))

end Lookup

/-! ## 3. Single changes -/

section Changes

variable {opts : Options} {named : Bool} {slot : Slot} {source source' : Thunk Bytes}

theorem agree_arr {items items' : List Json}
    (h : List.Forall₂ (Agree opts named slot.item) items items') :
    Agree opts named slot (.arr source items) (.arr source' items') := by
  refine ⟨.arr _ _ _ _, fun _ => interchangeable_of_not_obj (by simp) (by simp), ?_⟩
  rintro rfl xs xs' ⟨s, heq⟩ ⟨s', heq'⟩
  cases heq
  cases heq'
  exact h.imp fun _ _ hagree => hagree.node rfl

theorem agree_obj {members members' : List (String × Json)}
    (h : slot = .node →
      Interchangeable opts named (.obj source members) (.obj source' members')) :
    Agree opts named slot (.obj source members) (.obj source' members') := by
  refine ⟨.obj _ _ _ _, h, ?_⟩
  rintro - items items' ⟨s, heq⟩
  cases heq

variable {before after : List (String × Json)}

/-- The value of a member is seen under its own name only, and only if no later member has it. -/
theorem rel_member {name : String} {v w : Json} (h : Agree opts named (slotOf name) v w)
    (name' : String) :
    Option.Rel (Agree opts named (slotOf name')) (last? name' (before ++ (name, v) :: after))
      (last? name' (before ++ (name, w) :: after)) := by
  rw [last?_append, last?_append, last?_cons, last?_cons]
  cases last? name' after with
  | some u => exact .some (.refl u)
  | none =>
    by_cases hname : name = name'
    · subst hname
      simp only [if_true, Option.none_or, Option.some_or]
      exact .some h
    · simp only [if_neg hname]
      exact rel_refl _

/-- **A change in one item.** -/
theorem agree_item {before after : List Json} {v w : Json} (h : Agree opts named slot.item v w) :
    Agree opts named slot (.arr source (before ++ v :: after))
      (.arr source' (before ++ w :: after)) := by
  refine agree_arr (List.rel_append (List.forall₂_same.mpr fun v _ => .refl v) ?_)
  exact .cons h (List.forall₂_same.mpr fun v _ => .refl v)

/-- **A change in one member.** -/
theorem agree_member {name : String} {v w : Json} (h : Agree opts named (slot.member name) v w) :
    Agree opts named slot (.obj source (before ++ (name, v) :: after))
      (.obj source' (before ++ (name, w) :: after)) := by
  refine agree_obj ?_
  rintro rfl
  exact interchangeable_of_last? fun name' _ => rel_member h name'

/-- Members with different names do not hide one another. -/
theorem last?_swap {m m' : String × Json} (h : m.1 ≠ m'.1) (name : String) :
    last? name (before ++ m' :: m :: after) = last? name (before ++ m :: m' :: after) := by
  obtain ⟨key, v⟩ := m
  obtain ⟨key', v'⟩ := m'
  simp only [last?_append, last?_cons]
  by_cases hkey : key = name
  · have hkey' : key' ≠ name := fun h' => h (hkey.trans h'.symm)
    simp [hkey, hkey']
  · simp [hkey]

theorem last?_insert_of_ne {name name' : String} (h : name ≠ name') (v : Json) :
    last? name' (before ++ (name, v) :: after) = last? name' (before ++ after) := by
  simp [last?_append, last?_cons, h]

/-- A member in front of one of the same name is out of sight. -/
theorem last?_insert_of_mem {name : String} {v w : Json} (h : (name, w) ∈ after)
    (name' : String) :
    last? name' (before ++ (name, v) :: after) = last? name' (before ++ after) := by
  by_cases hname : name = name'
  · subst hname
    have later : last? name after ≠ none := fun hnone => last?_eq_none_iff.mp hnone _ h rfl
    obtain ⟨u, hu⟩ := Option.ne_none_iff_exists'.mp later
    simp [last?_append, last?_cons, hu]
  · exact last?_insert_of_ne hname v

end Changes

/-- **Values that are alike agree**: each single change keeps the agreement of runs. -/
theorem Alike.agree {slot : Slot} {v w : Json} (h : Alike slot v w) (opts : Options)
    (named : Bool) : Agree opts named slot v w := by
  induction h with
  | refl slot v => exact .refl v
  | symm _ ih => exact ih.symm
  | trans _ _ ih ih' => exact ih.trans ih'
  | arr source source' => exact agree_arr (List.forall₂_same.mpr fun v _ => .refl v)
  | obj source source' =>
    exact agree_obj fun _ => interchangeable_of_last? fun _ _ => rel_refl _
  | item _ ih => exact agree_item ih
  | member _ ih => exact agree_member ih
  | swap hne =>
    refine agree_obj fun _ => interchangeable_of_last? fun name _ => ?_
    rw [last?_swap hne]
    exact rel_refl _
  | unread hunread =>
    refine agree_obj fun _ => interchangeable_of_last? fun name' hread => ?_
    rw [last?_insert_of_ne]
    · exact rel_refl _
    · rintro rfl
      exact hunread hread
  | duplicate hmem =>
    refine agree_obj fun _ => interchangeable_of_last? fun name' _ => ?_
    rw [last?_insert_of_mem hmem]
    exact rel_refl _

end SolidityTree
