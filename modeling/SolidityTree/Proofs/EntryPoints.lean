import SolidityTree.Proofs.Owner

/-!
# Functions that can be set off from outside

The entry points of a tree are picked from its functions by their heads alone: nobody looks at the
body.  That an entry point HAS a body is therefore no matter of the listing but of the tree, and
holds because decoding refuses a function that says it is implemented and has none.

* `isEntryPoint_eq_false_iff`: which functions are passed over, by their kind and visibility;
* `exists_descends`: every function that is listed stands somewhere in the tree, so what is known
  of all nodes of a decoded tree is known of it;
* `Mirrors.implemented_iff`: what the document has to say for a function to count as implemented.

Contents
* §1  the test
* §2  listed functions
* §3  entry points of decoded trees
-/

namespace SolidityTree

open Node

/-! ## 1. The test -/

namespace FunctionHead

variable {f : FunctionHead}

/-- **What an entry point is like.** -/
theorem isEntryPoint_eq_true_iff : f.isEntryPoint = true ↔
    f.implemented = true ∧ f.kind ≠ .freeFunction ∧
      ((f.kind = .constructor ∨ f.kind = .fallback ∨ f.kind = .receive) ∨
        f.visibility = .pub ∨ f.visibility = .external) := by
  cases hk : f.kind <;> simp [isEntryPoint, hk, FunctionKind.isSpecial]

/-- **What is no entry point**: the three reasons, and there is no other. -/
theorem isEntryPoint_eq_false_iff : f.isEntryPoint = false ↔
    f.implemented = false ∨ f.kind = .freeFunction ∨
      f.kind = .function ∧ (f.visibility = .priv ∨ f.visibility = .internal) := by
  cases hi : f.implemented <;> cases hk : f.kind <;> cases hv : f.visibility <;>
    simp [isEntryPoint, hi, hk, hv, FunctionKind.isSpecial]

end FunctionHead

/-! ## 2. Listed functions -/

/-- A way down through children is a way down through parts. -/
theorem Node.Above.exists_descends {t s : Node} {ancestors : List Node}
    (h : Above t ancestors s) : ∃ path, Descends t path s := by
  induction h with
  | top => exact ⟨[], .here t⟩
  | child _ hc ih =>
    obtain ⟨path, hpath⟩ := ih
    obtain ⟨d, hd⟩ := children_subset_parts hc
    exact ⟨path ++ [d], hpath.trans (.down hd (.here _))⟩

namespace Functions

variable {root : Node} {r : FunctionRef}

/-- **Every function that is listed stands in the tree.** -/
theorem exists_descends (h : r ∈ all (some root)) : ∃ path, Descends root path r.node := by
  rw [all_eq] at h
  obtain ⟨⟨node, ancestors⟩, hl, href⟩ := List.mem_filterMap.mp h
  obtain ⟨inner, -, habove⟩ := mem_lineages_iff.mp hl
  cases node with
  | functionDefinition head body nodes =>
    cases href
    exact habove.exists_descends
  | _ => cases href

theorem mem_entryPoints_iff {root : Option Node} :
    r ∈ entryPoints root ↔ r ∈ all root ∧ r.head.isEntryPoint = true :=
  List.mem_filter

end Functions

/-- A member that is missing has no other value than null. -/
theorem Missing.eq_null {members : List (String × Json)} {name : String} {v : Json}
    (h : Missing members name) (hv : Has members name v) : v = .null := by
  rcases h with habsent | hnull
  · obtain ⟨before, after, rfl, -⟩ := hv
    exact absurd rfl (habsent (name, v) (by simp))
  · exact Json.has_unique hv hnull

/-- **When a function counts as implemented that does not say so**: exactly if it has a body. -/
theorem Mirrors.implemented_iff {v : Json} {head : FunctionHead} {body : Option Node}
    {nodes : List Node} (h : Mirrors v (.functionDefinition head body nodes)) :
    ∃ source members, v = .obj source members ∧ (Missing members "implemented" →
      (head.implemented = true ↔ ∃ b, Has members "body" b ∧ b ≠ .null)) := by
  -- a member that is missing leaves the default, which is whether there is a body
  have default : ∀ {members : List (String × Json)} {hasBody : Bool},
      head.Matches members hasBody → Missing members "implemented" →
      head.implemented = hasBody := by
    intro members hasBody hmatches hmissing
    obtain ⟨x, hx, heq⟩ := hmatches.implemented
    cases x with
    | none => exact heq.symm
    | some b =>
      obtain ⟨w, hw, hne, -⟩ := hx
      exact absurd (hmissing.eq_null hw) hne
  cases h with
  | functionDeclaration _ hmatches hbody _ _ =>
    refine ⟨_, _, rfl, fun hmissing => ?_⟩
    rw [default hmatches hmissing]
    refine iff_of_false (by decide) ?_
    rintro ⟨b, hb, hne⟩
    exact hne (hbody.eq_null hb)
  | functionDefinition _ hmatches hb hne _ _ _ _ =>
    refine ⟨_, _, rfl, fun hmissing => ?_⟩
    rw [default hmatches hmissing]
    exact iff_of_true rfl ⟨_, hb, hne⟩

/-! ## 3. Decoded trees -/

namespace Functions

/-- The body of a listed function, and the words that it was given, are those of a sound node. -/
theorem body_of_implemented {root : Node} {r : FunctionRef} (hw : root.WellFormed)
    (h : r ∈ all (some root)) (hi : r.head.implemented = true) :
    ∃ b, r.body = some b ∧ b.kind = some .block := by
  obtain ⟨path, hpath⟩ := exists_descends h
  obtain ⟨-, -, -, hblock, hbody⟩ := hw path _ hpath
  obtain ⟨b, hb⟩ := Option.isSome_iff_exists.mp (hbody hi)
  exact ⟨b, hb, hblock b hb⟩

open Classical in
/-- **The entry points of a decoded document can be set off.**  They are some of its functions, in the
same order, with the same owners and each as often.  Each of them has a body, is no free function,
and is run without being called by name or is open to callers.  A function that is not among them
is not implemented, or is free, or is an ordinary function that is private or internal.  If its
object does not say whether it is implemented, it is exactly if the object has a body. -/
theorem entryPoints_of_decode {opts : Options} {document : Bytes} {root : Node}
    (h : (decode opts document).result = .ok root) :
    (entryPoints (some root)).Sublist (all (some root)) ∧
    (∀ r ∈ entryPoints (some root),
      (entryPoints (some root)).count r = (all (some root)).count r ∧
      (∃ b, r.body = some b ∧ b.kind = some .block) ∧ r.head.kind ≠ .freeFunction ∧
      ((r.head.kind = .constructor ∨ r.head.kind = .fallback ∨ r.head.kind = .receive) ∨
        r.head.visibility = .pub ∨ r.head.visibility = .external)) ∧
    (∀ r ∈ all (some root), r ∉ entryPoints (some root) ↔
      r.head.implemented = false ∨ r.head.kind = .freeFunction ∨
        r.head.kind = .function ∧ (r.head.visibility = .priv ∨ r.head.visibility = .internal)) ∧
    ∃ v, Json.parse? document = some v ∧ ∀ r ∈ all (some root), ∃ path source members,
      Descends root path r.node ∧ v.at? path = some (.obj source members) ∧
      Mirrors (.obj source members) r.node ∧
      (Missing members "implemented" →
        (r.head.implemented = true ↔ ∃ b, Has members "body" b ∧ b ≠ .null)) := by
  obtain ⟨v, hv, hmirrors⟩ := mirrors_of_decode h
  refine ⟨List.filter_sublist, ?_, ?_, v, hv, ?_⟩
  · intro r hr
    obtain ⟨hall, hentry⟩ := mem_entryPoints_iff.mp hr
    obtain ⟨hi, hrest⟩ := FunctionHead.isEntryPoint_eq_true_iff.mp hentry
    exact ⟨List.count_filter hentry, body_of_implemented hmirrors.wellFormed hall hi, hrest⟩
  · intro r hr
    rw [mem_entryPoints_iff, ← FunctionHead.isEntryPoint_eq_false_iff]
    simp [hr]
  · intro r hr
    obtain ⟨path, hpath⟩ := exists_descends hr
    obtain ⟨w, hw, hm⟩ := hmirrors.at? hpath
    obtain ⟨source, members, rfl, himplemented⟩ := Mirrors.implemented_iff hm
    exact ⟨path, source, members, hpath, hw, hm, himplemented⟩

/-- The object of a function, given its name, its visibility and its other members. -/
def written (name visibility : String) (rest : Bytes) : Bytes :=
  utf8 "\x7b\"nodeType\":" ++ utf8 "\"FunctionDefinition\"," ++ utf8 "\"id\":2,\"kind\":" ++
    utf8 "\"function\"," ++ utf8 "\"stateMutability\":" ++ utf8 "\"view\",\"name\":\"" ++ utf8 name ++
    utf8 "\",\"visibility\":\"" ++ utf8 visibility ++ utf8 "\"" ++ rest ++ utf8 "\x7d"

/-- A contract with three functions.  The first has a body and does not say that it is implemented;
the second is internal; the third has no body. -/
def writtenContract : Bytes :=
  let body := utf8 ",\"body\":\x7b\"nodeType\":" ++ utf8 "\"Block\",\"id\":9," ++
    utf8 "\"src\":\"\",\"statements\":[]\x7d"
  utf8 "\x7b\"nodeType\":" ++ utf8 "\"ContractDefinition\"," ++ utf8 "\"id\":1,\"name\":\"A\"," ++
    utf8 "\"nodes\":[" ++ written "f" "external" body ++ utf8 "," ++
    written "g" "internal" (utf8 ",\"implemented\":true" ++ body) ++ utf8 "," ++
    written "h" "public" (utf8 ",\"implemented\":null") ++ utf8 "]\x7d"

/-- Of the three functions only the first is an entry point. -/
theorem entryPoints_of_decode_three :
    ∃ root, (decode ⟨0, false⟩ writtenContract).result = .ok root ∧
      (all (some root)).map FunctionRef.text = ["A.f", "A.g", "A.h"] ∧
      (entryPoints (some root)).map FunctionRef.text = ["A.f"] ∧
      (entryPoints (some root)).Sublist (all (some root)) ∧
      ∀ r ∈ entryPoints (some root), ∃ b, r.body = some b ∧ b.kind = some .block := by
  have of_map : ∀ {x : Except Failure Node} {f : Node → List String × List String} {l},
      x.toOption.map f = some l → ∃ root, x = .ok root ∧ f root = l := by
    rintro (e | root) f l h
    · cases h
    · exact ⟨root, rfl, Option.some.inj h⟩
  obtain ⟨root, hroot, hlists⟩ := of_map (x := (decode ⟨0, false⟩ writtenContract).result)
    (f := fun t =>
      ((all (some t)).map FunctionRef.text, (entryPoints (some t)).map FunctionRef.text))
    (l := (["A.f", "A.g", "A.h"], ["A.f"])) (by decide +kernel)
  obtain ⟨hall, hentry⟩ := Prod.mk.inj hlists
  obtain ⟨hsublist, hentries, -⟩ := entryPoints_of_decode hroot
  exact ⟨root, hroot, hall, hentry, hsublist, fun r hr => (hentries r hr).2.1⟩

end Functions

end SolidityTree
