import Mathlib.Data.List.Perm.Basic
import SolidityTree.Proofs.Owner

/-!
# Which nodes a walk visits, and in what order

A walk goes down as far as its caller lets it.  This module says what it visits without going down:
by the ADDRESSES of nodes, which are lists of child numbers.  One node is an ancestor of another if
its address is a proper prefix, and comes before it in pre-order if its address is smaller, letter by
letter, a prefix being smaller than what it is a prefix of.

* `mem_occurrences_iff`, `pairwise_occurrences`: `Node.occurrences` lists every address that leads
  somewhere with the node that it leads to, once and in this order.
* `visit_eq_filter`: the visits of a walk are the occurrences all of whose ancestors are entered.
  The depth of a visit is the length of its address, which is the number of ancestors
  (`countP_encloses`).

So pruning is a filter, and what it leaves alone can be read off: the order, and everything that is
not below a node that was pruned.

Contents
* §1  addresses
* §2  occurrences
* §3  ancestors
* §4  walks
-/

namespace SolidityTree

open Node

/-! ## 1. Addresses -/

/-- A node of a tree and its address: which child is taken at each step on the way to it. -/
structure Occurrence where
  address : List Nat
  node : Node

namespace Occurrence

/-- The same occurrence seen from the parent, of which the root is the child of a number. -/
def below (index : Nat) (o : Occurrence) : Occurrence := ⟨index :: o.address, o.node⟩

/-- The visit of an occurrence, whose depth is the length of its address. -/
def visit (o : Occurrence) : Visit := ⟨o.node, o.address.length⟩

/-- Whether an occurrence is a proper ancestor of another. -/
def Encloses (above o : Occurrence) : Prop := above.address <+: o.address ∧ above.address ≠ o.address

instance (above o : Occurrence) : Decidable (above.Encloses o) :=
  inferInstanceAs (Decidable (_ ∧ _))

end Occurrence

namespace Node

/-- The node that an address leads to, if it leads anywhere. -/
def under? (t : Node) : List Nat → Option Node
  | [] => some t
  | i :: address => (t.children.getD [])[i]?.bind fun c => c.under? address

theorem under?_cons_eq_some_iff {t s : Node} {i : Nat} {address : List Nat} :
    t.under? (i :: address) = some s ↔
      ∃ c, (t.children.getD [])[i]? = some c ∧ c.under? address = some s :=
  Option.bind_eq_some_iff

/-- Every part of the way leads somewhere. -/
theorem isSome_under? {t s : Node} {above address : List Nat}
    (h : t.under? address = some s) (hpre : above <+: address) : (t.under? above).isSome := by
  induction address generalizing t above with
  | nil =>
    rw [List.prefix_nil.mp hpre]
    rfl
  | cons i address ih =>
    obtain ⟨c, hc, hs⟩ := under?_cons_eq_some_iff.mp h
    rcases List.prefix_cons_iff.mp hpre with rfl | ⟨rest, rfl, hrest⟩
    · rfl
    · rw [under?, hc]
      exact ih hs hrest

/-! ## 2. Occurrences -/

mutual

/-- The occurrences at and below a node, a node before what is below it. -/
def occurrences : Node → List Occurrence
  | .sourceUnit head nodes => ⟨[], .sourceUnit head nodes⟩ :: occurrencesFrom 0 nodes
  | .contractDefinition head nodes =>
    ⟨[], .contractDefinition head nodes⟩ :: occurrencesFrom 0 nodes
  | .functionDefinition head body nodes =>
    ⟨[], .functionDefinition head body nodes⟩ :: occurrencesFrom 0 nodes
  | .unknown tag id field nodes => ⟨[], .unknown tag id field nodes⟩ :: occurrencesFrom 0 nodes
  | node => [⟨[], node⟩]

/-- The occurrences at and below some children, the first of which has a number. -/
def occurrencesFrom (index : Nat) : List Node → List Occurrence
  | [] => []
  | node :: rest => (occurrences node).map (.below index) ++ occurrencesFrom (index + 1) rest

end

theorem occurrencesFrom_eq (index : Nat) (nodes : List Node) :
    occurrencesFrom index nodes =
      (nodes.zipIdx index).flatMap fun p => p.1.occurrences.map (.below p.2) := by
  induction nodes generalizing index with
  | nil => rfl
  | cons t rest ih => rw [occurrencesFrom, ih, List.zipIdx_cons, List.flatMap_cons]

/-- **What the occurrences are.** -/
theorem occurrences_eq (t : Node) :
    t.occurrences = ⟨[], t⟩ ::
      (t.children.getD []).zipIdx.flatMap fun p => p.1.occurrences.map (.below p.2) := by
  cases t <;> simp [occurrences, occurrencesFrom_eq, children]

/-- **Every address that leads somewhere occurs**, with the node that it leads to. -/
theorem mem_occurrences_iff {t : Node} {o : Occurrence} :
    o ∈ t.occurrences ↔ t.under? o.address = some o.node := by
  induction t using induction_on_children generalizing o with
  | step t ih =>
    obtain ⟨address, node⟩ := o
    rw [occurrences_eq, List.mem_cons, List.mem_flatMap]
    cases address with
    | nil =>
      constructor
      · rintro (h | ⟨p, -, h⟩)
        · cases h
          rfl
        · obtain ⟨o, -, heq⟩ := List.mem_map.mp h
          cases heq
      · rintro ⟨⟩
        exact .inl rfl
    | cons i address =>
      rw [under?_cons_eq_some_iff]
      constructor
      · rintro (h | ⟨⟨c, j⟩, hc, h⟩)
        · cases h
        · obtain ⟨o, ho, heq⟩ := List.mem_map.mp h
          cases heq
          have hc := List.mem_zipIdx_iff_getElem?.mp hc
          exact ⟨c, hc, (ih c (List.mem_of_getElem? hc)).mp ho⟩
      · rintro ⟨c, hc, h⟩
        refine .inr ⟨(c, i), List.mem_zipIdx_iff_getElem?.mpr hc, ?_⟩
        exact List.mem_map.mpr ⟨⟨address, node⟩, (ih c (List.mem_of_getElem? hc)).mpr h, rfl⟩

/-- **In pre-order**: each address is smaller than those that come later, so none occurs twice. -/
theorem pairwise_occurrences (t : Node) :
    t.occurrences.Pairwise fun o o' => o.address < o'.address := by
  induction t using induction_on_children with
  | step t ih =>
    have numbered : ∀ (nodes : List Node) (index : Nat),
        (nodes.zipIdx index).Pairwise fun p p' => p.2 < p'.2 := by
      intro nodes
      induction nodes with
      | nil => exact fun _ => .nil
      | cons c rest ih =>
        intro index
        rw [List.zipIdx_cons, List.pairwise_cons]
        exact ⟨fun p hp => List.le_snd_of_mem_zipIdx hp, ih (index + 1)⟩
    rw [occurrences_eq, List.pairwise_cons, List.pairwise_flatMap]
    refine ⟨?_, ?_, ?_⟩
    · intro o ho
      obtain ⟨p, -, ho⟩ := List.mem_flatMap.mp ho
      obtain ⟨o', -, rfl⟩ := List.mem_map.mp ho
      exact List.nil_lt_cons _ _
    · rintro ⟨c, i⟩ hc
      have hc : c ∈ t.children.getD [] :=
        List.mem_of_getElem? (List.mem_zipIdx_iff_getElem?.mp hc)
      rw [List.pairwise_map]
      exact (ih c hc).imp fun h => List.cons_lt_cons_iff.mpr (.inr ⟨rfl, h⟩)
    · refine (numbered _ 0).imp ?_
      intro p p' hlt o ho o' ho'
      obtain ⟨q, -, rfl⟩ := List.mem_map.mp ho
      obtain ⟨q', -, rfl⟩ := List.mem_map.mp ho'
      exact List.cons_lt_cons_iff.mpr (.inl hlt)

end Node

/-! ## 3. Ancestors -/

namespace Occurrence

/-- The occurrences in a tree, if there is one. -/
def all (root : Option Node) : List Occurrence :=
  match root with
  | none => []
  | some t => t.occurrences

theorem mem_all_iff {root : Option Node} {o : Occurrence} :
    o ∈ all root ↔ ∃ t, root = some t ∧ t.under? o.address = some o.node := by
  cases root with
  | none => exact iff_of_false List.not_mem_nil (by rintro ⟨t, ⟨⟩, -⟩)
  | some t => simpa [all] using mem_occurrences_iff

theorem pairwise_all (root : Option Node) :
    (all root).Pairwise fun o o' => o.address < o'.address := by
  cases root with
  | none => exact .nil
  | some t => exact t.pairwise_occurrences

theorem Encloses.length_lt {above o : Occurrence} (h : above.Encloses o) :
    above.address.length < o.address.length :=
  lt_of_le_of_ne h.1.length_le fun heq => h.2 (h.1.eq_of_length heq)

/-- An occurrence has an ancestor at every smaller depth. -/
theorem exists_encloses {root : Option Node} {o : Occurrence} (h : o ∈ all root) {k : Nat}
    (hk : k < o.address.length) :
    ∃ above ∈ all root, above.Encloses o ∧ above.address = o.address.take k := by
  obtain ⟨t, rfl, ho⟩ := mem_all_iff.mp h
  obtain ⟨s, hs⟩ := Option.isSome_iff_exists.mp
    (isSome_under? ho (List.take_prefix k o.address))
  refine ⟨⟨o.address.take k, s⟩, mem_all_iff.mpr ⟨t, rfl, hs⟩, ⟨List.take_prefix k _, ?_⟩, rfl⟩
  intro heq
  have hlength : (o.address.take k).length = o.address.length := congrArg List.length heq
  rw [List.length_take] at hlength
  omega

/-- **The number of ancestors is the length of the address**: there is one at every smaller depth,
and no other. -/
theorem countP_encloses {root : Option Node} {o : Occurrence} (h : o ∈ all root) :
    (all root).countP (fun above => decide (above.Encloses o)) = o.address.length := by
  have distinct : (((all root).filter fun above => decide (above.Encloses o)).map
      address).Nodup := by
    rw [List.Nodup, List.pairwise_map]
    refine ((pairwise_all root).filter _).imp ?_
    intro o o' hlt heq
    rw [heq] at hlt
    exact List.lt_irrefl _ hlt
  have prefixes : ((List.range o.address.length).map o.address.take).Nodup := by
    rw [List.Nodup, List.pairwise_map]
    refine List.pairwise_lt_range.imp_of_mem ?_
    intro k l hk hl hlt heq
    have hlength := congrArg List.length heq
    simp only [List.mem_range] at hk hl
    simp only [List.length_take] at hlength
    omega
  have perm : (((all root).filter fun above => decide (above.Encloses o)).map address).Perm
      ((List.range o.address.length).map o.address.take) := by
    rw [List.perm_ext_iff_of_nodup distinct prefixes]
    intro a
    simp only [List.mem_map, List.mem_filter, decide_eq_true_eq, List.mem_range]
    constructor
    · rintro ⟨above, ⟨-, hencloses⟩, rfl⟩
      exact ⟨above.address.length, hencloses.length_lt,
        (List.prefix_iff_eq_take.mp hencloses.1).symm⟩
    · rintro ⟨k, hk, rfl⟩
      obtain ⟨above, habove, hencloses, haddress⟩ := exists_encloses h hk
      exact ⟨above, ⟨habove, hencloses⟩, haddress⟩
  rw [List.countP_eq_length_filter, ← List.length_map (f := address), perm.length_eq,
    List.length_map, List.length_range]

/-- **No ancestor is pruned**: all of them are entered. -/
def Open (root : Option Node) (enter : List Nat → Node → Bool) (o : Occurrence) : Prop :=
  ∀ above ∈ all root, above.Encloses o → enter above.address above.node = true

instance (root : Option Node) (enter : List Nat → Node → Bool) (o : Occurrence) :
    Decidable (o.Open root enter) :=
  inferInstanceAs (Decidable (∀ above ∈ all root, above.Encloses o → _))

end Occurrence

/-! ## 4. Walks -/

namespace Walk

open Occurrence

/-- Whether the nodes on the way from one address to another are entered, the end of the way left
out. -/
def leadsTo (enter : List Nat → Node → Bool) (start : List Nat) (t : Node) : List Nat → Bool
  | [] => true
  | i :: address =>
    enter start t && (t.children.getD [])[i]?.any fun c => leadsTo enter (start ++ [i]) c address

section LeadsTo

variable {enter : List Nat → Node → Bool} {start : List Nat}

theorem leadsTo_cons {t c : Node} {i : Nat} (hc : (t.children.getD [])[i]? = some c)
    (address : List Nat) : leadsTo enter start t (i :: address) =
      (enter start t && leadsTo enter (start ++ [i]) c address) := by
  rw [leadsTo, hc, Option.any_some]

/-- The nodes on the way are the ancestors. -/
theorem leadsTo_iff {t s : Node} {address : List Nat} (h : t.under? address = some s) :
    leadsTo enter start t address = true ↔
      ∀ above ∈ t.occurrences, above.Encloses ⟨address, s⟩ →
        enter (start ++ above.address) above.node = true := by
  induction address generalizing t start with
  | nil =>
    refine iff_of_true rfl ?_
    rintro above - ⟨hpre, hne⟩
    exact absurd (List.prefix_nil.mp hpre) hne
  | cons i address ih =>
    obtain ⟨c, hc, hs⟩ := under?_cons_eq_some_iff.mp h
    rw [leadsTo_cons hc, Bool.and_eq_true, ih hs]
    constructor
    · rintro ⟨hhere, hbelow⟩ ⟨above, a⟩ ha ⟨hpre, hne⟩
      have ha := mem_occurrences_iff.mp ha
      rcases List.prefix_cons_iff.mp hpre with rfl | ⟨rest, rfl, hrest⟩
      · cases ha
        rwa [List.append_nil]
      · obtain ⟨c', hc', ha⟩ := under?_cons_eq_some_iff.mp ha
        obtain rfl : c = c' := Option.some.inj (hc.symm.trans hc')
        have hbelow := hbelow ⟨rest, a⟩ (mem_occurrences_iff.mpr ha)
          ⟨hrest, fun heq => hne (congrArg (i :: ·) heq)⟩
        rwa [List.append_assoc] at hbelow
    · intro hall
      have hhere := hall ⟨[], t⟩ (mem_occurrences_iff.mpr rfl) ⟨List.nil_prefix, by simp⟩
      rw [List.append_nil] at hhere
      refine ⟨hhere, ?_⟩
      rintro ⟨above, a⟩ ha ⟨hpre, hne⟩
      have ha : t.under? (i :: above) = some a :=
        under?_cons_eq_some_iff.mpr ⟨c, hc, mem_occurrences_iff.mp ha⟩
      have hall := hall ⟨i :: above, a⟩ (mem_occurrences_iff.mpr ha)
        ⟨List.cons_prefix_cons.mpr ⟨rfl, hpre⟩, fun heq => hne (List.cons.inj heq).2⟩
      rwa [List.append_assoc]

end LeadsTo

/-- **Pruning is a filter**: a walk visits the occurrences to which entered nodes lead, in their
order. -/
theorem visit_eq_filter (enter : List Nat → Node → Bool) (start : List Nat) (t : Node) :
    visit enter start t = (t.occurrences.filter fun o => leadsTo enter start t o.address).map
      fun o => ⟨o.node, start.length + o.address.length⟩ := by
  induction t using induction_on_children generalizing start with
  | step t ih =>
    have child : ∀ p ∈ (t.children.getD []).zipIdx,
        ((p.1.occurrences.map (Occurrence.below p.2)).filter fun o =>
          leadsTo enter start t o.address).map
            (fun o => (⟨o.node, start.length + o.address.length⟩ : Visit)) =
        if enter start t then visit enter (start ++ [p.2]) p.1 else [] := by
      rintro ⟨c, i⟩ hp
      have hc := List.mem_zipIdx_iff_getElem?.mp hp
      rw [List.filter_map, List.map_map, ih c (List.mem_of_getElem? hc) (start ++ [i])]
      show (c.occurrences.filter fun o => leadsTo enter start t (i :: o.address)).map
        (fun o => (⟨o.node, start.length + (o.address.length + 1)⟩ : Visit)) = _
      simp only [leadsTo_cons hc, List.length_append, List.length_singleton,
        Nat.add_right_comm start.length 1, ← Nat.add_assoc]
      cases enter start t <;> simp
    rw [visit_eq, visitAll_eq, occurrences_eq, List.filter_cons_of_pos rfl, List.map_cons,
      List.filter_flatMap, List.map_flatMap, List.flatMap_congr child]
    cases enter start t <;> simp

/-- **The visits of a walk are the occurrences that no pruning reaches.** -/
theorem visitsAt_eq_filter (root : Option Node) (enter : List Nat → Node → Bool) :
    visitsAt root enter =
      ((all root).filter fun o => decide (o.Open root enter)).map Occurrence.visit := by
  cases root with
  | none => rfl
  | some t =>
    have hopen : ∀ o ∈ t.occurrences,
        leadsTo enter [] t o.address = decide (o.Open (some t) enter) := by
      intro o ho
      rw [Bool.eq_iff_iff, leadsTo_iff (mem_occurrences_iff.mp ho), decide_eq_true_iff]
      rfl
    rw [visitsAt, visit_eq_filter, List.filter_congr hopen]
    simp only [List.length_nil, Nat.zero_add]
    rfl

theorem everywhere_eq (root : Option Node) :
    everywhere root = (all root).map Occurrence.visit := by
  rw [everywhere, visits, visitsAt_eq_filter, List.filter_eq_self.mpr]
  intro o _
  rw [decide_eq_true_iff]
  exact fun _ _ _ => rfl

/-- What is entered down to a depth is open down to that depth, and no further. -/
theorem open_of_depth_iff {root : Option Node} {o : Occurrence} (h : o ∈ all root) (m : Nat) :
    o.Open root (fun address _ => decide (address.length < m)) ↔ o.address.length ≤ m := by
  constructor
  · intro hopen
    by_contra hdeep
    obtain ⟨above, habove, hencloses, haddress⟩ := exists_encloses h (Nat.lt_of_not_le hdeep)
    have hdepth : above.address.length < m := of_decide_eq_true (hopen above habove hencloses)
    rw [haddress, List.length_take] at hdepth
    omega
  · intro hle above _ hencloses
    exact decide_eq_true (Nat.lt_of_lt_of_le hencloses.length_lt hle)

/-- **What a walk visits.**  The occurrences in a tree are the addresses that lead somewhere, each
once and in pre-order, and an address has as many ancestors as it is long.  A walk visits those
all of whose ancestors it is told to enter, in this order and at this depth.  So its visits are some
of those of the walk that goes everywhere, in the same order; and what it is told at and below an
occurrence, be it of a node that occurs elsewhere, too, makes no difference outside.

A caller that looks at nodes and depths only is one of those that see occurrences, and a walk that
enters what is less deep than `m` visits what is at most `m` deep. -/
theorem visits_preorder (root : Option Node) (enter : List Nat → Node → Bool) :
    (∀ o, o ∈ all root ↔ ∃ t, root = some t ∧ t.under? o.address = some o.node) ∧
    (all root).Pairwise (fun o o' => o.address < o'.address) ∧
    (∀ o ∈ all root,
      (all root).countP (fun above => decide (above.Encloses o)) = o.address.length) ∧
    visitsAt root enter =
      ((all root).filter fun o => decide (o.Open root enter)).map Occurrence.visit ∧
    (visitsAt root enter).Sublist (everywhere root) ∧
    (∀ p ∈ all root, ∀ enter' : List Nat → Node → Bool,
      (∀ o ∈ all root, ¬ p.address <+: o.address →
        enter' o.address o.node = enter o.address o.node) →
      ∀ o ∈ all root, ¬ p.address <+: o.address → (o.Open root enter' ↔ o.Open root enter)) ∧
    (∀ fn : Node → Nat → Bool,
      visits root fn = visitsAt root fun address node => fn node address.length) ∧
    ∀ m, visits root (fun _ depth => decide (depth < m)) =
      (everywhere root).filter fun v => decide (v.depth ≤ m) := by
  refine ⟨fun o => mem_all_iff, pairwise_all root, fun o => countP_encloses,
    visitsAt_eq_filter root enter, ?_, ?_, fun _ => rfl, ?_⟩
  · rw [visitsAt_eq_filter, everywhere_eq]
    exact List.filter_sublist.map _
  · intro p _ enter' hsame o _ houtside
    -- an ancestor of what is outside the subtree is outside it too
    have hancestor : ∀ above ∈ all root, above.Encloses o →
        enter' above.address above.node = enter above.address above.node := by
      intro above habove hencloses
      exact hsame above habove fun hinside => houtside (hinside.trans hencloses.1)
    constructor
    · intro hopen above habove hencloses
      rw [← hancestor above habove hencloses]
      exact hopen above habove hencloses
    · intro hopen above habove hencloses
      rw [hancestor above habove hencloses]
      exact hopen above habove hencloses
  · intro m
    rw [visits, visitsAt_eq_filter, everywhere_eq, List.filter_map]
    refine congrArg (List.map Occurrence.visit) (List.filter_congr fun o ho => ?_)
    exact decide_eq_decide.mpr (open_of_depth_iff ho m)

end Walk

end SolidityTree
