import SolidityTree.Json.Reader
import SolidityTree.Proofs.Writing

/-!
# Values and the texts they were read from

A value keeps the text it was read from.  This module says that the text is the right one: EVERY
value that lies anywhere inside the value of a document, read again from its own text as a document
of its own, is the same value (`parse?_text`), and a document is the text of its value with white
space around it (`exists_gaps`).

The reader keeps a stack, so a piece of text is read at some depth and below some open arrays and
objects.  `Spells n t v` takes these away: wherever a value may stand, with no more than `n` arrays
and objects open around it, the reader comes over the text `t` and has `v`.  A successful run is
then taken apart from the front.  What follows a place where a value must come is the text of a
value (`ValueAhead`), what follows a value inside an array is the rest of the array (`ItemsAhead`),
and the same for objects (`MembersAhead`); each is shown for longer texts from shorter ones.

Contents
* §1  values inside values
* §2  texts of values
* §3  words and strings
* §4  arrays and objects
* §5  taking a run apart
* §6  documents
-/

namespace SolidityTree.Json

/-! ## 1. Values inside values -/

/-- `Within v w`: `w` is `v` or lies somewhere inside it. -/
inductive Within : Json → Json → Prop
  | here (v : Json) : Within v v
  | item {source : Thunk Bytes} {items : List Json} {v w : Json} :
      v ∈ items → Within v w → Within (.arr source items) w
  | member {source : Thunk Bytes} {members : List (String × Json)} {name : String} {v w : Json} :
      (name, v) ∈ members → Within v w → Within (.obj source members) w

/-- Every value inside `v` is read from its own text. -/
def Rereadable (v : Json) : Prop := ∀ w, Within v w → parse? w.text = some w

/-! ## 2. Texts -/

/-- A run of white space between tokens. -/
def Gap (g : Bytes) : Prop := ∀ b ∈ g, isGap b = true

/-- A byte that a value may begin or end with. -/
def isEdge (b : UInt8) : Bool :=
  isWordByte b || b = Ascii.quote || b = Ascii.openBracket || b = Ascii.closeBracket ||
    b = Ascii.openBrace || b = Ascii.closeBrace

/-- `Spells n t v`: wherever a value may stand, with at most `n` arrays and objects open around it,
the reader comes over `t` and has `v`. -/
def Spells (n : Nat) (t : Bytes) (v : Json) : Prop :=
  ∀ {place : Place} {stack : List Frame} {rest : Bytes}, place.AdmitsValue → stack.length ≤ n →
    EndsWord rest → run ⟨.between place, stack⟩ (t ++ rest) = run (put v stack) rest

/-- `OwnText n t v`: the text `t` spells `v`, which keeps it and is rereadable. -/
structure OwnText (n : Nat) (t : Bytes) (v : Json) : Prop where
  spells : Spells n t v
  text : v.text = t
  rereadable : Rereadable v
  first : ∃ b rest, t = b :: rest ∧ isEdge b = true
  last : ∃ front b, t = front ++ [b] ∧ isEdge b = true

theorem endsWord_nil : EndsWord [] := by
  rintro b bs ⟨⟩

theorem Spells.parse? {n : Nat} {t : Bytes} {v : Json} (h : Spells n t v) :
    Json.parse? t = some v := by
  have hrun : run ⟨.between .value, []⟩ (t ++ []) = run (put v []) [] :=
    h (Or.inl rfl) (Nat.zero_le n) endsWord_nil
  rw [List.append_nil] at hrun
  exact hrun

/-- The piece of a text in front of its end. -/
theorem cut_append (t rest : Bytes) : cut (t ++ rest) rest = ⟨fun _ => t⟩ := by
  unfold cut
  congr 1
  funext _
  rw [List.length_append, Nat.add_sub_cancel, List.take_left]

theorem run_gap {place : Place} {stack : List Frame} {g : Bytes} (hg : Gap g) (rest : Bytes) :
    run ⟨.between place, stack⟩ (g ++ rest) = run ⟨.between place, stack⟩ rest := by
  induction g with
  | nil => rfl
  | cons b g ih =>
    have hb : isGap b = true := hg b List.mem_cons_self
    have hstep : State.step ⟨.between place, stack⟩ b (g ++ rest) =
        some ⟨.between place, stack⟩ := by
      simp [State.step, stepBetween, hb]
    rw [List.cons_append, run_of_step hstep, ih fun b' hb' => hg b' (List.mem_cons_of_mem b hb')]

/-- Behind a complete value the reader is between two tokens. -/
theorem put_between (v : Json) (stack : List Frame) :
    ∃ place stack', put v stack = ⟨.between place, stack'⟩ := by
  cases stack with
  | nil => exact ⟨_, _, rfl⟩
  | cons frame stack => cases frame <;> exact ⟨_, _, rfl⟩

/-- A text is white space, or white space in front of another byte. -/
theorem gap_or_byte (text : Bytes) :
    Gap text ∨ ∃ g b rest, text = g ++ b :: rest ∧ Gap g ∧ isGap b = false := by
  induction text with
  | nil => exact Or.inl (by rintro b ⟨⟩)
  | cons b text ih =>
    cases hb : isGap b with
    | false => exact Or.inr ⟨[], b, text, rfl, by rintro b ⟨⟩, hb⟩
    | true =>
      have more : ∀ g, Gap g → Gap (b :: g) := by
        intro g hg b' hb'
        rcases List.mem_cons.mp hb' with rfl | hb'
        · exact hb
        · exact hg b' hb'
      rcases ih with hg | ⟨g, c, rest, rfl, hg, hc⟩
      · exact Or.inl (more text hg)
      · exact Or.inr ⟨b :: g, c, rest, rfl, more g hg, hc⟩

/-- Between two tokens a text that is read to the end has another token, unless its value is
complete. -/
theorem exists_byte {place : Place} {stack : List Frame} {text : Bytes} {root : Json}
    (unfinished : ∀ v, place ≠ .done v) (h : run ⟨.between place, stack⟩ text = some root) :
    ∃ g b rest st, text = g ++ b :: rest ∧ Gap g ∧ isGap b = false ∧
      stepBetween place stack b rest = some st ∧ run st rest = some root := by
  rcases gap_or_byte text with hg | ⟨g, b, rest, rfl, hg, hb⟩
  · rw [← List.append_nil text, run_gap hg] at h
    cases place with
    | done v => exact absurd rfl (unfinished v)
    | _ => cases h
  · rw [run_gap hg, run] at h
    have hstep : State.step ⟨.between place, stack⟩ b rest = stepBetween place stack b rest := rfl
    rw [hstep] at h
    split at h
    · cases h
    · next st hst => exact ⟨g, b, rest, st, rfl, hg, hb, hst, h⟩

/-! ## 3. Words and strings -/

/-- **A word that is read to its end.** -/
theorem exists_word {stack : List Frame} {root : Json} : ∀ {text read : Bytes},
    run ⟨.word read, stack⟩ text = some root →
    ∃ w v rest, text = w ++ rest ∧ (∀ b ∈ w, isWordByte b = true) ∧
      ofWord? (read.reverse ++ w) = some v ∧ run (put v stack) rest = some root
  | [], read, h => by
    cases stack with
    | nil =>
      have hv : ofWord? read.reverse = some root := h
      exact ⟨[], root, [], rfl, by simp, by rw [List.append_nil]; exact hv, rfl⟩
    | cons frame stack => cases h
  | b :: text, read, h => by
    cases hb : isWordByte b with
    | true =>
      have hstep : State.step ⟨.word read, stack⟩ b text = some ⟨.word (b :: read), stack⟩ := by
        simp [State.step, hb]
      rw [run_of_step hstep] at h
      obtain ⟨w, v, rest, rfl, hw, hv, hrun⟩ := exists_word h
      rw [List.reverse_cons, List.append_assoc, List.singleton_append] at hv
      refine ⟨b :: w, v, rest, rfl, ?_, hv, hrun⟩
      intro b' hb'
      rcases List.mem_cons.mp hb' with rfl | hb'
      · exact hb
      · exact hw b' hb'
    | false =>
      cases hv : ofWord? read.reverse with
      | none =>
        have hstep : State.step ⟨.word read, stack⟩ b text = none := by
          simp [State.step, hb, hv]
        rw [run, hstep] at h
        cases h
      | some v =>
        rw [run_word_end hv (endsWord_cons hb text)] at h
        exact ⟨[], v, b :: text, rfl, by simp, by rw [List.append_nil]; exact hv, h⟩

/-- Only a value without parts is written as a word. -/
theorem ofWord?_eq_some {w : Bytes} {v : Json} (h : ofWord? w = some v) :
    v.text = w ∧ ∀ u, Within v u → u = v := by
  have leaf : ∀ {v : Json}, (∀ source items, v ≠ .arr source items) →
      (∀ source members, v ≠ .obj source members) → ∀ u, Within v u → u = v := by
    intro v harr hobj u hu
    cases hu with
    | here => rfl
    | item => exact absurd rfl (harr _ _)
    | member => exact absurd rfl (hobj _ _)
  unfold ofWord? at h
  split at h
  · next hw =>
    cases h
    exact ⟨hw.symm, leaf (by simp) (by simp)⟩
  · split at h
    · next hw =>
      cases h
      exact ⟨hw.symm, leaf (by simp) (by simp)⟩
    · split at h
      · next hw =>
        cases h
        exact ⟨hw.symm, leaf (by simp) (by simp)⟩
      · split at h
        · cases h
          exact ⟨rfl, leaf (by simp) (by simp)⟩
        · cases h

theorem ownText_word (n : Nat) {w : Bytes} {v : Json} (hne : w ≠ [])
    (hw : ∀ b ∈ w, isWordByte b = true) (hv : ofWord? w = some v) : OwnText n w v := by
  obtain ⟨htext, hleaf⟩ := ofWord?_eq_some hv
  have spells : Spells n w v := fun hp _ hr => run_word hp hne hw hv hr
  have edge : ∀ b ∈ w, isEdge b = true := by
    intro b hb
    simp [isEdge, hw b hb]
  refine ⟨spells, htext, ?_, ?_, ?_⟩
  · intro u hu
    rw [hleaf u hu, htext]
    exact spells.parse?
  · obtain ⟨b, rest, rfl⟩ := List.exists_cons_of_ne_nil hne
    exact ⟨b, rest, rfl, edge b List.mem_cons_self⟩
  · exact ⟨w.dropLast, w.getLast hne, (List.dropLast_append_getLast hne).symm,
      edge _ (List.getLast_mem hne)⟩

/-- **A string that is read to its end.**  What stands between the quotes is read alike whatever
comes after it and whatever is open around it. -/
theorem exists_string {isName : Bool} {stack : List Frame} {root : Json} :
    ∀ {text read : Bytes} {escaped : Bool},
    run ⟨.string isName read escaped, stack⟩ text = some root →
    ∃ body rest st, text = body ++ Ascii.quote :: rest ∧
      endString isName (read.reverse ++ body) stack = some st ∧ run st rest = some root ∧
      ∀ stack' rest' st', endString isName (read.reverse ++ body) stack' = some st' →
        run ⟨.string isName read escaped, stack'⟩ (body ++ Ascii.quote :: rest') = run st' rest'
  | [], read, escaped, h => by cases h
  | b :: text, read, escaped, h => by
    by_cases control : b < 0x20
    · have hstep : State.step ⟨.string isName read escaped, stack⟩ b text = none := by
        simp [State.step, control]
      rw [run, hstep] at h
      cases h
    by_cases closing : escaped = false ∧ b = Ascii.quote
    · obtain ⟨rfl, rfl⟩ := closing
      have hstep : ∀ stack rest, State.step ⟨.string isName read false, stack⟩ Ascii.quote rest =
          endString isName read.reverse stack := fun _ _ => rfl
      rw [run, hstep] at h
      split at h
      · cases h
      · next st hst =>
        refine ⟨[], text, st, rfl, by rw [List.append_nil]; exact hst, h, ?_⟩
        intro stack' rest' st' hst'
        rw [List.append_nil] at hst'
        rw [List.nil_append, run_of_step ((hstep stack' rest').trans hst')]
    · -- any other byte is taken as it is; only the escape changes
      obtain ⟨escaped', hstep⟩ : ∃ escaped', ∀ stack rest,
          State.step ⟨.string isName read escaped, stack⟩ b rest =
            some ⟨.string isName (b :: read) escaped', stack⟩ := by
        cases escaped with
        | true => exact ⟨false, fun _ _ => by simp [State.step, control]⟩
        | false =>
          have hq : b ≠ Ascii.quote := fun hq => closing ⟨rfl, hq⟩
          exact ⟨decide (b = Ascii.backslash), fun _ _ => by simp [State.step, control, hq]⟩
      rw [run_of_step (hstep stack text)] at h
      obtain ⟨body, rest, st, rfl, hst, hrun, again⟩ := exists_string h
      rw [List.reverse_cons, List.append_assoc, List.singleton_append] at hst again
      refine ⟨b :: body, rest, st, rfl, hst, hrun, ?_⟩
      intro stack' rest' st' hst'
      rw [List.cons_append, run_of_step (hstep stack' _)]
      exact again stack' rest' st' hst'

theorem ownText_string (n : Nat) {body : Bytes} {s : String} (hs : ofBody? body = some s)
    (again : ∀ stack rest st, endString false body stack = some st →
      run ⟨.string false [] false, stack⟩ (body ++ Ascii.quote :: rest) = run st rest) :
    OwnText n (Ascii.quote :: (body ++ [Ascii.quote]))
      (.str ⟨fun _ => Ascii.quote :: body ++ [Ascii.quote]⟩ s) := by
  have spells : Spells n (Ascii.quote :: (body ++ [Ascii.quote]))
      (.str ⟨fun _ => Ascii.quote :: body ++ [Ascii.quote]⟩ s) := by
    intro place stack rest hp _ _
    have hopen : ∀ rest, State.step ⟨.between place, stack⟩ Ascii.quote rest =
        some ⟨.string false [] false, stack⟩ := by
      rcases hp with rfl | rfl
      · exact fun _ => rfl
      · exact fun _ => rfl
    have hend : endString false body stack =
        some (put (.str ⟨fun _ => Ascii.quote :: body ++ [Ascii.quote]⟩ s) stack) := by
      rw [endString, hs]
      rfl
    rw [List.cons_append, run_of_step (hopen _), List.append_assoc, List.singleton_append]
    exact again stack rest _ hend
  refine ⟨spells, rfl, ?_, ⟨_, _, rfl, by decide⟩,
    ⟨Ascii.quote :: body, Ascii.quote, rfl, by decide⟩⟩
  rintro u ⟨⟩
  exact spells.parse?

/-! ## 4. Arrays and objects -/

/-- `RestOfItems n t vs`: inside an array, with at most `n` arrays and objects open around it, the
reader comes over `t` behind an item and has the whole array, to which `t` adds the items `vs`. -/
structure RestOfItems (n : Nat) (t : Bytes) (vs : List Json) : Prop where
  spells : ∀ {stack : List Frame} {start : Bytes} {items : List Json} {rest : Bytes},
    stack.length ≤ n → run ⟨.between .next, .arr start items :: stack⟩ (t ++ rest) =
      run (put (.arr (cut start rest) (items.reverse ++ vs)) stack) rest
  rereadable : ∀ v ∈ vs, Rereadable v
  endsWord : ∀ rest, EndsWord (t ++ rest)
  last : ∃ front, t = front ++ [Ascii.closeBracket]

/-- `RestOfMembers n t ms`: the same for an object and the members `ms`. -/
structure RestOfMembers (n : Nat) (t : Bytes) (ms : List (String × Json)) : Prop where
  spells : ∀ {stack : List Frame} {start : Bytes} {members : List (String × Json)} {name : String}
    {rest : Bytes}, stack.length ≤ n →
    run ⟨.between .next, .obj start members name :: stack⟩ (t ++ rest) =
      run (put (.obj (cut start rest) (members.reverse ++ ms)) stack) rest
  rereadable : ∀ m ∈ ms, Rereadable m.2
  endsWord : ∀ rest, EndsWord (t ++ rest)
  last : ∃ front, t = front ++ [Ascii.closeBrace]

theorem endsWord_gap {g : Bytes} (hg : Gap g) {b : UInt8} (hb : isWordByte b = false)
    (rest : Bytes) : EndsWord (g ++ b :: rest) := by
  cases g with
  | nil => exact endsWord_cons hb rest
  | cons c g =>
    refine endsWord_cons ?_ _
    by_contra hc
    have hgap := hg c List.mem_cons_self
    rw [(beginValue_word [] [] (by simpa using hc)).1] at hgap
    cases hgap

/-- An array or object whose own text spells it is rereadable if everything directly inside it
is. -/
theorem rereadable_arr {n : Nat} {t : Bytes} {vs : List Json}
    (h : Spells n t (.arr ⟨fun _ => t⟩ vs)) (hvs : ∀ v ∈ vs, Rereadable v) :
    Rereadable (.arr ⟨fun _ => t⟩ vs) := by
  intro u hu
  cases hu with
  | here => exact h.parse?
  | item hv hu => exact hvs _ hv u hu

theorem rereadable_obj {n : Nat} {t : Bytes} {ms : List (String × Json)}
    (h : Spells n t (.obj ⟨fun _ => t⟩ ms)) (hms : ∀ m ∈ ms, Rereadable m.2) :
    Rereadable (.obj ⟨fun _ => t⟩ ms) := by
  intro u hu
  cases hu with
  | here => exact h.parse?
  | member hv hu => exact hms _ hv u hu

/-- **The text of an array**: what stands behind its bracket is read alike wherever the array
stands. -/
theorem ownText_arr {n : Nat} {t : Bytes} {vs : List Json} (fits : n < nestingLimit)
    (spells : ∀ {stack : List Frame} {start rest : Bytes}, stack.length ≤ n →
      run ⟨.between .firstItem, .arr start [] :: stack⟩ (t ++ rest) =
        run (put (.arr (cut start rest) vs) stack) rest)
    (hvs : ∀ v ∈ vs, Rereadable v) (last : ∃ front, t = front ++ [Ascii.closeBracket]) :
    OwnText n (Ascii.openBracket :: t) (.arr ⟨fun _ => Ascii.openBracket :: t⟩ vs) := by
  have whole : Spells n (Ascii.openBracket :: t) (.arr ⟨fun _ => Ascii.openBracket :: t⟩ vs) := by
    intro place stack rest hp hn _
    rw [List.cons_append, run_of_step (step_openBracket hp _ (Nat.lt_of_le_of_lt hn fits)),
      spells hn, ← List.cons_append, cut_append]
  obtain ⟨front, rfl⟩ := last
  exact ⟨whole, rfl, rereadable_arr whole hvs, ⟨_, _, rfl, by decide⟩,
    ⟨Ascii.openBracket :: front, Ascii.closeBracket, rfl, by decide⟩⟩

theorem ownText_obj {n : Nat} {t : Bytes} {ms : List (String × Json)} (fits : n < nestingLimit)
    (spells : ∀ {stack : List Frame} {start rest : Bytes}, stack.length ≤ n →
      run ⟨.between .firstName, .obj start [] "" :: stack⟩ (t ++ rest) =
        run (put (.obj (cut start rest) ms) stack) rest)
    (hms : ∀ m ∈ ms, Rereadable m.2) (last : ∃ front, t = front ++ [Ascii.closeBrace]) :
    OwnText n (Ascii.openBrace :: t) (.obj ⟨fun _ => Ascii.openBrace :: t⟩ ms) := by
  have whole : Spells n (Ascii.openBrace :: t) (.obj ⟨fun _ => Ascii.openBrace :: t⟩ ms) := by
    intro place stack rest hp hn _
    rw [List.cons_append, run_of_step (step_openBrace hp _ (Nat.lt_of_le_of_lt hn fits)),
      spells hn, ← List.cons_append, cut_append]
  obtain ⟨front, rfl⟩ := last
  exact ⟨whole, rfl, rereadable_obj whole hms, ⟨_, _, rfl, by decide⟩,
    ⟨Ascii.openBrace :: front, Ascii.closeBrace, rfl, by decide⟩⟩

/-! ## 5. Taking a run apart

Each of the three statements is about the texts of one length; what they have in front of them is
taken off, and what is left is shorter. -/

/-- Where a value must come, the text goes on with the text of a value. -/
def ValueAhead (text : Bytes) : Prop :=
  ∀ (stack : List Frame) (root : Json), run ⟨.between .value, stack⟩ text = some root →
    ∃ g t v rest, text = g ++ (t ++ rest) ∧ Gap g ∧ OwnText stack.length t v ∧
      run (put v stack) rest = some root

/-- Behind an item, the text goes on with the rest of the array. -/
def ItemsAhead (text : Bytes) : Prop :=
  ∀ (stack : List Frame) (start : Bytes) (items : List Json) (root : Json),
    run ⟨.between .next, .arr start items :: stack⟩ text = some root →
    ∃ t vs rest, text = t ++ rest ∧ RestOfItems stack.length t vs ∧
      run (put (.arr (cut start rest) (items.reverse ++ vs)) stack) rest = some root

/-- Behind a member, the text goes on with the rest of the object. -/
def MembersAhead (text : Bytes) : Prop :=
  ∀ (stack : List Frame) (start : Bytes) (members : List (String × Json)) (name : String)
    (root : Json), run ⟨.between .next, .obj start members name :: stack⟩ text = some root →
    ∃ t ms rest, text = t ++ rest ∧ RestOfMembers stack.length t ms ∧
      run (put (.obj (cut start rest) (members.reverse ++ ms)) stack) rest = some root

/-- **A member**: its name, a colon and its value.  Where the name of a member must come, the text
goes on with a member. -/
theorem exists_member {text : Bytes} (value : ∀ text', text'.length < text.length → ValueAhead text')
    {stack : List Frame} {start : Bytes} {members : List (String × Json)} {before : String}
    {root : Json} (h : run ⟨.between .name, .obj start members before :: stack⟩ text = some root) :
    ∃ g t name v rest, text = g ++ (Ascii.quote :: t ++ rest) ∧ Gap g ∧ Rereadable v ∧
      run ⟨.between .next, .obj start ((name, v) :: members) name :: stack⟩ rest = some root ∧
      ∀ {stack' : List Frame} {start' : Bytes} {members' : List (String × Json)} {before' : String}
        {place' : Place} {rest' : Bytes}, stack'.length ≤ stack.length → place'.AdmitsName →
        EndsWord rest' →
        run ⟨.between place', .obj start' members' before' :: stack'⟩ (Ascii.quote :: t ++ rest') =
          run ⟨.between .next, .obj start' ((name, v) :: members') name :: stack'⟩ rest' := by
  obtain ⟨g, b, text, st, rfl, hg, hb, hst, h⟩ := exists_byte (by simp) h
  have hquote : b = Ascii.quote := by
    by_contra hne
    simp [stepBetween, hb, hne] at hst
  subst hquote
  cases hst
  obtain ⟨body, text, st, rfl, hend, h, again⟩ := exists_string h
  -- the name is the same in every object, so only the frame differs
  obtain ⟨name, hname⟩ : ∃ name, ofBody? body = some name := by
    cases hn : ofBody? body with
    | none => simp [endString, hn] at hend
    | some name => exact ⟨name, rfl⟩
  have close : ∀ start members before stack,
      endString true body (.obj start members before :: stack) =
        some ⟨.between .colon, .obj start members name :: stack⟩ := by
    intro start members before stack
    simp [endString, hname]
  rw [List.reverse_nil, List.nil_append] at hend again
  rw [close] at hend
  cases hend
  obtain ⟨g₁, c, text, st, rfl, hg₁, hc, hst, h⟩ := exists_byte (by simp) h
  have hcolon : c = Ascii.colon := by
    by_contra hne
    simp [stepBetween, hc, hne] at hst
  subst hcolon
  cases hst
  obtain ⟨g₂, t, v, rest, rfl, hg₂, own, h⟩ := value text (by simp; omega) _ _ h
  refine ⟨g, body ++ Ascii.quote :: (g₁ ++ Ascii.colon :: (g₂ ++ t)), name, v, rest,
    by simp [List.append_assoc], hg, own.rereadable, h, ?_⟩
  intro stack' start' members' before' place' rest' hn hp hr
  have hopen : ∀ rest,
      State.step ⟨.between place', .obj start' members' before' :: stack'⟩ Ascii.quote rest =
      some ⟨.string true [] false, .obj start' members' before' :: stack'⟩ := by
    rcases hp with rfl | rfl
    · exact fun _ => rfl
    · exact fun _ => rfl
  have hcolon : ∀ rest,
      State.step ⟨.between .colon, .obj start' members' name :: stack'⟩ Ascii.colon rest =
      some ⟨.between .value, .obj start' members' name :: stack'⟩ := fun _ => rfl
  have hv : run ⟨.between .value, .obj start' members' name :: stack'⟩ (t ++ rest') =
      run (put v (.obj start' members' name :: stack')) rest' :=
    own.spells (Or.inl rfl) (Nat.succ_le_succ hn) hr
  simp only [List.cons_append, List.append_assoc]
  rw [run_of_step (hopen _), again _ _ _ (close start' members' before' stack'), run_gap hg₁,
    run_of_step (hcolon _), run_gap hg₂, hv]
  rfl

/-- **Behind an item** comes the end of the array, or a comma and another item. -/
theorem itemsAhead {text : Bytes} (value : ∀ text', text'.length < text.length → ValueAhead text')
    (items' : ∀ text', text'.length < text.length → ItemsAhead text') : ItemsAhead text := by
  intro stack start items root h
  obtain ⟨g, b, text, st, rfl, hg, hb, hst, h⟩ := exists_byte (by simp) h
  have hst : afterValue (.arr start items :: stack) b text = some st := by
    simpa [stepBetween, hb] using hst
  by_cases hcomma : b = Ascii.comma
  · subst hcomma
    cases hst
    obtain ⟨g', t, v, text, rfl, hg', own, h⟩ := value text (by simp; omega) _ _ h
    obtain ⟨t', vs, rest, rfl, more, h⟩ :=
      items' text (by simp; omega) stack start (v :: items) root h
    rw [List.reverse_cons, List.append_assoc, List.singleton_append] at h
    refine ⟨g ++ Ascii.comma :: (g' ++ (t ++ t')), v :: vs, rest, by simp [List.append_assoc],
      ⟨?_, ?_, ?_, ?_⟩, h⟩
    · intro stack' start' items' rest' hn
      have hcomma : ∀ rest, State.step ⟨.between .next, .arr start' items' :: stack'⟩ Ascii.comma
          rest = some ⟨.between .value, .arr start' items' :: stack'⟩ := fun _ => rfl
      have hv : run ⟨.between .value, .arr start' items' :: stack'⟩ (t ++ (t' ++ rest')) =
          run (put v (.arr start' items' :: stack')) (t' ++ rest') :=
        own.spells (Or.inl rfl) (Nat.succ_le_succ hn) (more.endsWord rest')
      have hmore : run ⟨.between .next, .arr start' (v :: items') :: stack'⟩ (t' ++ rest') = _ :=
        more.spells hn
      rw [List.reverse_cons, List.append_assoc, List.singleton_append] at hmore
      simp only [List.cons_append, List.append_assoc]
      rw [run_gap hg, run_of_step (hcomma _), run_gap hg', hv]
      exact hmore
    · intro u hu
      rcases List.mem_cons.mp hu with rfl | hu
      · exact own.rereadable
      · exact more.rereadable u hu
    · intro rest
      simp only [List.cons_append, List.append_assoc]
      exact endsWord_gap hg (by decide) _
    · obtain ⟨front, rfl⟩ := more.last
      exact ⟨g ++ Ascii.comma :: (g' ++ (t ++ front)), by simp [List.append_assoc]⟩
  · have hclose : b = Ascii.closeBracket := by
      by_contra hne
      rw [afterValue, if_neg hcomma, if_neg hne] at hst
      split at hst <;> cases hst
    subst hclose
    cases hst
    refine ⟨g ++ [Ascii.closeBracket], [], text, by simp, ⟨?_, by simp, ?_, ⟨g, rfl⟩⟩, ?_⟩
    · intro stack' start' items' rest' _
      rw [List.append_assoc, run_gap hg, List.append_nil]
      exact run_closeArray (Or.inr rfl)
    · intro rest
      rw [List.append_assoc]
      exact endsWord_gap hg (by decide) _
    · rw [List.append_nil]
      exact h

/-- **Behind a member** comes the end of the object, or a comma and another member. -/
theorem membersAhead {text : Bytes} (value : ∀ text', text'.length < text.length → ValueAhead text')
    (members' : ∀ text', text'.length < text.length → MembersAhead text') : MembersAhead text := by
  intro stack start members name root h
  obtain ⟨g, b, text, st, rfl, hg, hb, hst, h⟩ := exists_byte (by simp) h
  have hst : afterValue (.obj start members name :: stack) b text = some st := by
    simpa [stepBetween, hb] using hst
  by_cases hcomma : b = Ascii.comma
  · subst hcomma
    cases hst
    obtain ⟨g', t, name', v, text, rfl, hg', hv, h, again⟩ :=
      exists_member (fun text' hlt => value text' (by simp at hlt ⊢; omega)) h
    obtain ⟨t', ms, rest, rfl, more, h⟩ :=
      members' text (by simp; omega) stack start ((name', v) :: members) name' root h
    rw [List.reverse_cons, List.append_assoc, List.singleton_append] at h
    refine ⟨g ++ Ascii.comma :: (g' ++ (Ascii.quote :: t ++ t')), (name', v) :: ms, rest,
      by simp [List.append_assoc], ⟨?_, ?_, ?_, ?_⟩, h⟩
    · intro stack' start' members' before' rest' hn
      have hcomma : ∀ rest, State.step ⟨.between .next, .obj start' members' before' :: stack'⟩
          Ascii.comma rest = some ⟨.between .name, .obj start' members' before' :: stack'⟩ :=
        fun _ => rfl
      have hmember : run ⟨.between .name, .obj start' members' before' :: stack'⟩
          (Ascii.quote :: t ++ (t' ++ rest')) = _ := again hn (Or.inl rfl) (more.endsWord rest')
      have hmore : run ⟨.between .next, .obj start' ((name', v) :: members') name' :: stack'⟩
          (t' ++ rest') = _ := more.spells hn
      rw [List.reverse_cons, List.append_assoc, List.singleton_append] at hmore
      rw [List.append_assoc, run_gap hg, List.cons_append, run_of_step (hcomma _),
        List.append_assoc, run_gap hg', List.append_assoc, hmember, hmore]
    · intro m hm
      rcases List.mem_cons.mp hm with rfl | hm
      · exact hv
      · exact more.rereadable m hm
    · intro rest
      rw [List.append_assoc]
      exact endsWord_gap hg (by decide) _
    · obtain ⟨front, rfl⟩ := more.last
      exact ⟨g ++ Ascii.comma :: (g' ++ (Ascii.quote :: t ++ front)), by simp [List.append_assoc]⟩
  · have hclose : b = Ascii.closeBrace := by
      by_contra hne
      rw [afterValue, if_neg hcomma, if_neg hne] at hst
      split at hst <;> cases hst
    subst hclose
    cases hst
    refine ⟨g ++ [Ascii.closeBrace], [], text, by simp, ⟨?_, by simp, ?_, ⟨g, rfl⟩⟩, ?_⟩
    · intro stack' start' members' before' rest' _
      rw [List.append_assoc, run_gap hg, List.append_nil]
      exact run_closeObject (Or.inr rfl)
    · intro rest
      rw [List.append_assoc]
      exact endsWord_gap hg (by decide) _
    · rw [List.append_nil]
      exact h

/-- What stands behind the bracket of an array: nothing, or a first item and the rest. -/
theorem exists_items {text : Bytes} (value : ∀ text', text'.length ≤ text.length → ValueAhead text')
    (items' : ∀ text', text'.length ≤ text.length → ItemsAhead text') {stack : List Frame}
    {start : Bytes} {root : Json}
    (h : run ⟨.between .firstItem, .arr start [] :: stack⟩ text = some root) :
    ∃ t vs rest, text = t ++ rest ∧ (∀ v ∈ vs, Rereadable v) ∧
      (∃ front, t = front ++ [Ascii.closeBracket]) ∧
      run (put (.arr (cut start rest) vs) stack) rest = some root ∧
      ∀ {stack' : List Frame} {start' rest' : Bytes}, stack'.length ≤ stack.length →
        run ⟨.between .firstItem, .arr start' [] :: stack'⟩ (t ++ rest') =
          run (put (.arr (cut start' rest') vs) stack') rest' := by
  obtain ⟨g, b, text, st, rfl, hg, hb, hst, h'⟩ := exists_byte (by simp) h
  by_cases hclose : b = Ascii.closeBracket
  · subst hclose
    cases hst
    refine ⟨g ++ [Ascii.closeBracket], [], text, by simp, by simp, ⟨g, rfl⟩, h', ?_⟩
    intro stack' start' rest' _
    rw [List.append_assoc, run_gap hg]
    exact run_closeArray (Or.inl rfl)
  · -- a first item is begun like any other value
    have same : ∀ stack rest, run ⟨.between .firstItem, stack⟩ (b :: rest) =
        run ⟨.between .value, stack⟩ (b :: rest) := by
      intro stack rest
      have hstep : State.step ⟨.between .firstItem, stack⟩ b rest =
          State.step ⟨.between .value, stack⟩ b rest := by
        simp [State.step, stepBetween, hb, hclose]
      rw [run, run, hstep]
    rw [run_gap hg, same] at h
    obtain ⟨g', t, v, text, heq, hg', own, h⟩ := value (b :: text) (by simp) _ _ h
    have hg'nil : g' = [] := by
      cases g' with
      | nil => rfl
      | cons c g' =>
        cases heq
        rw [hg' b List.mem_cons_self] at hb
        cases hb
    subst hg'nil
    obtain ⟨t', vs, rest, rfl, more, h⟩ :=
      items' text (by have := congrArg List.length heq; simp at this ⊢; omega) stack start [v] root h
    refine ⟨g ++ (t ++ t'), v :: vs, rest, by rw [heq]; simp [List.append_assoc], ?_, ?_, h, ?_⟩
    · intro u hu
      rcases List.mem_cons.mp hu with rfl | hu
      · exact own.rereadable
      · exact more.rereadable u hu
    · obtain ⟨front, rfl⟩ := more.last
      exact ⟨g ++ (t ++ front), by simp [List.append_assoc]⟩
    · intro stack' start' rest' hn
      have hv : run ⟨.between .firstItem, .arr start' [] :: stack'⟩ (t ++ (t' ++ rest')) =
          run (put v (.arr start' [] :: stack')) (t' ++ rest') :=
        own.spells (Or.inr rfl) (Nat.succ_le_succ hn) (more.endsWord rest')
      simp only [List.append_assoc]
      rw [run_gap hg, hv]
      exact more.spells hn

/-- What stands behind the brace of an object: nothing, or a first member and the rest. -/
theorem exists_members {text : Bytes}
    (value : ∀ text', text'.length ≤ text.length → ValueAhead text')
    (members' : ∀ text', text'.length ≤ text.length → MembersAhead text') {stack : List Frame}
    {start : Bytes} {root : Json}
    (h : run ⟨.between .firstName, .obj start [] "" :: stack⟩ text = some root) :
    ∃ t ms rest, text = t ++ rest ∧ (∀ m ∈ ms, Rereadable m.2) ∧
      (∃ front, t = front ++ [Ascii.closeBrace]) ∧
      run (put (.obj (cut start rest) ms) stack) rest = some root ∧
      ∀ {stack' : List Frame} {start' rest' : Bytes}, stack'.length ≤ stack.length →
        run ⟨.between .firstName, .obj start' [] "" :: stack'⟩ (t ++ rest') =
          run (put (.obj (cut start' rest') ms) stack') rest' := by
  obtain ⟨g, b, text, st, rfl, hg, hb, hst, h'⟩ := exists_byte (by simp) h
  by_cases hclose : b = Ascii.closeBrace
  · subst hclose
    cases hst
    refine ⟨g ++ [Ascii.closeBrace], [], text, by simp, by simp, ⟨g, rfl⟩, h', ?_⟩
    intro stack' start' rest' _
    rw [List.append_assoc, run_gap hg]
    exact run_closeObject (Or.inl rfl)
  · have hquote : b = Ascii.quote := by
      by_contra hne
      simp [stepBetween, hb, hclose, hne] at hst
    subst hquote
    have hname : run ⟨.between .name, .obj start [] "" :: stack⟩ (Ascii.quote :: text) =
        some root := by
      rw [run_gap hg] at h
      exact h
    obtain ⟨g', t, name, v, text, heq, hg', hv, h, again⟩ :=
      exists_member (fun text' hlt => value text' (by simp at hlt ⊢; omega)) hname
    have hg'nil : g' = [] := by
      cases g' with
      | nil => rfl
      | cons c g' =>
        cases heq
        exact absurd (hg' _ List.mem_cons_self) (by decide)
    subst hg'nil
    obtain ⟨t', ms, rest, rfl, more, h⟩ :=
      members' text (by have := congrArg List.length heq; simp at this ⊢; omega) stack start
        [(name, v)] name root h
    refine ⟨g ++ (Ascii.quote :: t ++ t'), (name, v) :: ms, rest,
      by rw [heq]; simp [List.append_assoc], ?_, ?_, h, ?_⟩
    · intro m hm
      rcases List.mem_cons.mp hm with rfl | hm
      · exact hv
      · exact more.rereadable m hm
    · obtain ⟨front, rfl⟩ := more.last
      exact ⟨g ++ (Ascii.quote :: t ++ front), by simp [List.append_assoc]⟩
    · intro stack' start' rest' hn
      have hmember : run ⟨.between .firstName, .obj start' [] "" :: stack'⟩
          (Ascii.quote :: t ++ (t' ++ rest')) = _ := again hn (Or.inr rfl) (more.endsWord rest')
      rw [List.append_assoc, run_gap hg, List.append_assoc, hmember]
      exact more.spells hn

/-- **Where a value must come** there is a word, a string, an array or an object. -/
theorem valueAhead {text : Bytes} (value : ∀ text', text'.length < text.length → ValueAhead text')
    (items' : ∀ text', text'.length < text.length → ItemsAhead text')
    (members' : ∀ text', text'.length < text.length → MembersAhead text') : ValueAhead text := by
  intro stack root h
  obtain ⟨g, b, text, st, rfl, hg, hb, hst, h⟩ := exists_byte (by simp) h
  have hst : beginValue stack b text = some st := by
    simpa [stepBetween, hb] using hst
  have shorter : ∀ text' : Bytes, text'.length ≤ text.length →
      text'.length < (g ++ b :: text).length := by
    intro text' hle
    simp
    omega
  unfold beginValue at hst
  split at hst
  · next hbracket =>
    subst hbracket
    unfold push at hst
    split at hst
    · next fits =>
      cases hst
      obtain ⟨t, vs, rest, rfl, hvs, last, hrun, spells⟩ :=
        exists_items (fun t ht => value t (shorter t ht)) (fun t ht => items' t (shorter t ht)) h
      rw [← List.cons_append, cut_append] at hrun
      exact ⟨g, _, _, rest, rfl, hg, ownText_arr fits spells hvs last, hrun⟩
    · cases hst
  · split at hst
    · next hbrace =>
      subst hbrace
      unfold push at hst
      split at hst
      · next fits =>
        cases hst
        obtain ⟨t, ms, rest, rfl, hms, last, hrun, spells⟩ :=
          exists_members (fun t ht => value t (shorter t ht))
            (fun t ht => members' t (shorter t ht)) h
        rw [← List.cons_append, cut_append] at hrun
        exact ⟨g, _, _, rest, rfl, hg, ownText_obj fits spells hms last, hrun⟩
      · cases hst
    · split at hst
      · next hquote =>
        subst hquote
        cases hst
        obtain ⟨body, rest, st, rfl, hend, hrun, again⟩ := exists_string h
        rw [List.reverse_nil, List.nil_append] at hend again
        cases hs : ofBody? body with
        | none => simp [endString, hs] at hend
        | some s =>
          have hst : st = put (.str ⟨fun _ => Ascii.quote :: body ++ [Ascii.quote]⟩ s) stack := by
            simpa [endString, hs] using hend.symm
          rw [hst] at hrun
          exact ⟨g, _, _, rest, by simp, hg, ownText_string _ hs again, hrun⟩
      · split at hst
        · next hword =>
          cases hst
          obtain ⟨w, v, rest, rfl, hw, hv, hrun⟩ := exists_word h
          refine ⟨g, b :: w, v, rest, rfl, hg, ownText_word _ (by simp) ?_ hv, hrun⟩
          intro b' hb'
          rcases List.mem_cons.mp hb' with rfl | hb'
          · exact hword
          · exact hw b' hb'
        · cases hst

/-- All three statements hold of every text; the induction is on its length. -/
theorem ahead (text : Bytes) : ValueAhead text ∧ ItemsAhead text ∧ MembersAhead text := by
  induction hn : text.length using Nat.strong_induction_on generalizing text with
  | _ n ih =>
    subst hn
    have value : ∀ text' : Bytes, text'.length < text.length → ValueAhead text' :=
      fun text' hlt => (ih _ hlt text' rfl).1
    have items : ∀ text' : Bytes, text'.length < text.length → ItemsAhead text' :=
      fun text' hlt => (ih _ hlt text' rfl).2.1
    have members : ∀ text' : Bytes, text'.length < text.length → MembersAhead text' :=
      fun text' hlt => (ih _ hlt text' rfl).2.2
    exact ⟨valueAhead value items members, itemsAhead value items, membersAhead value members⟩

/-! ## 6. Documents -/

theorem gap_of_run_done {v root : Json} {rest : Bytes}
    (h : run ⟨.between (.done v), []⟩ rest = some root) : Gap rest ∧ v = root := by
  rcases gap_or_byte rest with hg | ⟨g, b, rest, rfl, hg, hb⟩
  · rw [← List.append_nil rest, run_gap hg] at h
    exact ⟨hg, Option.some.inj h⟩
  · have hstep : State.step ⟨.between (.done v), []⟩ b rest = none := by
      simp [State.step, stepBetween, hb]
    rw [run_gap hg, run, hstep] at h
    cases h

/-- **A document is the text of its value** with white space around it. -/
theorem exists_gaps {document : Bytes} {v : Json} (h : parse? document = some v) :
    ∃ g g', document = g ++ (v.text ++ g') ∧ Gap g ∧ Gap g' ∧ OwnText 0 v.text v := by
  obtain ⟨g, t, w, rest, rfl, hg, own, hrun⟩ := (ahead document).1 [] v h
  obtain ⟨hrest, rfl⟩ := gap_of_run_done hrun
  have htext := own.text
  subst htext
  exact ⟨g, rest, rfl, hg, hrest, own⟩

/-- **Every value inside a document is read from its own text.** -/
theorem parse?_text {document : Bytes} {root v : Json} (valid : parse? document = some root)
    (hv : Within root v) : parse? v.text = some v := by
  obtain ⟨-, -, -, -, -, own⟩ := exists_gaps valid
  exact own.rereadable v hv

end SolidityTree.Json
