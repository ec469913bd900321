import SolidityTree.Proofs.OwnText
import SolidityTree.Proofs.Variants

/-!
# White space between tokens, and what cannot interfere

White space between two tokens of a document changes the texts that values keep and nothing else.
The proof runs the reader over the document with the white space and over the one without it side by
side (`RespacedState`).  The two readers are in the same mode and hold the same values up to their
texts; the white space is skipped by one of them where both are between two tokens, or ends a word
there that ends anyway (`exists_run_gap`).

Where a document is between two tokens is said without the reader: no string is open (`quoting`),
and the place does not cut a word in two (`BetweenTokens`).

`Variant` puts the changes of a text and the changes of its members together, and `decode_variant`
is the statement about documents: decoding cannot tell variants apart.  One thing is asked for: if
the outcome is a failure that quotes a value, that value is written the same in both.

Contents
* §1  between tokens
* §2  values that differ in white space
* §3  two readers side by side
* §4  skipping the white space
* §5  variants of a document
-/

namespace SolidityTree.Json

/-! ## 1. Between tokens -/

/-- Whether a text has a string open at its end. -/
inductive Quoting where
  | outside
  /-- In a string, the last byte being a backslash that escapes the next or not. -/
  | inside (escaped : Bool)
  deriving DecidableEq

/-- One byte further. -/
def Quoting.next : Quoting → UInt8 → Quoting
  | outside, b => if b = Ascii.quote then inside false else outside
  | inside true, _ => inside false
  | inside false, b => if b = Ascii.quote then outside else inside (b = Ascii.backslash)

/-- Whether a text has a string open at its end, from its first byte on. -/
def quoting (text : Bytes) : Quoting := text.foldl Quoting.next .outside

/-- **A place between two tokens**: no string is open, and no word goes on. -/
structure BetweenTokens (before after : Bytes) : Prop where
  outside : quoting before = .outside
  apart : ∀ b c, before.getLast? = some b → after.head? = some c → isWordByte b = true →
    isWordByte c = false

/-! ## 2. Values -/

/-- **Two values that differ in white space only**, so in no slot. -/
def Respaced (v w : Json) : Prop := ∀ slot, Alike slot v w

/-- Two members of one name, the values differing in white space only. -/
def RespacedMember (m m' : String × Json) : Prop := m'.1 = m.1 ∧ Respaced m.2 m'.2

theorem Respaced.refl (v : Json) : Respaced v v := fun slot => .refl slot v

theorem respaced_arr {items items' : List Json} (h : List.Forall₂ Respaced items items')
    (source source' : Thunk Bytes) : Respaced (.arr source items) (.arr source' items') := by
  intro slot
  have change : ∀ before, Alike slot (.arr source (before ++ items))
      (.arr source (before ++ items')) := by
    induction h with
    | nil => exact fun before => .refl slot _
    | @cons v w items items' hv _ ih =>
      intro before
      have hrest := ih (before ++ [w])
      rw [List.append_assoc, List.append_assoc, List.singleton_append,
        List.singleton_append] at hrest
      exact .trans (.item (hv slot.item)) hrest
  exact .trans (change []) (.arr source source')

theorem respaced_obj {members members' : List (String × Json)}
    (h : List.Forall₂ RespacedMember members members') (source source' : Thunk Bytes) :
    Respaced (.obj source members) (.obj source' members') := by
  intro slot
  have change : ∀ before, Alike slot (.obj source (before ++ members))
      (.obj source (before ++ members')) := by
    induction h with
    | nil => exact fun before => .refl slot _
    | @cons m m' members members' hm _ ih =>
      intro before
      obtain ⟨name, v⟩ := m
      obtain ⟨name', w⟩ := m'
      obtain ⟨rfl, hv⟩ : name' = name ∧ Respaced v w := hm
      have hrest := ih (before ++ [(name', w)])
      rw [List.append_assoc, List.append_assoc, List.singleton_append,
        List.singleton_append] at hrest
      exact .trans (.member (hv (slot.member name'))) hrest
  exact .trans (change []) (.obj source source')

/-! ## 3. Two readers -/

/-- Two open arrays or objects that have read the same so far. -/
inductive RespacedFrame : Frame → Frame → Prop
  | arr {start start' : Bytes} {items items' : List Json} : List.Forall₂ Respaced items items' →
      RespacedFrame (.arr start items) (.arr start' items')
  | obj {start start' : Bytes} {members members' : List (String × Json)} {name : String} :
      List.Forall₂ RespacedMember members members' →
      RespacedFrame (.obj start members name) (.obj start' members' name)

/-- Two readers in the same mode. -/
inductive RespacedMode : Mode → Mode → Prop
  | same (mode : Mode) : RespacedMode mode mode
  | done {v w : Json} : Respaced v w → RespacedMode (.between (.done v)) (.between (.done w))

/-- **Two readers that have read the same** up to white space. -/
structure RespacedState (st st' : State) : Prop where
  mode : RespacedMode st.mode st'.mode
  stack : List.Forall₂ RespacedFrame st.stack st'.stack

section Steps

variable {stack stack' : List Frame} {st : State}

theorem respaced_put {v w : Json} (hv : Respaced v w)
    (hs : List.Forall₂ RespacedFrame stack stack') :
    RespacedState (put v stack) (put w stack') := by
  cases hs with
  | nil => exact ⟨.done hv, .nil⟩
  | cons hframe hrest =>
    cases hframe with
    | arr hitems => exact ⟨.same _, .cons (.arr (.cons hv hitems)) hrest⟩
    | obj hmembers => exact ⟨.same _, .cons (.obj (.cons ⟨rfl, hv⟩ hmembers)) hrest⟩

theorem respaced_push {frame frame' : Frame} {place : Place} (hf : RespacedFrame frame frame')
    (hs : List.Forall₂ RespacedFrame stack stack') (h : push frame place stack = some st) :
    ∃ st', push frame' place stack' = some st' ∧ RespacedState st st' := by
  unfold push at h
  split at h
  · next fits =>
    cases h
    rw [hs.length_eq] at fits
    exact ⟨_, if_pos fits, .same _, .cons hf hs⟩
  · cases h

theorem respaced_closeArray {rest : Bytes} (rest' : Bytes)
    (hs : List.Forall₂ RespacedFrame stack stack') (h : closeArray rest stack = some st) :
    ∃ st', closeArray rest' stack' = some st' ∧ RespacedState st st' := by
  cases hs with
  | nil => cases h
  | cons hframe hrest =>
    cases hframe with
    | arr hitems =>
      cases h
      exact ⟨_, rfl, respaced_put (respaced_arr (List.rel_reverse hitems) _ _) hrest⟩
    | obj hmembers => cases h

theorem respaced_closeObject {rest : Bytes} (rest' : Bytes)
    (hs : List.Forall₂ RespacedFrame stack stack') (h : closeObject rest stack = some st) :
    ∃ st', closeObject rest' stack' = some st' ∧ RespacedState st st' := by
  cases hs with
  | nil => cases h
  | cons hframe hrest =>
    cases hframe with
    | arr hitems => cases h
    | obj hmembers =>
      cases h
      exact ⟨_, rfl, respaced_put (respaced_obj (List.rel_reverse hmembers) _ _) hrest⟩

theorem respaced_beginValue {b : UInt8} {rest : Bytes} (rest' : Bytes)
    (hs : List.Forall₂ RespacedFrame stack stack') (h : beginValue stack b rest = some st) :
    ∃ st', beginValue stack' b rest' = some st' ∧ RespacedState st st' := by
  unfold beginValue at h ⊢
  split at h
  · next hb =>
    rw [if_pos hb]
    exact respaced_push (.arr .nil) hs h
  · next hb =>
    rw [if_neg hb]
    split at h
    · next hb =>
      rw [if_pos hb]
      exact respaced_push (.obj .nil) hs h
    · next hb =>
      rw [if_neg hb]
      split at h
      · next hb =>
        cases h
        rw [if_pos hb]
        exact ⟨_, rfl, .same _, hs⟩
      · next hb =>
        rw [if_neg hb]
        split at h
        · next hb =>
          cases h
          rw [if_pos hb]
          exact ⟨_, rfl, .same _, hs⟩
        · cases h

theorem respaced_afterValue {b : UInt8} {rest : Bytes} (rest' : Bytes)
    (hs : List.Forall₂ RespacedFrame stack stack') (h : afterValue stack b rest = some st) :
    ∃ st', afterValue stack' b rest' = some st' ∧ RespacedState st st' := by
  unfold afterValue at h ⊢
  split at h
  · next hb =>
    rw [if_pos hb]
    cases hs with
    | nil => cases h
    | cons hframe hrest =>
      cases hframe with
      | arr hitems =>
        cases h
        exact ⟨_, rfl, .same _, .cons (.arr hitems) hrest⟩
      | obj hmembers =>
        cases h
        exact ⟨_, rfl, .same _, .cons (.obj hmembers) hrest⟩
  · next hb =>
    rw [if_neg hb]
    split at h
    · next hb =>
      rw [if_pos hb]
      exact respaced_closeArray rest' hs h
    · next hb =>
      rw [if_neg hb]
      split at h
      · next hb =>
        rw [if_pos hb]
        exact respaced_closeObject rest' hs h
      · cases h

theorem respaced_stepBetween {place place' : Place}
    (hp : RespacedMode (.between place) (.between place')) {b : UInt8} {rest : Bytes} (rest' : Bytes)
    (hs : List.Forall₂ RespacedFrame stack stack') (h : stepBetween place stack b rest = some st) :
    ∃ st', stepBetween place' stack' b rest' = some st' ∧ RespacedState st st' := by
  unfold stepBetween at h ⊢
  by_cases hgap : isGap b = true
  · rw [if_pos hgap] at h ⊢
    cases h
    exact ⟨_, rfl, hp, hs⟩
  · rw [if_neg hgap] at h ⊢
    cases hp with
    | done hv => cases h
    | same =>
      cases place with
      | value => exact respaced_beginValue rest' hs h
      | firstItem =>
        dsimp only at h ⊢
        split at h
        · next hb =>
          rw [if_pos hb]
          exact respaced_closeArray rest' hs h
        · next hb =>
          rw [if_neg hb]
          exact respaced_beginValue rest' hs h
      | firstName =>
        dsimp only at h ⊢
        split at h
        · next hb =>
          rw [if_pos hb]
          exact respaced_closeObject rest' hs h
        · next hb =>
          rw [if_neg hb]
          split at h
          · next hb =>
            cases h
            rw [if_pos hb]
            exact ⟨_, rfl, .same _, hs⟩
          · cases h
      | name =>
        dsimp only at h ⊢
        split at h
        · next hb =>
          cases h
          rw [if_pos hb]
          exact ⟨_, rfl, .same _, hs⟩
        · cases h
      | colon =>
        dsimp only at h ⊢
        split at h
        · next hb =>
          cases h
          rw [if_pos hb]
          exact ⟨_, rfl, .same _, hs⟩
        · cases h
      | next => exact respaced_afterValue rest' hs h
      | done v => cases h

theorem respaced_endString {isName : Bool} {body : Bytes}
    (hs : List.Forall₂ RespacedFrame stack stack') (h : endString isName body stack = some st) :
    ∃ st', endString isName body stack' = some st' ∧ RespacedState st st' := by
  cases hvalue : ofBody? body with
  | none =>
    rw [endString, hvalue] at h
    cases h
  | some value =>
    simp only [endString, hvalue] at h ⊢
    cases isName with
    | false =>
      cases h
      exact ⟨_, rfl, respaced_put (.refl _) hs⟩
    | true =>
      cases hs with
      | nil => cases h
      | cons hframe hrest =>
        cases hframe with
        | arr hitems => cases h
        | obj hmembers =>
          cases h
          exact ⟨_, rfl, .same _, .cons (.obj hmembers) hrest⟩

/-- **One byte, read by both.** -/
theorem respaced_step {st' st₁ : State} (h : RespacedState st st') {b : UInt8} {rest : Bytes}
    (rest' : Bytes) (hst : st.step b rest = some st₁) :
    ∃ st₁', st'.step b rest' = some st₁' ∧ RespacedState st₁ st₁' := by
  obtain ⟨mode, stack⟩ := st
  obtain ⟨mode', stack'⟩ := st'
  obtain ⟨hmode, hs⟩ := h
  cases hmode with
  | @done v w hv =>
    have hst : stepBetween (.done v) stack b rest = some st₁ := hst
    exact respaced_stepBetween (.done hv) rest' hs hst
  | same =>
    cases mode with
    | between place =>
      have hst : stepBetween place stack b rest = some st₁ := hst
      exact respaced_stepBetween (.same _) rest' hs hst
    | word read =>
      simp only [State.step] at hst ⊢
      split at hst
      · next hb =>
        cases hst
        rw [if_pos hb]
        exact ⟨_, rfl, .same _, hs⟩
      · next hb =>
        rw [if_neg hb]
        cases hv : ofWord? read.reverse with
        | none =>
          rw [hv] at hst
          cases hst
        | some v =>
          simp only [hv] at hst ⊢
          obtain ⟨place, stack₁, hput⟩ := put_between v stack
          obtain ⟨place', stack₁', hput'⟩ := put_between v stack'
          have hsame := respaced_put (.refl v) hs
          rw [hput, hput'] at hsame
          rw [hput] at hst
          rw [hput']
          exact respaced_stepBetween hsame.mode rest' hsame.stack hst
    | string isName read escaped =>
      simp only [State.step] at hst ⊢
      split at hst
      · cases hst
      · next hb =>
        rw [if_neg hb]
        split at hst
        · next hescaped =>
          cases hst
          rw [if_pos hescaped]
          exact ⟨_, rfl, .same _, hs⟩
        · next hescaped =>
          rw [if_neg hescaped]
          split at hst
          · next hquote =>
            rw [if_pos hquote]
            exact respaced_endString hs hst
          · next hquote =>
            cases hst
            rw [if_neg hquote]
            exact ⟨_, rfl, .same _, hs⟩

/-- **A text, read by both to its end.** -/
theorem respaced_run : ∀ {text : Bytes} {st st' : State} {v : Json}, RespacedState st st' →
    run st text = some v → ∃ w, run st' text = some w ∧ Respaced v w
  | [], ⟨mode, stack⟩, ⟨mode', stack'⟩, v, ⟨hmode, hs⟩, h => by
    cases hs with
    | @cons frame _ stack _ _ _ =>
      -- a text does not end where an array or object is open
      have hopen : State.finish ⟨mode, frame :: stack⟩ = none := by
        cases mode with
        | between place => cases place <;> rfl
        | word read => rfl
        | string isName read escaped => rfl
      have h : State.finish ⟨mode, frame :: stack⟩ = some v := h
      rw [hopen] at h
      cases h
    | nil =>
      cases hmode with
      | done hv =>
        cases h
        exact ⟨_, rfl, hv⟩
      | same => exact ⟨v, h, .refl v⟩
  | b :: text, st, st', v, hsame, h => by
    rw [run] at h
    split at h
    · cases h
    · next st₁ hst =>
      obtain ⟨st₁', hst', hsame'⟩ := respaced_step hsame text hst
      rw [run_of_step hst']
      exact respaced_run hsame' h

end Steps

/-! ## 4. Skipping the white space -/

/-- What the mode of a reader says of the text it has read: whether a string is open at its end, and
that a word ends with a byte of a word. -/
def Tracks (st : State) (quoting : Quoting) (last : Option UInt8) : Prop :=
  match st.mode with
  | .between _ => quoting = .outside
  | .word _ => quoting = .outside ∧ ∃ b, last = some b ∧ isWordByte b = true
  | .string _ _ escaped => quoting = .inside escaped

section Tracks

variable {stack : List Frame} {b : UInt8} {rest : Bytes} {st : State}

theorem tracks_put (v : Json) (stack : List Frame) (hb : b ≠ Ascii.quote) :
    Tracks (put v stack) (Quoting.outside.next b) (some b) := by
  obtain ⟨place, stack', hput⟩ := put_between v stack
  rw [hput]
  exact if_neg hb

theorem tracks_closeArray (hb : b ≠ Ascii.quote) (h : closeArray rest stack = some st) :
    Tracks st (Quoting.outside.next b) (some b) := by
  unfold closeArray at h
  split at h
  · cases h
    exact tracks_put _ _ hb
  · cases h

theorem tracks_closeObject (hb : b ≠ Ascii.quote) (h : closeObject rest stack = some st) :
    Tracks st (Quoting.outside.next b) (some b) := by
  unfold closeObject at h
  split at h
  · cases h
    exact tracks_put _ _ hb
  · cases h

theorem tracks_push {frame : Frame} {place : Place} (hb : b ≠ Ascii.quote)
    (h : push frame place stack = some st) : Tracks st (Quoting.outside.next b) (some b) := by
  unfold push at h
  split at h
  · cases h
    exact if_neg hb
  · cases h

theorem tracks_beginValue (h : beginValue stack b rest = some st) :
    Tracks st (Quoting.outside.next b) (some b) := by
  unfold beginValue at h
  split at h
  · next hb =>
    subst hb
    exact tracks_push (by decide) h
  · split at h
    · next hb =>
      subst hb
      exact tracks_push (by decide) h
    · split at h
      · next hb =>
        cases h
        exact if_pos hb
      · next hb =>
        split at h
        · next hword =>
          cases h
          exact ⟨if_neg hb, b, rfl, hword⟩
        · cases h

theorem tracks_afterValue (h : afterValue stack b rest = some st) :
    Tracks st (Quoting.outside.next b) (some b) := by
  unfold afterValue at h
  split at h
  · next hb =>
    subst hb
    split at h <;> cases h <;> rfl
  · split at h
    · next hb =>
      subst hb
      exact tracks_closeArray (by decide) h
    · split at h
      · next hb =>
        subst hb
        exact tracks_closeObject (by decide) h
      · cases h

/-- One byte between two tokens. -/
theorem tracks_stepBetween {place : Place} (h : stepBetween place stack b rest = some st) :
    Tracks st (Quoting.outside.next b) (some b) := by
  unfold stepBetween at h
  split at h
  · next hgap =>
    cases h
    have hb : b ≠ Ascii.quote := by
      rintro rfl
      exact absurd hgap (by decide)
    exact if_neg hb
  · cases place with
    | value => exact tracks_beginValue h
    | firstItem =>
      dsimp only at h
      split at h
      · next hb =>
        subst hb
        exact tracks_closeArray (by decide) h
      · exact tracks_beginValue h
    | firstName =>
      dsimp only at h
      split at h
      · next hb =>
        subst hb
        exact tracks_closeObject (by decide) h
      · split at h
        · next hb =>
          cases h
          exact if_pos hb
        · cases h
    | name =>
      dsimp only at h
      split at h
      · next hb =>
        cases h
        exact if_pos hb
      · cases h
    | colon =>
      dsimp only at h
      split at h
      · next hb =>
        subst hb
        cases h
        rfl
      · cases h
    | next => exact tracks_afterValue h
    | done v => cases h

/-- **One byte further**, in any mode. -/
theorem tracks_step {st₁ : State} {quoting : Quoting} {last : Option UInt8}
    (h : Tracks st quoting last) (hst : st.step b rest = some st₁) :
    Tracks st₁ (quoting.next b) (some b) := by
  obtain ⟨mode, stack⟩ := st
  cases mode with
  | between place =>
    obtain rfl : quoting = .outside := h
    exact tracks_stepBetween hst
  | word read =>
    obtain ⟨rfl, -⟩ : quoting = .outside ∧ _ := h
    simp only [State.step] at hst
    split at hst
    · next hword =>
      cases hst
      have hb : b ≠ Ascii.quote := by
        rintro rfl
        exact absurd hword (by decide)
      exact ⟨if_neg hb, b, rfl, hword⟩
    · cases hv : ofWord? read.reverse with
      | none =>
        rw [hv] at hst
        cases hst
      | some v =>
        obtain ⟨place, stack', hput⟩ := put_between v stack
        simp only [hv, hput] at hst
        exact tracks_stepBetween hst
  | string isName read escaped =>
    obtain rfl : quoting = .inside escaped := h
    simp only [State.step] at hst
    split at hst
    · cases hst
    · cases escaped with
      | true =>
        cases hst
        rfl
      | false =>
        rw [if_neg (by simp)] at hst
        split at hst
        · next hquote =>
          have hnext : (Quoting.inside false).next b = .outside := if_pos hquote
          rw [hnext]
          unfold endString at hst
          split at hst
          · cases hst
          · split at hst
            · split at hst <;> cases hst
              rfl
            · cases hst
              obtain ⟨place, stack', hput⟩ := put_between
                (.str ⟨fun _ => Ascii.quote :: read.reverse ++ [Ascii.quote]⟩ _) stack
              rw [hput]
              rfl
        · next hquote =>
          cases hst
          exact if_neg hquote

end Tracks

/-- **White space where the reader is between two tokens**: it is skipped, or ends a word that ends
anyway. -/
theorem respaced_run_gap {st st' : State} {before gap after : Bytes} {v : Json}
    (hsame : RespacedState st st') (htracks : Tracks st (quoting before) before.getLast?)
    (hbetween : BetweenTokens before after) (hgap : Gap gap) (h : run st after = some v) :
    ∃ w, run st' (gap ++ after) = some w ∧ Respaced v w := by
  obtain ⟨mode, stack⟩ := st
  obtain ⟨mode', stack'⟩ := st'
  obtain ⟨hmode, hs⟩ := hsame
  cases hmode with
  | done hv =>
    rw [run_gap hgap]
    exact respaced_run ⟨.done hv, hs⟩ h
  | same =>
    cases mode with
    | between place =>
      have hsame : RespacedState ⟨.between place, stack⟩ ⟨.between place, stack'⟩ := ⟨.same _, hs⟩
      rw [run_gap hgap]
      exact respaced_run hsame h
    | word read =>
      obtain ⟨-, b, hlast, hb⟩ := htracks
      have hends : EndsWord after := by
        rintro c cs rfl
        exact hbetween.apart b c hlast rfl hb
      have hends' : EndsWord (gap ++ after) := by
        cases gap with
        | nil => exact hends
        | cons g gap =>
          refine endsWord_cons ?_ _
          by_contra hg
          have hword : isWordByte g = true := by simpa using hg
          have hskip := hgap g List.mem_cons_self
          rw [(beginValue_word [] [] hword).1] at hskip
          cases hskip
      obtain ⟨word, value, rest, rfl, hword, hvalue, hrun⟩ := exists_word h
      have hnil : word = [] := by
        cases word with
        | nil => rfl
        | cons c word =>
          have := hends c (word ++ rest) rfl
          rw [hword c List.mem_cons_self] at this
          cases this
      subst hnil
      rw [List.append_nil] at hvalue
      rw [List.nil_append] at hends' ⊢
      obtain ⟨place, stack₁, hput⟩ := put_between value stack'
      have hsame := respaced_put (.refl value) hs
      rw [run_word_end hvalue hends', hput, run_gap hgap, ← hput]
      exact respaced_run hsame hrun
    | string isName read escaped =>
      have hinside : quoting before = .inside escaped := htracks
      rw [hbetween.outside] at hinside
      cases hinside

/-- A reader on its way to the white space. -/
theorem exists_run_gap {gap after : Bytes} {v : Json} (hgap : Gap gap) :
    ∀ {rest before : Bytes} {st st' : State}, RespacedState st st' →
    Tracks st (quoting before) before.getLast? → BetweenTokens (before ++ rest) after →
    run st (rest ++ after) = some v →
    ∃ w, run st' (rest ++ (gap ++ after)) = some w ∧ Respaced v w
  | [], before, st, st', hsame, htracks, hbetween, h => by
    rw [List.append_nil] at hbetween
    rw [List.nil_append] at h ⊢
    exact respaced_run_gap hsame htracks hbetween hgap h
  | b :: rest, before, st, st', hsame, htracks, hbetween, h => by
    rw [List.cons_append, run] at h
    split at h
    · cases h
    · next st₁ hst =>
      obtain ⟨st₁', hst', hsame'⟩ := respaced_step hsame (rest ++ (gap ++ after)) hst
      have htracks' : Tracks st₁ (quoting (before ++ [b])) (before ++ [b]).getLast? := by
        rw [quoting, List.foldl_append, List.getLast?_concat]
        exact tracks_step htracks hst
      rw [List.append_cons] at hbetween
      rw [List.cons_append, run_of_step hst']
      exact exists_run_gap hgap hsame' htracks' hbetween h

/-- **White space between two tokens** of a document: the document is valid as before, and its value
differs in white space only. -/
theorem exists_parse?_gap {before gap after : Bytes} {v : Json}
    (hbetween : BetweenTokens before after) (hgap : Gap gap)
    (valid : parse? (before ++ after) = some v) :
    ∃ w, parse? (before ++ (gap ++ after)) = some w ∧ Respaced v w := by
  have hstart : RespacedState start start := ⟨.same _, .nil⟩
  have htracks : Tracks start (quoting []) ([] : Bytes).getLast? := rfl
  exact exists_run_gap hgap hstart htracks hbetween valid

end SolidityTree.Json

namespace SolidityTree

open Json

/-! ## 5. Variants -/

/-- **Variants of a document**: they differ by white space between tokens, and by what may differ in
the nodes of a document. -/
inductive Variant : Bytes → Bytes → Prop
  | spaced {before gap after : Bytes} : (∃ v, parse? (before ++ after) = some v) →
      BetweenTokens before after → Gap gap → Variant (before ++ after) (before ++ (gap ++ after))
  | alike {d d' : Bytes} {v v' : Json} : parse? d = some v → parse? d' = some v' →
      Alike .node v v' → Variant d d'
  | symm {d d' : Bytes} : Variant d d' → Variant d' d
  | trans {d d' d'' : Bytes} : Variant d d' → Variant d' d'' → Variant d d''

/-- Variants are valid, and their values are alike. -/
theorem Variant.exists_alike {d d' : Bytes} (h : Variant d d') :
    ∃ v v', parse? d = some v ∧ parse? d' = some v' ∧ Alike .node v v' := by
  induction h with
  | spaced valid hbetween hgap =>
    obtain ⟨v, hv⟩ := valid
    obtain ⟨w, hw, hrespaced⟩ := exists_parse?_gap hbetween hgap hv
    exact ⟨v, w, hv, hw, hrespaced .node⟩
  | alike hv hv' halike => exact ⟨_, _, hv, hv', halike⟩
  | symm _ ih =>
    obtain ⟨v, v', hv, hv', halike⟩ := ih
    exact ⟨v', v, hv', hv, halike.symm⟩
  | trans _ _ ih ih' =>
    obtain ⟨u, v, hu, hv, halike⟩ := ih
    obtain ⟨v', w, hv', hw, halike'⟩ := ih'
    cases hv.symm.trans hv'
    exact ⟨u, w, hu, hw, halike.trans halike'⟩

/-- **Decoding cannot tell variants apart**: the tree, the reports and the failure are the same, if
the value that a failure quotes is written the same in both. -/
theorem decode_variant {opts : Options} {d d' : Bytes} (h : Variant d d')
    (quoted : ∀ e v v', (decode opts d).result = .error e → e.cause.quotation? ≠ none →
      parse? d = some v → parse? d' = some v' →
      (e.offender? v).map Json.text = (e.offender? v').map Json.text) :
    decode opts d' = decode opts d := by
  obtain ⟨v, v', hv, hv', halike⟩ := h.exists_alike
  have hagree := (halike.agree opts true).decode hv hv'
  have hresult : (decode opts d').result = (decode opts d).result := by
    cases hr : (decode opts d).result with
    | ok t => exact hagree.ok t hr
    | error e =>
      obtain ⟨e', he', hfailure⟩ := hagree.error e hr
      rw [he', hfailure.eq fun hq => quoted e v v' hr hq hv hv']
  calc decode opts d' = ⟨(decode opts d').reports, (decode opts d').result⟩ := rfl
    _ = ⟨(decode opts d).reports, (decode opts d).result⟩ := by rw [hagree.reports, hresult]
    _ = decode opts d := rfl

/-- The members of a node in another order, and a space between two of them: the failure quotes the
same child. -/
theorem decode_variant_swapped :
    let d := utf8 "\x7b\"nodeType\":\"\",\"id\":1,\"nodes\":[7]\x7d"
    let d' := utf8 "\x7b\"id\":1," ++ (utf8 " " ++ utf8 "\"nodeType\":\"\",\"nodes\":[7]\x7d")
    Variant d d' ∧ decode ⟨0, true⟩ d' = decode ⟨0, true⟩ d ∧
      (decode ⟨0, true⟩ d).result =
        .error { path := [.nodes 0], cause := .notObject (utf8 "7") } := by
  intro d d'
  have hd : d = [
      0x7b, 0x22, 0x6e, 0x6f, 0x64, 0x65, 0x54, 0x79, 0x70, 0x65, 0x22, 0x3a, 0x22, 0x22, 0x2c,
      0x22, 0x69, 0x64, 0x22, 0x3a, 0x31, 0x2c, 0x22, 0x6e, 0x6f, 0x64, 0x65, 0x73, 0x22, 0x3a,
      0x5b, 0x37, 0x5d, 0x7d] := by
    decide +kernel
  have hswapped : utf8 "\x7b\"id\":1," ++ utf8 "\"nodeType\":\"\",\"nodes\":[7]\x7d" = [
      0x7b, 0x22, 0x69, 0x64, 0x22, 0x3a, 0x31, 0x2c, 0x22, 0x6e, 0x6f, 0x64, 0x65, 0x54, 0x79,
      0x70, 0x65, 0x22, 0x3a, 0x22, 0x22, 0x2c, 0x22, 0x6e, 0x6f, 0x64, 0x65, 0x73, 0x22, 0x3a,
      0x5b, 0x37, 0x5d, 0x7d] := by
    decide +kernel
  have hd' : d' = [
      0x7b, 0x22, 0x69, 0x64, 0x22, 0x3a, 0x31, 0x2c, 0x20, 0x22, 0x6e, 0x6f, 0x64, 0x65, 0x54,
      0x79, 0x70, 0x65, 0x22, 0x3a, 0x22, 0x22, 0x2c, 0x22, 0x6e, 0x6f, 0x64, 0x65, 0x73, 0x22,
      0x3a, 0x5b, 0x37, 0x5d, 0x7d] := by
    decide +kernel
  let empty : Json := .str ⟨fun _ => [0x22, 0x22]⟩ ""
  obtain ⟨s, t, hv⟩ : ∃ s t, parse? d = some (.obj s ([] ++ ("nodeType", empty) ::
      ("id", .num [0x31]) :: [("nodes", .arr t [.num [0x37]])])) := by
    rw [hd]
    exact ⟨_, _, rfl⟩
  obtain ⟨s', t', hw⟩ : ∃ s' t',
      parse? (utf8 "\x7b\"id\":1," ++ utf8 "\"nodeType\":\"\",\"nodes\":[7]\x7d") =
      some (.obj s' ([("id", .num [0x31]), ("nodeType", empty)] ++
        ("nodes", .arr t' [.num [0x37]]) :: [])) := by
    rw [hswapped]
    exact ⟨_, _, rfl⟩
  obtain ⟨s'', t'', hv'⟩ : ∃ s'' t'', parse? d' = some (.obj s'' [("id", .num [0x31]),
      ("nodeType", empty), ("nodes", .arr t'' [.num [0x37]])]) := by
    rw [hd']
    exact ⟨_, _, rfl⟩
  have between : BetweenTokens (utf8 "\x7b\"id\":1,")
      (utf8 "\"nodeType\":\"\",\"nodes\":[7]\x7d") := by
    refine ⟨by decide +kernel, ?_⟩
    intro b c hb _ hword
    have hcomma : (utf8 "\x7b\"id\":1,").getLast? = some 0x2c := by decide +kernel
    rw [hcomma] at hb
    cases hb
    cases hword
  have space : Gap (utf8 " ") := List.all_eq_true.mp (by decide +kernel)
  have swapped : Alike .node (.obj s ([] ++ ("nodeType", empty) :: ("id", .num [0x31]) ::
        [("nodes", .arr t [.num [0x37]])]))
      (.obj s' ([("id", .num [0x31]), ("nodeType", empty)] ++
        ("nodes", .arr t' [.num [0x37]]) :: [])) :=
    .trans (.swap (by decide)) (.trans (.obj s s')
      (@Alike.member _ _ [("id", .num [0x31]), ("nodeType", empty)] [] _ _ _ (.arr t t')))
  have variant : Variant d d' := .trans (.alike hv hw swapped) (.spaced ⟨_, hw⟩ between space)
  have failing : (decode ⟨0, true⟩ d).result =
      .error { path := [.nodes 0], cause := .notObject (utf8 "7") } :=
    Outcome.failure?_eq_some_iff.mp (by decide +kernel)
  refine ⟨variant, decode_variant variant ?_, failing⟩
  intro e v v' he _ hparse hparse'
  rw [failing] at he
  cases he
  cases hv.symm.trans hparse
  cases hv'.symm.trans hparse'
  rfl

end SolidityTree
