import Tabletop.Proofs.Phrase.Layout
import Tabletop.Proofs.Scanner.Chain

/-! Places within a text. A place that is neither the beginning nor the end of a chain either cuts a token
in two or leaves room for layout: there the chain can be widened, and it keeps its tokens. -/
namespace Tabletop.Phrase
open Text (Ends)

structure Parted (text left right : List Char) : Prop where
  whole : text = left ++ right
  left : left ≠ []
  right : right ≠ []

theorem Parted.ends (p : Char → Bool) (text left right more other : List Char)
    (parted : Parted text left right) (ends : Ends p (text ++ more)) : Ends p (left ++ other) := by
  obtain ⟨rfl, some, _⟩ := parted
  obtain ⟨c, tail, rfl⟩ := List.exists_cons_of_ne_nil some
  exact ends

mutual
/-- The two sides of a place at which a dice term, a number or a name is cut in two. -/
inductive Term.Cut : Term → List Char → List Char → Prop
  | dice (dice : Dice) (left right : List Char) (parted : Parted dice.text left right) :
      Term.Cut (.dice dice) left right
  | number (negative : Bool) (digits left right : List Char)
      (parted : Parted (Term.number negative digits).text left right) :
      Term.Cut (.number negative digits) left right
  | name (name beforeOpening afterOpening : List Char) (argument : Chain)
      (beforeClosing left right : List Char) (parted : Parted name left right) :
      Term.Cut (.call name beforeOpening afterOpening argument beforeClosing) left
        (right ++ (beforeOpening ++ '(' ::
          (afterOpening ++ (argument.text ++ (beforeClosing ++ [')'])))))
  | argument (name beforeOpening afterOpening : List Char) (argument : Chain)
      (beforeClosing left right : List Char) (cut : argument.Cut left right) :
      Term.Cut (.call name beforeOpening afterOpening argument beforeClosing)
        (name ++ (beforeOpening ++ '(' :: (afterOpening ++ left))) (right ++ (beforeClosing ++ [')']))
inductive Chain.Cut : Chain → List Char → List Char → Prop
  | last (term : Term) (left right : List Char) (cut : term.Cut left right) :
      Chain.Cut (.last term) left right
  | first (term : Term) (joint : Joint) (rest : Chain) (left right : List Char)
      (cut : term.Cut left right) :
      Chain.Cut (.link term joint rest) left (right ++ (joint.text ++ rest.text))
  | later (term : Term) (joint : Joint) (rest : Chain) (left right : List Char)
      (cut : rest.Cut left right) :
      Chain.Cut (.link term joint rest) (term.text ++ (joint.text ++ left)) right
end

mutual
theorem Term.Cut.parted (term : Term) (left right : List Char) (cut : term.Cut left right) :
    Parted term.text left right := by
  match term, left, right, cut with
  | _, _, _, .dice dice left right parted => exact parted
  | _, _, _, .number negative digits left right parted => exact parted
  | _, _, _, .name name beforeOpening afterOpening argument beforeClosing left right parted =>
    obtain ⟨rfl, some, some'⟩ := parted
    exact ⟨by simp [Term.text], some, by simp [some']⟩
  | _, _, _, .argument name beforeOpening afterOpening argument beforeClosing left right cut =>
    obtain ⟨whole, some, some'⟩ := Chain.Cut.parted argument left right cut
    exact ⟨by simp [Term.text, whole], by simp, by simp⟩
theorem Chain.Cut.parted (chain : Chain) (left right : List Char) (cut : chain.Cut left right) :
    Parted chain.text left right := by
  match chain, left, right, cut with
  | _, _, _, .last term left right cut => exact Term.Cut.parted term left right cut
  | _, _, _, .first term joint rest left right cut =>
    obtain ⟨whole, some, some'⟩ := Term.Cut.parted term left right cut
    exact ⟨by simp [Chain.text, whole], some, by simp [some']⟩
  | _, _, _, .later term joint rest left right cut =>
    obtain ⟨whole, some, some'⟩ := Chain.Cut.parted rest left right cut
    exact ⟨by simp [Chain.text, whole], by simp [some], some'⟩
end

def Term.CutAt (term : Term) (n : Nat) : Prop := ∃ left right, term.Cut left right ∧ left.length = n

def Chain.CutAt (chain : Chain) (n : Nat) : Prop := ∃ left right, chain.Cut left right ∧ left.length = n

theorem exists_parted (text : List Char) (n : Nat) :
    (∃ left right, Parted text left right ∧ left.length = n) ↔ 0 < n ∧ n < text.length := by
  constructor
  · rintro ⟨left, right, ⟨rfl, some, some'⟩, rfl⟩
    have positive := List.length_pos_iff.mpr some
    have positive' := List.length_pos_iff.mpr some'
    rw [List.length_append]
    omega
  · rintro ⟨positive, inside⟩
    have length : (text.take n).length = n := List.length_take_of_le (Nat.le_of_lt inside)
    have length' : (text.drop n).length = text.length - n := List.length_drop
    refine ⟨text.take n, text.drop n, ⟨(List.take_append_drop n text).symm, ?_, ?_⟩, length⟩
    · apply List.length_pos_iff.mp
      omega
    · apply List.length_pos_iff.mp
      omega

theorem Term.cutAt_dice (dice : Dice) (n : Nat) :
    (Term.dice dice).CutAt n ↔ 0 < n ∧ n < dice.text.length := by
  rw [← exists_parted]
  constructor
  · rintro ⟨left, right, cut, same⟩
    cases cut with
    | dice _ _ _ parted => exact ⟨left, right, parted, same⟩
  · rintro ⟨left, right, parted, same⟩
    exact ⟨left, right, .dice dice left right parted, same⟩

theorem Term.cutAt_number (negative : Bool) (digits : List Char) (n : Nat) :
    (Term.number negative digits).CutAt n ↔
      0 < n ∧ n < (Term.number negative digits).text.length := by
  rw [← exists_parted]
  constructor
  · rintro ⟨left, right, cut, same⟩
    cases cut with
    | number _ _ _ _ parted => exact ⟨left, right, parted, same⟩
  · rintro ⟨left, right, parted, same⟩
    exact ⟨left, right, .number negative digits left right parted, same⟩

theorem Term.cutAt_call (name beforeOpening afterOpening : List Char) (argument : Chain)
    (beforeClosing : List Char) (n : Nat) :
    (Term.call name beforeOpening afterOpening argument beforeClosing).CutAt n ↔
      (0 < n ∧ n < name.length) ∨ ∃ m, argument.CutAt m ∧
        name.length + beforeOpening.length + 1 + afterOpening.length + m = n := by
  constructor
  · rintro ⟨left, right, cut, rfl⟩
    cases cut with
    | name _ _ _ _ _ _ right parted => exact .inl ((exists_parted name _).mp ⟨left, right, parted, rfl⟩)
    | argument _ _ _ _ _ left right cut =>
      refine .inr ⟨left.length, ⟨left, right, cut, rfl⟩, ?_⟩
      simp only [List.length_append, List.length_cons]
      omega
  · rintro (inside | ⟨m, ⟨left, right, cut, rfl⟩, rfl⟩)
    · obtain ⟨left, right, parted, same⟩ := (exists_parted name n).mpr inside
      exact ⟨left, _, .name name beforeOpening afterOpening argument beforeClosing left right parted, same⟩
    · refine ⟨_, _, .argument name beforeOpening afterOpening argument beforeClosing left right cut, ?_⟩
      simp only [List.length_append, List.length_cons]
      omega

theorem Chain.cutAt_last (term : Term) (n : Nat) : (Chain.last term).CutAt n ↔ term.CutAt n := by
  constructor
  · rintro ⟨left, right, cut, same⟩
    cases cut with
    | last _ _ _ cut => exact ⟨left, right, cut, same⟩
  · rintro ⟨left, right, cut, same⟩
    exact ⟨left, right, .last term left right cut, same⟩

theorem Chain.cutAt_link (term : Term) (joint : Joint) (rest : Chain) (n : Nat) :
    (Chain.link term joint rest).CutAt n ↔
      term.CutAt n ∨ ∃ m, rest.CutAt m ∧ term.text.length + joint.text.length + m = n := by
  constructor
  · rintro ⟨left, right, cut, rfl⟩
    cases cut with
    | first _ _ _ _ right cut => exact .inl ⟨left, right, cut, rfl⟩
    | later _ _ _ left _ cut =>
      refine .inr ⟨left.length, ⟨left, right, cut, rfl⟩, ?_⟩
      simp only [List.length_append, Nat.add_assoc]
  · rintro (⟨left, right, cut, same⟩ | ⟨m, ⟨left, right, cut, rfl⟩, rfl⟩)
    · exact ⟨left, _, .first term joint rest left right cut, same⟩
    · refine ⟨_, _, .later term joint rest left right cut, ?_⟩
      simp only [List.length_append, Nat.add_assoc]

theorem dense_behind_sign (negative : Bool) (digits left right : List Char) (inside : Digits digits)
    (parted : Parted (Term.number negative digits).text left right) : Dense right := by
  obtain ⟨whole, some, _⟩ := parted
  have dense := dense_digits digits inside
  cases negative with
  | false => exact ((dense_append _ _).mp (whole ▸ dense : Dense (left ++ right))).2
  | true =>
    obtain ⟨c, left, rfl⟩ := List.exists_cons_of_ne_nil some
    exact ((dense_append _ _).mp ((List.cons.inj whole).2 ▸ dense)).2

theorem PositiveRun.append (first second : List Char) (positive : PositiveRun first)
    (digits : Digits (first ++ second)) : PositiveRun (first ++ second) := by
  refine ⟨digits, ?_⟩
  rw [Numeral.value, Nat.ofDigitChars_append, Nat.ofDigitChars_eq_ofDigitChars_zero]
  have scale : 0 < 10 ^ second.length := Nat.pow_pos (by decide)
  exact Nat.add_pos_left (Nat.mul_pos scale positive.2) _

/-- What a name begins with is a name, and its digits are no more than those of the whole name. -/
theorem IsName.front (first second : List Char) (some : first ≠ []) (isName : IsName (first ++ second)) :
    IsName first := by
  obtain ⟨c, first, rfl⟩ := List.exists_cons_of_ne_nil some
  obtain ⟨⟨other, rest, same, start, parts⟩, notDice⟩ := isName
  obtain ⟨rfl, rfl⟩ := List.cons.inj same
  refine ⟨⟨c, first, rfl, start, (List.forall_mem_append.mp parts).1⟩, ?_⟩
  intro rest same positive
  obtain ⟨rfl, rfl⟩ := List.cons.inj same
  obtain ⟨more, longer⟩ := Text.takeWhile_append_prefix Char.isDigit first second
  have digits := digits_takeWhile (first ++ second)
  apply notDice (first ++ second) rfl
  rw [← longer] at digits ⊢
  exact positive.append _ _ digits

theorem nameOverlong?_front (first second : List Char) (short : nameOverlong? (first ++ second) = none) :
    nameOverlong? first = none := by
  unfold nameOverlong?
  split
  · rename_i rest
    have whole := (Numeral.overlong?_eq_none _).mp short
    rw [Numeral.overlong?_eq_none]
    exact (Text.takeWhile_append_prefix Char.isDigit rest second).length_le.trans whole
  · rfl

def Term.Widens (term : Term) (more left right : List Char) : Prop :=
  ∃ wide : Term, wide.text = left ++ (more ++ right) ∧ wide.Admissible ∧ wide.bare = term.bare

def Chain.Widens (chain : Chain) (more left right : List Char) : Prop :=
  ∃ wide : Chain, wide.text = left ++ (more ++ right) ∧ wide.Admissible ∧ wide.bare = chain.bare

theorem layout_widened (left right more : List Char) (layout : Layout (left ++ right))
    (blank : Layout more) : Layout (left ++ (more ++ right)) := by
  obtain ⟨first, second⟩ := List.forall_mem_append.mp layout
  exact List.forall_mem_append.mpr ⟨first, List.forall_mem_append.mpr ⟨blank, second⟩⟩

theorem split_append (first second left right : List Char) (same : first ++ second = left ++ right) :
    (∃ more, more ≠ [] ∧ first = left ++ more ∧ right = more ++ second) ∨
      ∃ more, left = first ++ more ∧ second = more ++ right := by
  rcases List.append_eq_append_iff.mp same with ⟨more, rfl, rfl⟩ | ⟨more, rfl, rfl⟩
  · exact .inr ⟨more, rfl, rfl⟩
  · by_cases nothing : more = []
    · subst nothing
      exact .inr ⟨[], by simp, by simp⟩
    · exact .inl ⟨more, nothing, rfl, rfl⟩

theorem split_cons (first : List Char) (c : Char) (second left right : List Char)
    (same : first ++ c :: second = left ++ right) :
    (∃ more, first = left ++ more ∧ right = more ++ c :: second) ∨
      ∃ more, left = first ++ c :: more ∧ second = more ++ right := by
  rcases split_append _ _ _ _ same with ⟨more, _, first, right⟩ | ⟨more, rfl, rest⟩
  · exact .inl ⟨more, first, right⟩
  · cases more with
    | nil => exact .inl ⟨[], by simp, rest.symm⟩
    | cons other more =>
      obtain ⟨rfl, behind⟩ := List.cons.inj rest
      exact .inr ⟨more, rfl, behind⟩

section Widening

variable (more : List Char) (blank : Layout more)
include blank

mutual
theorem Term.cut_or_widens (term : Term) (left right : List Char) (admissible : term.Admissible)
    (parted : Parted term.text left right) : term.Cut left right ∨ term.Widens more left right := by
  match term with
  | .dice dice => exact .inl (.dice dice left right parted)
  | .number negative digits => exact .inl (.number negative digits left right parted)
  | .call name beforeOpening afterOpening argument beforeClosing =>
    obtain ⟨whole, some, some'⟩ := parted
    obtain ⟨isName, before, after, inner, closing⟩ := admissible
    rw [Term.text] at whole
    rcases split_append _ _ _ _ whole with ⟨part, rest, rfl, rfl⟩ | ⟨left, rfl, behindName⟩
    · exact .inl (.name _ _ _ _ _ _ _ ⟨rfl, some, rest⟩)
    rcases split_cons _ _ _ _ _ behindName with ⟨part, rfl, rfl⟩ | ⟨left, rfl, behindOpening⟩
    · refine .inr ⟨.call name (left ++ (more ++ part)) afterOpening argument beforeClosing, ?_,
        ⟨isName, layout_widened _ _ _ before blank, after, inner, closing⟩, rfl⟩
      simp [Term.text]
    rcases split_append _ _ _ _ behindOpening with ⟨part, _, rfl, rfl⟩ | ⟨left, rfl, fromArgument⟩
    · refine .inr ⟨.call name beforeOpening (left ++ (more ++ part)) argument beforeClosing, ?_,
        ⟨isName, before, layout_widened _ _ _ after blank, inner, closing⟩, rfl⟩
      simp [Term.text]
    rcases split_append _ _ _ _ fromArgument with ⟨part, rest, text, rfl⟩ | ⟨left, rfl, behindArgument⟩
    · by_cases first : left = []
      · -- The place before the argument belongs to the layout after the parenthesis.
        subst first
        refine .inr ⟨.call name beforeOpening (afterOpening ++ (more ++ [])) argument beforeClosing, ?_,
          ⟨isName, before, layout_widened _ _ _ (by simpa using after) blank, inner, closing⟩, rfl⟩
        simp [Term.text, text]
      · rcases argument.cut_or_widens left part inner ⟨text, first, rest⟩ with
          cut | ⟨wide, written, admissible, same⟩
        · exact .inl (.argument _ _ _ _ _ _ _ cut)
        · refine .inr ⟨.call name beforeOpening afterOpening wide beforeClosing, ?_,
            ⟨isName, before, after, admissible, closing⟩, ?_⟩
          · simp [Term.text, written]
          · rw [Term.bare, same, Term.bare]
    rcases split_cons _ _ _ _ _ behindArgument with ⟨part, rfl, rfl⟩ | ⟨left, rfl, behindClosing⟩
    · refine .inr ⟨.call name beforeOpening afterOpening argument (left ++ (more ++ part)), ?_,
        ⟨isName, before, after, inner, layout_widened _ _ _ closing blank⟩, rfl⟩
      simp [Term.text]
    · exact absurd (List.nil_eq_append_iff.mp behindClosing).2 some'
theorem Chain.cut_or_widens (chain : Chain) (left right : List Char) (admissible : chain.Admissible)
    (parted : Parted chain.text left right) : chain.Cut left right ∨ chain.Widens more left right := by
  match chain with
  | .last term =>
    rcases term.cut_or_widens left right admissible parted with cut | ⟨wide, written, admissible, same⟩
    · exact .inl (.last _ _ _ cut)
    · exact .inr ⟨.last wide, written, admissible, by rw [Chain.bare, same, Chain.bare]⟩
  | .link term joint rest =>
    obtain ⟨whole, some, some'⟩ := parted
    obtain ⟨admissible, ⟨before, after⟩, others⟩ := admissible
    rw [Chain.text] at whole
    rcases split_append _ _ _ _ whole with ⟨part, behind, text, rfl⟩ | ⟨left, rfl, behindTerm⟩
    · rcases term.cut_or_widens left part admissible ⟨text, some, behind⟩ with
        cut | ⟨wide, written, admissible, same⟩
      · exact .inl (.first _ _ _ _ _ cut)
      · refine .inr ⟨.link wide joint rest, ?_, ⟨admissible, ⟨before, after⟩, others⟩, ?_⟩
        · simp [Chain.text, written]
        · rw [Chain.bare, same, Chain.bare]
    obtain ⟨beforeJoint, operator, afterJoint⟩ := joint
    rw [Joint.text_append] at behindTerm
    rcases split_cons _ _ _ _ _ behindTerm with ⟨part, rfl, rfl⟩ | ⟨left, rfl, behindOperator⟩
    · refine .inr ⟨.link term ⟨left ++ (more ++ part), operator, afterJoint⟩ rest, ?_,
        ⟨admissible, ⟨layout_widened _ _ _ before blank, after⟩, others⟩, rfl⟩
      simp [Chain.text, Joint.text]
    rcases split_append _ _ _ _ behindOperator with ⟨part, _, rfl, rfl⟩ | ⟨left, rfl, text⟩
    · refine .inr ⟨.link term ⟨beforeJoint, operator, left ++ (more ++ part)⟩ rest, ?_,
        ⟨admissible, ⟨before, layout_widened _ _ _ after blank⟩, others⟩, rfl⟩
      simp [Chain.text, Joint.text]
    by_cases first : left = []
    · subst first
      refine .inr ⟨.link term ⟨beforeJoint, operator, afterJoint ++ (more ++ [])⟩ rest, ?_,
        ⟨admissible, ⟨before, layout_widened _ _ _ (by simpa using after) blank⟩, others⟩, rfl⟩
      simp [Chain.text, Joint.text, text]
    · rcases rest.cut_or_widens left right others ⟨text, first, some'⟩ with
        cut | ⟨wide, written, others, same⟩
      · left
        have later := Chain.Cut.later term ⟨beforeJoint, operator, afterJoint⟩ rest _ _ cut
        simpa [Joint.text] using later
      · refine .inr ⟨.link term ⟨beforeJoint, operator, afterJoint⟩ wide, ?_,
          ⟨admissible, ⟨before, after⟩, others⟩, ?_⟩
        · simp [Chain.text, Joint.text, written]
        · rw [Chain.bare, same, Chain.bare]
end

end Widening

/-- A place within a derivation cuts a token, or the text with layout there has a derivation with the same
tokens. -/
theorem Derives.cut_or_widens (phrase : Phrase) (text : String) (derives : phrase.Derives text)
    (left right more : List Char) (whole : text.toList = left ++ right) (blank : Layout more) :
    (∃ part, (∃ rest, phrase.chain.Cut part rest) ∧ left = phrase.before ++ part) ∨
      ∃ wide : Phrase, wide.Derives (String.ofList (left ++ (more ++ right))) ∧
        wide.chain.bare = phrase.chain.bare := by
  obtain ⟨before, chain, after⟩ := phrase
  obtain ⟨written, layout, admissible, layout'⟩ := derives
  rw [whole, Phrase.text] at written
  rcases split_append _ _ _ _ written with ⟨part, _, rfl, rfl⟩ | ⟨left, rfl, behind⟩
  · refine .inr ⟨⟨left ++ (more ++ part), chain, after⟩,
      ⟨?_, layout_widened _ _ _ layout blank, admissible, layout'⟩, rfl⟩
    simp [Phrase.text]
  rcases split_append _ _ _ _ behind with ⟨part, some, text, rfl⟩ | ⟨left, rfl, rfl⟩
  · by_cases first : left = []
    · subst first
      refine .inr ⟨⟨before ++ (more ++ []), chain, after⟩,
        ⟨?_, layout_widened _ _ _ (by simpa using layout) blank, admissible, layout'⟩, rfl⟩
      simp [Phrase.text, text]
    · rcases chain.cut_or_widens more blank left part admissible ⟨text, first, some⟩ with
        cut | ⟨wide, written, admissible, same⟩
      · exact .inl ⟨left, ⟨part, cut⟩, rfl⟩
      · refine .inr ⟨⟨before, wide, after⟩, ⟨?_, layout, admissible, layout'⟩, same⟩
        simp [Phrase.text, written]
  · refine .inr ⟨⟨before, chain, left ++ (more ++ right)⟩,
      ⟨?_, layout, admissible, layout_widened _ _ _ layout' blank⟩, rfl⟩
    simp [Phrase.text]

end Tabletop.Phrase
