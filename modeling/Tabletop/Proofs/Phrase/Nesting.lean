import Tabletop.Proofs.Phrase.Dense
import Tabletop.Nesting

/-! Parentheses of admissible phrases. They come from calls alone and close again, so the running
depth within a phrase stays below the depth of its calls and the phrase leaves it as it was. -/
namespace Tabletop

namespace Nesting

def Below (bound : Int) (text : List Char) : Prop := ∀ part, part <+: text → depth part < bound

theorem foldl_step (text : List Char) (start : Int) : text.foldl step start = start + depth text := by
  induction text generalizing start with
  | nil => exact (Int.add_zero start).symm
  | cons c text ih =>
    have moved : step start c = start + step 0 c := by
      unfold step
      split
      · omega
      · split <;> omega
    rw [depth, List.foldl_cons, List.foldl_cons, ih, ih (step 0 c), moved, Int.add_assoc]

theorem Below.behind (bound : Int) (before rest : List Char) (below : Below bound (before ++ rest)) :
    Below (bound - depth before) rest := by
  intro part within
  have shallow := below (before ++ part) ((List.prefix_append_right_inj before).mpr within)
  rw [depth_append, foldl_step] at shallow
  omega

/-- The running depth rises by so much from the beginning of a text to the rest of it. -/
def Rises (text : List Char) (rise : Int) (rest : List Char) : Prop :=
  ∃ used, text = used ++ rest ∧ depth used = rise

theorem Rises.trans (text middle rest : List Char) (first second : Int) (rises : Rises text first middle)
    (onward : Rises middle second rest) : Rises text (first + second) rest := by
  obtain ⟨used, rfl, rfl⟩ := rises
  obtain ⟨more, rfl, rfl⟩ := onward
  refine ⟨used ++ more, (List.append_assoc _ _ _).symm, ?_⟩
  rw [depth_append, foldl_step]

theorem Rises.level (text middle rest : List Char) (rise : Int) (rises : Rises text rise middle)
    (level : Rises middle 0 rest) : Rises text rise rest := by
  have both := rises.trans text middle rest rise 0 level
  rwa [Int.add_zero] at both

theorem Rises.onward (text middle rest : List Char) (rise : Int) (level : Rises text 0 middle)
    (rises : Rises middle rise rest) : Rises text rise rest := by
  have both := level.trans text middle rest 0 rise rises
  rwa [Int.zero_add] at both

theorem Below.positive (bound : Int) (text : List Char) (below : Below bound text) : 0 < bound :=
  below [] List.nil_prefix

theorem Below.not_tooDeep (start bound : Int) (text : List Char) (below : Below bound text)
    (within : start + bound ≤ limit + 1) : tooDeepFrom start text = none := by
  induction text generalizing start bound with
  | nil => rfl
  | cons c text ih =>
    have first := below [c] (List.prefix_append [c] text)
    have single : depth [c] = step 0 c := rfl
    have moved : step start c = start + depth [c] := foldl_step [c] start
    have rest := below.behind bound [c] text
    rw [tooDeepFrom, if_neg (by omega), Option.map_eq_none_iff]
    exact ih (step start c) (bound - depth [c]) rest (by omega)

theorem Below.cons (bound : Int) (c : Char) (text : List Char) (positive : 0 < bound)
    (below : Below (bound - step 0 c) text) : Below bound (c :: text) := by
  intro part within
  rcases List.prefix_cons_iff.mp within with rfl | ⟨part, rfl, inside⟩
  · exact positive
  · have shallow := below part inside
    have moved : depth (c :: part) = step 0 c + depth part := foldl_step part (step 0 c)
    omega

/-- The count refuses no other texts than those that go beyond the limit. -/
theorem below_of_not_tooDeep (start : Int) (text : List Char) (within : start ≤ limit)
    (passed : tooDeepFrom start text = none) : Below (limit + 1 - start) text := by
  induction text generalizing start with
  | nil =>
    intro part inside
    rw [List.prefix_nil.mp inside]
    change (0 : Int) < _
    omega
  | cons c text ih =>
    have moved : step start c = start + step 0 c := foldl_step [c] start
    rw [tooDeepFrom] at passed
    split at passed
    · cases passed
    · rename_i shallow
      have rest := ih (step start c) (by omega) (Option.map_eq_none_iff.mp passed)
      apply Below.cons
      · omega
      · rw [moved] at rest
        rwa [Int.sub_sub]

end Nesting

namespace Phrase
open Nesting

def Plain (text : List Char) : Prop := ∀ c ∈ text, c ≠ '(' ∧ c ≠ ')'

theorem plain_append (first second : List Char) (left : Plain first) (right : Plain second) :
    Plain (first ++ second) := by
  intro c member
  rcases List.mem_append.mp member with inside | inside
  · exact left c inside
  · exact right c inside

theorem plain_cons (c : Char) (text : List Char) (first : c ≠ '(' ∧ c ≠ ')') (rest : Plain text) :
    Plain (c :: text) := List.forall_mem_cons.mpr ⟨first, rest⟩

theorem plain_of_class (p : Char → Bool) (text : List Char) (inside : ∀ c ∈ text, p c = true)
    (opening : p '(' = false) (closing : p ')' = false) : Plain text := by
  intro c member
  have belongs := inside c member
  constructor
  · rintro rfl
    rw [opening] at belongs
    cases belongs
  · rintro rfl
    rw [closing] at belongs
    cases belongs

theorem plain_digits (run : List Char) (digits : Digits run) : Plain run :=
  plain_of_class Char.isDigit run digits (by decide) (by decide)

theorem plain_layout (layout : List Char) (layouts : Layout layout) : Plain layout :=
  plain_of_class Text.isLayout layout layouts (by decide) (by decide)

theorem plain_dense (text : List Char) (dense : Dense text) : Plain text :=
  plain_of_class isTokenPart text dense (by decide) (by decide)

theorem plain_name (name : List Char) (isName : IsName name) : Plain name :=
  plain_dense name (dense_name name isName.parts)

theorem plain_dice (dice : Dice) (admissible : dice.Admissible) : Plain dice.text :=
  plain_dense dice.text (dice.dense admissible)

theorem plain_number (negative : Bool) (digits : List Char) (inside : Digits digits) :
    Plain (Term.number negative digits).text := by
  cases negative with
  | true => exact plain_cons _ _ (by decide) (plain_digits digits inside)
  | false => exact plain_digits digits inside

theorem plain_joint (joint : Joint) (admissible : joint.Admissible) : Plain joint.text := by
  apply plain_append _ _ (plain_layout _ admissible.before)
  apply plain_cons _ _ _ (plain_layout _ admissible.after)
  cases joint.operator <;> decide

theorem step_of_plain (depth : Int) (c : Char) (plain : c ≠ '(' ∧ c ≠ ')') : step depth c = depth := by
  simp [step, plain]

theorem depth_plain (text : List Char) (plain : Plain text) : depth text = 0 := by
  induction text with
  | nil => rfl
  | cons c text ih =>
    obtain ⟨first, rest⟩ := List.forall_mem_cons.mp plain
    rw [depth, List.foldl_cons, step_of_plain 0 c first]
    exact ih rest

theorem depth_opening (name before after : List Char) (isName : IsName name) (layout : Layout before)
    (layout' : Layout after) : depth (name ++ (before ++ '(' :: after)) = 1 := by
  have plain := depth_plain (name ++ before) (plain_append _ _ (plain_name name isName) (plain_layout before layout))
  have inner := depth_plain after (plain_layout after layout')
  rw [← List.append_assoc, depth_append, plain, List.foldl_cons, foldl_step, inner]
  rfl

mutual
theorem Term.balanced (term : Term) (admissible : term.Admissible) : depth term.text = 0 := by
  match term with
  | .dice dice => exact depth_plain _ (plain_dice dice admissible)
  | .number negative digits => exact depth_plain _ (plain_number negative digits admissible.2)
  | .call name beforeOpening afterOpening argument beforeClosing =>
    obtain ⟨isName, before, after, inner, closing⟩ := admissible
    have opening := depth_opening name beforeOpening afterOpening isName before after
    have written : (Term.call name beforeOpening afterOpening argument beforeClosing).text =
        (name ++ (beforeOpening ++ '(' :: afterOpening)) ++ (argument.text ++ (beforeClosing ++ [')'])) := by
      simp [Term.text]
    have layout := depth_plain beforeClosing (plain_layout _ closing)
    rw [written, depth_append, opening, foldl_step, depth_append, argument.balanced inner, foldl_step,
      depth_append, layout]
    rfl
theorem Chain.balanced (chain : Chain) (admissible : chain.Admissible) : depth chain.text = 0 := by
  match chain with
  | .last term => exact term.balanced admissible
  | .link term joint rest =>
    obtain ⟨first, joins, others⟩ := admissible
    rw [Chain.text, depth_append, term.balanced first, foldl_step, depth_append,
      depth_plain _ (plain_joint joint joins), foldl_step, rest.balanced others]
    rfl
end

theorem tooDeepFrom_plain (depth : Int) (text rest : List Char) (within : depth ≤ limit)
    (plain : Plain text) :
    tooDeepFrom depth (text ++ rest) = none ↔ tooDeepFrom depth rest = none := by
  induction text with
  | nil => rfl
  | cons c text ih =>
    have same := step_of_plain depth c (plain c (by simp))
    rw [List.cons_append, tooDeepFrom, same, if_neg (by omega), Option.map_eq_none_iff]
    exact ih fun c member => plain c (by simp [member])

theorem tooDeepFrom_opening (depth : Int) (rest : List Char) (within : depth + 1 ≤ limit) :
    tooDeepFrom depth ('(' :: rest) = none ↔ tooDeepFrom (depth + 1) rest = none := by
  have up : step depth '(' = depth + 1 := rfl
  rw [tooDeepFrom, up, if_neg (by omega), Option.map_eq_none_iff]

theorem tooDeepFrom_closing (depth : Int) (rest : List Char) (within : depth ≤ limit) :
    tooDeepFrom (depth + 1) (')' :: rest) = none ↔ tooDeepFrom depth rest = none := by
  have down : step (depth + 1) ')' = depth := by simp [step]
  rw [tooDeepFrom, down, if_neg (by omega), Option.map_eq_none_iff]

mutual
theorem Term.tooDeepFrom_text (term : Term) (depth : Int) (rest : List Char)
    (admissible : term.Admissible) (within : depth + term.depth ≤ limit) :
    tooDeepFrom depth (term.text ++ rest) = none ↔ tooDeepFrom depth rest = none := by
  match term with
  | .dice dice =>
    exact tooDeepFrom_plain depth _ rest (by simpa [Term.depth] using within)
      (plain_dice dice admissible)
  | .number negative digits =>
    exact tooDeepFrom_plain depth _ rest (by simpa [Term.depth] using within)
      (plain_number negative digits admissible.2)
  | .call name beforeOpening afterOpening argument beforeClosing =>
    obtain ⟨isName, before, after, inner, closing⟩ := admissible
    have below : depth + 1 + argument.depth ≤ limit := by
      simp only [Term.depth] at within
      omega
    have opening := plain_append _ _ (plain_name name isName) (plain_layout beforeOpening before)
    have written : (Term.call name beforeOpening afterOpening argument beforeClosing).text ++ rest =
        (name ++ beforeOpening) ++
          '(' :: (afterOpening ++ (argument.text ++ (beforeClosing ++ ')' :: rest))) := by
      simp [Term.text]
    rw [written, tooDeepFrom_plain depth _ _ (by omega) opening,
      tooDeepFrom_opening depth _ (by omega),
      tooDeepFrom_plain _ _ _ (by omega) (plain_layout afterOpening after),
      argument.tooDeepFrom_text (depth + 1) _ inner below,
      tooDeepFrom_plain _ _ _ (by omega) (plain_layout beforeClosing closing),
      tooDeepFrom_closing depth rest (by omega)]
theorem Chain.tooDeepFrom_text (chain : Chain) (depth : Int) (rest : List Char)
    (admissible : chain.Admissible) (within : depth + chain.depth ≤ limit) :
    tooDeepFrom depth (chain.text ++ rest) = none ↔ tooDeepFrom depth rest = none := by
  match chain with
  | .last term => exact term.tooDeepFrom_text depth rest admissible within
  | .link term joint more =>
    obtain ⟨admissible, joins, others⟩ := admissible
    simp only [Chain.depth] at within
    rw [Chain.text, List.append_assoc, List.append_assoc,
      term.tooDeepFrom_text depth _ admissible (by omega),
      tooDeepFrom_plain depth _ _ (by omega) (plain_joint joint joins),
      more.tooDeepFrom_text depth rest others (by omega)]
end

end Phrase

/-- A derivation whose calls are shallow enough passes the count of parentheses. -/
theorem Phrase.Derives.not_tooDeep (phrase : Phrase) (text : String) (derives : phrase.Derives text)
    (shallow : phrase.chain.depth ≤ Nesting.limit) : Nesting.tooDeep? text.toList = none := by
  rw [← derives.written, Phrase.text, Nesting.tooDeep?,
    Phrase.tooDeepFrom_plain 0 _ _ (by decide) (Phrase.plain_layout _ derives.before),
    phrase.chain.tooDeepFrom_text 0 _ derives.chain (by omega)]
  have after := Phrase.tooDeepFrom_plain 0 phrase.after [] (by decide)
    (Phrase.plain_layout _ derives.after)
  rw [List.append_nil] at after
  exact after.mpr rfl

end Tabletop
