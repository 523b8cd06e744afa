import Tabletop.Proofs.Node.Assemble
import Tabletop.Proofs.Phrase.Roll

/-! The numerals of a tree that are converted only when it is assembled: numbers and numbers of dice.
For the tree of a text they decide alone whether it can be assembled, and the leftmost one that is
too long decides how that fails. -/
namespace Tabletop

namespace Node

mutual
/-- The nodes of numbers and of numbers of dice from left to right. -/
def numerals : Node → List Node
  | ⟨rule, text, start, stop, children⟩ =>
    (if rule = .number ∨ rule = .diceNumber then [⟨rule, text, start, stop, children⟩] else []) ++
      numeralsAmong children
def numeralsAmong : List Node → List Node
  | [] => []
  | child :: rest => child.numerals ++ numeralsAmong rest
end

/-- The number of digits of a numeral; a sign does not count. -/
def digitCount (node : Node) : Nat := (node.text.toList.filter Char.isDigit).length

def overlong (numeral : Node) : Failure :=
  if numeral.rule = .number then numeral.violation .signed else .overlong numeral.digitCount

def overlong? (numeral : Node) : Option Failure :=
  if numeral.digitCount ≤ Numeral.maxDigits then none else some numeral.overlong

theorem overlong?_of_digitCount (numeral : Node) (run : List Char)
    (counted : numeral.digitCount = run.length) :
    numeral.overlong? = (Numeral.overlong? run).map fun _ => numeral.overlong := by
  rw [overlong?, counted, Numeral.overlong?]
  split <;> rfl

theorem numeralsAmong_append (first second : List Node) :
    numeralsAmong (first ++ second) = numeralsAmong first ++ numeralsAmong second := by
  induction first with
  | nil => rfl
  | cons node rest ih => rw [List.cons_append, numeralsAmong, numeralsAmong, ih, List.append_assoc]

theorem numeralsAmong_singleton (node : Node) : numeralsAmong [node] = node.numerals := by
  rw [numeralsAmong, numeralsAmong, List.append_nil]

theorem numerals_spanning (rule : Rule) (start : Nat) (text : List Char) (children : List Node)
    (other : rule ≠ .number ∧ rule ≠ .diceNumber) :
    (spanning rule start text children).numerals = numeralsAmong children := by
  rw [spanning, numerals, if_neg (by simp [other]), List.nil_append]

theorem numerals_around (rule : Rule) (child : Node) (other : rule ≠ .number ∧ rule ≠ .diceNumber) :
    (around rule child).numerals = child.numerals := by
  rw [around, numerals, if_neg (by simp [other]), List.nil_append, numeralsAmong_singleton]

theorem numerals_leaf (rule : Rule) (start : Nat) (text : List Char)
    (numeral : rule = .number ∨ rule = .diceNumber) :
    (spanning rule start text []).numerals = [spanning rule start text []] := by
  rw [spanning, numerals, if_pos numeral, numeralsAmong, List.append_nil]

end Node

def Assembly.failed? {α : Type} (assembly : Assembly α) : Option Failure :=
  match assembly.outcome with
  | .ok _ => none
  | .error failure => some failure

theorem Assembly.failed?_andThen {α β : Type} (first : Assembly α) (second : α → Assembly β)
    (later : Option Failure) (fails : ∀ a, (second a).failed? = later) :
    (first.andThen second).failed? = first.failed?.or later := by
  obtain ⟨rolls, outcome⟩ := first
  cases outcome with
  | error failure => rfl
  | ok a => exact fails a

namespace Phrase
open Node (spanning numeralsAmong)

theorem filter_digits (run : List Char) (digits : Digits run) : run.filter Char.isDigit = run :=
  List.filter_eq_self.mpr digits

theorem digitCount_number (start : Nat) (negative : Bool) (digits : List Char)
    (inside : Digits digits) :
    (spanning .number start (Term.number negative digits).text []).digitCount = digits.length := by
  have text : (spanning .number start (Term.number negative digits).text []).text.toList =
      (Term.number negative digits).text := String.toList_ofList
  rw [Node.digitCount, text]
  cases negative with
  | true =>
    rw [Term.text, List.filter_cons_of_neg (by decide), filter_digits digits inside]
  | false => rw [Term.text, filter_digits digits inside]

theorem digitCount_diceNumber (start : Nat) (digits : List Char) (inside : Digits digits) :
    (spanning .diceNumber start digits []).digitCount = digits.length := by
  have text : (spanning .diceNumber start digits []).text.toList = digits := String.toList_ofList
  rw [Node.digitCount, text, filter_digits digits inside]

theorem numerals_counts (start : Nat) (count : List Char) :
    numeralsAmong (digitNodes .count start count) = [] := by
  cases count with
  | nil => rfl
  | cons c tail =>
    rw [digitNodes, Node.numeralsAmong_singleton, Node.numerals_spanning _ _ _ _ (by decide)]
    · rfl
    · simp

theorem numerals_modifiers (start : Nat) (modifiers : List Modifier) :
    numeralsAmong (modifierNodes start modifiers) = [] := by
  induction modifiers generalizing start with
  | nil => rfl
  | cons modifier rest ih =>
    have first : (modifier.node start).numerals = [] := by
      cases modifier with
      | explode twice => exact Node.numerals_spanning _ _ _ _ (by decide)
      | select selector count =>
        rw [Modifier.node, Node.numerals_spanning _ _ _ _ (by cases selector <;> decide),
          numeralsAmong, Node.numerals_spanning _ _ _ _ (by decide), numerals_counts]
        rfl
      | reroll count =>
        rw [Modifier.node, Node.numerals_spanning _ _ _ _ (by decide), numeralsAmong,
          Node.numerals_spanning _ _ _ _ (by decide), numerals_counts]
        rfl
    rw [modifierNodes, numeralsAmong, first, ih, List.append_nil]

theorem numerals_dice (start : Nat) (dice : Dice) :
    (dice.node start).numerals = digitNodes .diceNumber start dice.count := by
  rw [Dice.node, Node.numerals_spanning _ _ _ _ (by decide), Node.numeralsAmong_append,
    numeralsAmong, Node.numerals_spanning _ _ _ _ (by decide), numerals_modifiers]
  cases dice.count with
  | nil => rfl
  | cons c tail =>
    rw [digitNodes, Node.numeralsAmong_singleton, Node.numerals_leaf _ _ _ (.inr rfl)]
    · rfl
    · simp

theorem failed?_dice (start : Nat) (dice : Dice) (admissible : dice.Admissible) :
    (Term.dice dice).assembly.failed? = (dice.node start).numerals.findSome? Node.overlong? := by
  obtain ⟨roll, _, rolled⟩ := dice.roll_eq admissible
  have counted := digitCount_diceNumber start dice.count admissible.count
  rw [Term.assembly, rolled, numerals_dice]
  cases count : dice.count with
  | nil => rfl
  | cons c tail =>
    rw [count] at counted
    have other : (spanning .diceNumber start (c :: tail) []).rule ≠ .number := by simp [spanning]
    have nodes : digitNodes .diceNumber start (c :: tail) = [spanning .diceNumber start (c :: tail) []] := rfl
    rw [nodes, List.findSome?_singleton, Node.overlong?_of_digitCount _ _ counted, Node.overlong,
      if_neg other, counted]
    by_cases short : (c :: tail).length ≤ Numeral.maxDigits
    · have none : Numeral.overlong? (c :: tail) = none := if_pos short
      rw [none]
      rfl
    · have length : Numeral.overlong? (c :: tail) = some (c :: tail).length := if_neg short
      rw [length]
      rfl

theorem failed?_number (start : Nat) (negative : Bool) (digits : List Char)
    (inside : Digits digits) :
    (Term.number negative digits).assembly.failed? =
      ((Term.number negative digits).inner start).numerals.findSome? Node.overlong? := by
  have counted := digitCount_number start negative digits inside
  rw [Term.assembly, Term.inner, Node.numerals_leaf _ _ _ (.inl rfl), List.findSome?_singleton,
    Node.overlong?_of_digitCount _ _ counted]
  cases Numeral.overlong? digits <;> rfl

mutual
theorem Term.failed?_assembly (term : Term) (start : Nat) (admissible : term.Admissible) :
    term.assembly.failed? = (term.inner start).numerals.findSome? Node.overlong? := by
  match term with
  | .dice dice => exact failed?_dice start dice admissible
  | .number negative digits => exact failed?_number start negative digits admissible.2
  | .call name beforeOpening afterOpening argument beforeClosing =>
    have inner := argument.failed?_assemblyOnto id
      (start + name.length + beforeOpening.length + 1 + afterOpening.length) [] admissible.2.2.2.1
    rw [Term.assembly, Assembly.failed?_andThen _ _ none (fun _ => rfl), Option.or_none, inner,
      Term.inner, Node.numerals_spanning _ _ _ _ (by decide), numeralsAmong,
      Node.numerals_spanning _ _ _ _ (by decide), Node.numeralsAmong_singleton, expressionNode,
      Node.numerals_around _ _ (by decide), Node.numerals_spanning _ _ _ _ (by decide)]
    rfl
theorem Chain.failed?_assemblyOnto (chain : Chain) (join : Expr → Expr) (start : Nat)
    (before : List Char) (admissible : chain.Admissible) :
    (chain.assemblyOnto join).failed? =
      (numeralsAmong (chain.parts start before)).findSome? Node.overlong? := by
  match chain with
  | .last term =>
    have inner := term.failed?_assembly (start + before.length) admissible
    rw [Chain.assemblyOnto, Assembly.failed?_andThen _ _ none (fun _ => rfl), Option.or_none, inner,
      Chain.parts, Node.numeralsAmong_singleton, termNode,
      Node.numerals_spanning _ _ _ _ (by decide), Node.numeralsAmong_singleton]
  | .link term joint rest =>
    have inner := term.failed?_assembly (start + before.length) admissible.1
    have following := fun join => rest.failed?_assemblyOnto join
      (start + before.length + term.text.length + joint.before.length + 1) joint.after admissible.2.2
    rw [Chain.assemblyOnto, Assembly.failed?_andThen _ _ _ (fun value => following _), inner,
      Chain.parts, numeralsAmong, termNode, Node.numerals_spanning _ _ _ _ (by decide),
      Node.numeralsAmong_singleton, numeralsAmong, Node.numerals_spanning _ _ _ _ (by decide),
      List.findSome?_append]
    rfl
end

theorem Chain.failed?_assembly (chain : Chain) (start : Nat) (after : List Char)
    (admissible : chain.Admissible) :
    chain.assembly.failed? = (chain.node start after).numerals.findSome? Node.overlong? := by
  rw [Chain.assembly, chain.failed?_assemblyOnto id start [] admissible, Chain.node, expressionNode,
    Node.numerals_around _ _ (by decide), Node.numerals_spanning _ _ _ _ (by decide)]

end Phrase
end Tabletop
