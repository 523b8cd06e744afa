import Tabletop.Node.OfPhrase

/-! Trees at other places. The tree of a chain depends on the place of the chain only by the positions of
its nodes, so the tree at a place further back is the tree with all positions moved. -/
namespace Tabletop

namespace Node

mutual
def moved (distance : Nat) : Node → Node
  | ⟨rule, text, start, stop, children⟩ =>
    ⟨rule, text, start + distance, stop + distance, movedAmong distance children⟩
def movedAmong (distance : Nat) : List Node → List Node
  | [] => []
  | child :: rest => child.moved distance :: movedAmong distance rest
end

theorem moved_spanning (distance : Nat) (rule : Rule) (start start' : Nat) (text : List Char)
    (children : List Node) (same : start + distance = start') :
    (spanning rule start text children).moved distance =
      spanning rule start' text (movedAmong distance children) := by
  subst same
  rw [spanning, moved, spanning, Nat.add_right_comm]

theorem moved_around (distance : Nat) (rule : Rule) (child : Node) :
    (around rule child).moved distance = around rule (child.moved distance) := by
  obtain ⟨other, text, start, stop, children⟩ := child
  simp only [around, moved, movedAmong]

theorem movedAmong_append (distance : Nat) (first second : List Node) :
    movedAmong distance (first ++ second) = movedAmong distance first ++ movedAmong distance second := by
  induction first with
  | nil => rfl
  | cons node rest ih => rw [List.cons_append, movedAmong, movedAmong, ih, List.cons_append]

end Node

namespace Phrase
open Node (spanning moved movedAmong)

theorem digitNodes_moved (distance : Nat) (rule : Rule) (start start' : Nat) (digits : List Char)
    (same : start + distance = start') :
    movedAmong distance (digitNodes rule start digits) = digitNodes rule start' digits := by
  cases digits with
  | nil => rfl
  | cons c tail =>
    simp only [digitNodes, movedAmong, Node.moved_spanning distance _ start start' _ _ same]

theorem Modifier.node_moved (distance start start' : Nat) (modifier : Modifier)
    (same : start + distance = start') : (modifier.node start).moved distance = modifier.node start' := by
  cases modifier with
  | explode twice => exact Node.moved_spanning distance _ start start' _ _ same
  | select selector count =>
    have counted := digitNodes_moved distance .count (start + selector.text.length)
      (start' + selector.text.length) count (by omega)
    simp only [Modifier.node, Node.moved_spanning distance _ start start' _ _ same, movedAmong, counted]
  | reroll count =>
    have counted := digitNodes_moved distance .count (start + 1) (start' + 1) count (by omega)
    simp only [Modifier.node, Node.moved_spanning distance _ start start' _ _ same, movedAmong, counted]

theorem modifierNodes_moved (distance start start' : Nat) (modifiers : List Modifier)
    (same : start + distance = start') :
    movedAmong distance (modifierNodes start modifiers) = modifierNodes start' modifiers := by
  induction modifiers generalizing start start' with
  | nil => rfl
  | cons modifier rest ih =>
    rw [modifierNodes, movedAmong, modifier.node_moved distance start start' same, modifierNodes,
      ih _ (start' + modifier.text.length) (by omega)]

theorem Dice.node_moved (distance start start' : Nat) (dice : Dice) (same : start + distance = start') :
    (dice.node start).moved distance = dice.node start' := by
  have counted := digitNodes_moved distance .diceNumber start start' dice.count same
  have size := Node.moved_spanning distance .dieSize (start + dice.count.length + 1)
    (start' + dice.count.length + 1) dice.size.text [] (by omega)
  have modified := modifierNodes_moved distance (start + dice.count.length + 1 + dice.size.text.length)
    (start' + dice.count.length + 1 + dice.size.text.length) dice.modifiers (by omega)
  rw [Dice.node, Node.moved_spanning distance _ start start' _ _ same, Node.movedAmong_append, counted,
    movedAmong, size, modified]
  rfl

mutual
theorem Term.inner_moved (distance : Nat) (term : Term) (start start' : Nat)
    (same : start + distance = start') : (term.inner start).moved distance = term.inner start' := by
  match term with
  | .dice dice => exact dice.node_moved distance start start' same
  | .number negative digits => exact Node.moved_spanning distance _ start start' _ _ same
  | .call name beforeOpening afterOpening argument beforeClosing =>
    have named := Node.moved_spanning distance .identifier start start' name [] same
    have inside := argument.node_moved distance
      (start + name.length + beforeOpening.length + 1 + afterOpening.length)
      (start' + name.length + beforeOpening.length + 1 + afterOpening.length) beforeClosing (by omega)
    rw [Term.inner, Node.moved_spanning distance _ start start' _ _ same, movedAmong, named, movedAmong]
    exact congrArg (fun child => spanning .function start' _ [spanning .identifier start' name [], child]) inside
theorem Chain.parts_moved (distance : Nat) (chain : Chain) (start start' : Nat) (before : List Char)
    (same : start + distance = start') :
    movedAmong distance (chain.parts start before) = chain.parts start' before := by
  match chain with
  | .last term =>
    have inside := term.inner_moved distance (start + before.length) (start' + before.length) (by omega)
    simp only [Chain.parts, movedAmong, termNode, Node.moved_spanning distance _ start start' _ _ same, inside]
  | .link term joint rest =>
    have inside := term.inner_moved distance (start + before.length) (start' + before.length) (by omega)
    have operator := Node.moved_spanning distance .operator
      (start + before.length + term.text.length + joint.before.length)
      (start' + before.length + term.text.length + joint.before.length) [joint.operator.char] [] (by omega)
    have others := rest.parts_moved distance
      (start + before.length + term.text.length + joint.before.length + 1)
      (start' + before.length + term.text.length + joint.before.length + 1) joint.after (by omega)
    simp only [Chain.parts, movedAmong, termNode, Node.moved_spanning distance _ start start' _ _ same, inside,
      operator, others]
theorem Chain.node_moved (distance : Nat) (chain : Chain) (start start' : Nat) (after : List Char)
    (same : start + distance = start') :
    (chain.node start after).moved distance = chain.node start' after := by
  rw [Chain.node, expressionNode, Node.moved_around, Node.moved_spanning distance _ start start' _ _ same,
    chain.parts_moved distance start start' [] same]
  rfl
end

end Phrase
end Tabletop
