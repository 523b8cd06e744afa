import Tabletop.Node.OfPhrase
import Tabletop.Proofs.Phrase.Cut

/-! The tokens of a tree: the nodes of numbers, identifiers and dice terms. In the tree of a phrase a
position lies strictly within the span of a token exactly if the phrase is cut there. -/
namespace Tabletop

def Rule.IsToken (rule : Rule) : Prop := rule = .number ∨ rule = .identifier ∨ rule = .diceRoll

instance (rule : Rule) : Decidable rule.IsToken :=
  inferInstanceAs (Decidable (rule = .number ∨ rule = .identifier ∨ rule = .diceRoll))

namespace Node

mutual
def nodes : Node → List Node
  | ⟨rule, text, start, stop, children⟩ => ⟨rule, text, start, stop, children⟩ :: nodesAmong children
def nodesAmong : List Node → List Node
  | [] => []
  | child :: rest => child.nodes ++ nodesAmong rest
end

/-- The position lies strictly within the span of a token among the nodes. -/
def Splits (nodes : List Node) (i : Nat) : Prop :=
  ∃ node ∈ nodes, node.rule.IsToken ∧ node.start < i ∧ i < node.stop

instance (nodes : List Node) (i : Nat) : Decidable (Splits nodes i) :=
  inferInstanceAs (Decidable (∃ node ∈ nodes, node.rule.IsToken ∧ node.start < i ∧ i < node.stop))

theorem not_splits_nil (i : Nat) : ¬ Splits [] i := by
  rintro ⟨node, member, _⟩
  cases member

theorem splits_append (first second : List Node) (i : Nat) :
    Splits (first ++ second) i ↔ Splits first i ∨ Splits second i := by
  simp only [Splits, List.mem_append, or_and_right, exists_or]

theorem nodesAmong_append (first second : List Node) :
    nodesAmong (first ++ second) = nodesAmong first ++ nodesAmong second := by
  induction first with
  | nil => rfl
  | cons node rest ih => rw [List.cons_append, nodesAmong, nodesAmong, ih, List.append_assoc]

theorem splits_children (child : Node) (rest : List Node) (i : Nat) :
    Splits (nodesAmong (child :: rest)) i ↔ Splits child.nodes i ∨ Splits (nodesAmong rest) i := by
  rw [nodesAmong, splits_append]

theorem splits_child (child : Node) (i : Nat) :
    Splits (nodesAmong [child]) i ↔ Splits child.nodes i := by
  rw [splits_children, nodesAmong, or_iff_left (not_splits_nil i)]

theorem splits_nodes (rule : Rule) (text : String) (start stop : Nat) (children : List Node) (i : Nat) :
    Splits (Node.mk rule text start stop children).nodes i ↔
      (rule.IsToken ∧ start < i ∧ i < stop) ∨ Splits (nodesAmong children) i := by
  simp only [nodes, Splits, List.mem_cons, exists_eq_or_imp]

theorem splits_token (rule : Rule) (start : Nat) (text : List Char) (children : List Node) (i : Nat)
    (token : rule.IsToken) (inside : ¬ Splits (nodesAmong children) i) :
    Splits (spanning rule start text children).nodes i ↔ start < i ∧ i < start + text.length := by
  rw [spanning, splits_nodes, or_iff_left inside, and_iff_right token]

theorem splits_leaf (rule : Rule) (start : Nat) (text : List Char) (i : Nat) (token : rule.IsToken) :
    Splits (spanning rule start text []).nodes i ↔ start < i ∧ i < start + text.length :=
  splits_token rule start text [] i token (not_splits_nil i)

theorem splits_spanning (rule : Rule) (start : Nat) (text : List Char) (children : List Node) (i : Nat)
    (other : ¬ rule.IsToken) :
    Splits (spanning rule start text children).nodes i ↔ Splits (nodesAmong children) i := by
  rw [spanning, splits_nodes, or_iff_right (fun both => other both.1)]

theorem splits_around (rule : Rule) (child : Node) (i : Nat) (other : ¬ rule.IsToken) :
    Splits (around rule child).nodes i ↔ Splits child.nodes i := by
  rw [around, splits_nodes, or_iff_right (fun both => other both.1), splits_child]

theorem not_splits_leaf (rule : Rule) (start : Nat) (text : List Char) (i : Nat) (other : ¬ rule.IsToken) :
    ¬ Splits (spanning rule start text []).nodes i := by
  rw [splits_spanning _ _ _ _ _ other]
  exact not_splits_nil i

end Node

namespace Phrase
open Node (spanning Splits nodesAmong)

theorem not_splits_digitNodes (rule : Rule) (start : Nat) (digits : List Char) (i : Nat)
    (other : ¬ rule.IsToken) : ¬ Splits (nodesAmong (digitNodes rule start digits)) i := by
  cases digits with
  | nil => exact Node.not_splits_nil i
  | cons c tail =>
    rw [digitNodes, Node.splits_child]
    · exact Node.not_splits_leaf _ _ _ i other
    · simp

theorem not_splits_modifier (start : Nat) (modifier : Modifier) (i : Nat) :
    ¬ Splits (modifier.node start).nodes i := by
  cases modifier with
  | explode twice => exact Node.not_splits_leaf _ _ _ i (by decide)
  | select selector count =>
    rw [Modifier.node, Node.splits_spanning _ _ _ _ _ (by cases selector <;> decide), Node.splits_children]
    exact not_or_intro (Node.not_splits_leaf _ _ _ i (by decide)) (not_splits_digitNodes _ _ count i (by decide))
  | reroll count =>
    rw [Modifier.node, Node.splits_spanning _ _ _ _ _ (by decide), Node.splits_children]
    exact not_or_intro (Node.not_splits_leaf _ _ _ i (by decide)) (not_splits_digitNodes _ _ count i (by decide))

theorem not_splits_modifiers (start : Nat) (modifiers : List Modifier) (i : Nat) :
    ¬ Splits (nodesAmong (modifierNodes start modifiers)) i := by
  induction modifiers generalizing start with
  | nil => exact Node.not_splits_nil i
  | cons modifier rest ih =>
    rw [modifierNodes, Node.splits_children]
    exact not_or_intro (not_splits_modifier start modifier i) (ih _)

theorem splits_dice (start : Nat) (dice : Dice) (i : Nat) :
    Splits (dice.node start).nodes i ↔ start < i ∧ i < start + dice.text.length := by
  rw [Dice.node]
  apply Node.splits_token _ _ _ _ _ (by decide)
  rw [Node.nodesAmong_append, Node.splits_append, Node.splits_children]
  exact not_or_intro (not_splits_digitNodes _ _ dice.count i (by decide))
    (not_or_intro (Node.not_splits_leaf _ _ _ i (by decide)) (not_splits_modifiers _ dice.modifiers i))

theorem exists_offset (start length i : Nat) :
    (start < i ∧ i < start + length) ↔ ∃ n, (0 < n ∧ n < length) ∧ start + n = i := by
  constructor
  · rintro ⟨behind, before⟩
    exact ⟨i - start, by omega, by omega⟩
  · rintro ⟨n, inside, rfl⟩
    omega

theorem splits_termNode (start : Nat) (before text : List Char) (inner : Node) (i : Nat) :
    Splits (termNode start before text inner).nodes i ↔ Splits inner.nodes i := by
  rw [termNode, Node.splits_spanning _ _ _ _ _ (by decide), Node.splits_child]

theorem splits_expressionNode (start : Nat) (text : List Char) (parts : List Node) (i : Nat) :
    Splits (expressionNode start text parts).nodes i ↔ Splits (nodesAmong parts) i := by
  rw [expressionNode, Node.splits_around _ _ _ (by decide), Node.splits_spanning _ _ _ _ _ (by decide)]

mutual
theorem Term.splits_inner (term : Term) (start i : Nat) :
    Splits (term.inner start).nodes i ↔ ∃ n, term.CutAt n ∧ start + n = i := by
  match term with
  | .dice dice =>
    simp only [Term.cutAt_dice]
    rw [Term.inner, splits_dice, exists_offset]
  | .number negative digits =>
    simp only [Term.cutAt_number]
    rw [Term.inner, Node.splits_leaf .number _ _ _ (.inl rfl), exists_offset]
  | .call name beforeOpening afterOpening argument beforeClosing =>
    have inside := argument.splits_parts
      (start + name.length + beforeOpening.length + 1 + afterOpening.length) [] i
    have named := Node.splits_leaf .identifier start name i (by decide)
    rw [Term.inner, Node.splits_spanning _ _ _ _ _ (by decide), Node.splits_children, Node.splits_child,
      named, splits_expressionNode, inside, exists_offset]
    simp only [Term.cutAt_call, or_and_right, exists_or]
    apply or_congr Iff.rfl
    constructor
    · rintro ⟨n, cut, rfl⟩
      refine ⟨_, ⟨n, cut, rfl⟩, ?_⟩
      simp only [List.length_nil]
      omega
    · rintro ⟨_, ⟨n, cut, rfl⟩, rfl⟩
      refine ⟨n, cut, ?_⟩
      simp only [List.length_nil]
      omega
theorem Chain.splits_parts (chain : Chain) (start : Nat) (before : List Char) (i : Nat) :
    Splits (nodesAmong (chain.parts start before)) i ↔
      ∃ n, chain.CutAt n ∧ start + before.length + n = i := by
  match chain with
  | .last term =>
    simp only [Chain.cutAt_last]
    rw [Chain.parts, Node.splits_child, splits_termNode, term.splits_inner]
  | .link term joint rest =>
    have following := rest.splits_parts
      (start + before.length + term.text.length + joint.before.length + 1) joint.after i
    have operator := Node.not_splits_leaf .operator
      (start + before.length + term.text.length + joint.before.length) [joint.operator.char] i (by decide)
    have width : joint.text.length = joint.before.length + 1 + joint.after.length := by
      simp only [Joint.text, List.length_append, List.length_cons]
      omega
    rw [Chain.parts, Node.splits_children, splits_termNode, term.splits_inner, Node.splits_children,
      or_iff_right operator, following]
    simp only [Chain.cutAt_link, or_and_right, exists_or, width]
    apply or_congr Iff.rfl
    constructor
    · rintro ⟨n, cut, rfl⟩
      exact ⟨_, ⟨n, cut, rfl⟩, by omega⟩
    · rintro ⟨_, ⟨n, cut, rfl⟩, rfl⟩
      exact ⟨n, cut, by omega⟩
end

/-- A token of the tree of a phrase is split exactly where the phrase is cut. -/
theorem splits_node (phrase : Phrase) (i : Nat) :
    Splits phrase.node.nodes i ↔ ∃ n, phrase.chain.CutAt n ∧ phrase.before.length + n = i := by
  rw [Phrase.node, Chain.node, splits_expressionNode, Chain.splits_parts]
  rfl

end Phrase
end Tabletop
