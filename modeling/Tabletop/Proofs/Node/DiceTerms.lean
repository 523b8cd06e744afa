import Tabletop.Proofs.Node.Assemble
import Tabletop.Proofs.Node.Spans
import Tabletop.Proofs.Phrase.Outcome

/-! The dice terms of a tree. In the tree of a phrase they stand in turn and apart from each other, and their
rolls are those that the phrase is assembled with, in the same order. -/
namespace Tabletop
open Node (spanning nodesAmong Within)

namespace Node

def diceTerms (node : Node) : List Node := node.nodes.filter fun inner => inner.rule = .diceRoll

def diceTermsAmong (nodes : List Node) : List Node :=
  (nodesAmong nodes).filter fun inner => inner.rule = .diceRoll

theorem diceTermsAmong_cons (child : Node) (rest : List Node) :
    diceTermsAmong (child :: rest) = child.diceTerms ++ diceTermsAmong rest := by
  rw [diceTermsAmong, nodesAmong, List.filter_append]
  rfl

theorem diceTermsAmong_singleton (child : Node) : diceTermsAmong [child] = child.diceTerms := by
  rw [diceTermsAmong_cons]
  exact List.append_nil _

theorem diceTerms_spanning (rule : Rule) (start : Nat) (text : List Char) (children : List Node)
    (other : rule ≠ .diceRoll) : (spanning rule start text children).diceTerms = diceTermsAmong children := by
  rw [diceTerms, nodes_eq, List.filter_cons_of_neg (by simp [spanning, other])]
  rfl

theorem diceTerms_around (rule : Rule) (child : Node) (other : rule ≠ .diceRoll) :
    (around rule child).diceTerms = child.diceTerms := by
  rw [diceTerms, nodes_eq, List.filter_cons_of_neg (by simp [around, other])]
  exact diceTermsAmong_singleton child

theorem Within.mono (start stop : Nat) (nodes : List Node) (before behind : Nat) (within : Within start stop nodes)
    (begins : before ≤ start) (ends : stop ≤ behind) : Within before behind nodes := by
  induction nodes generalizing start before with
  | nil => exact begins.trans (Nat.le_trans within ends)
  | cons child rest ih =>
    obtain ⟨first, proper, others⟩ := within
    exact ⟨begins.trans first, proper, ih _ _ others (Nat.le_refl _)⟩

theorem Within.append (start middle stop : Nat) (nodes others : List Node) (within : Within start middle nodes)
    (next : Within middle stop others) : Within start stop (nodes ++ others) := by
  induction nodes generalizing start with
  | nil => exact next.mono _ _ _ _ _ within (Nat.le_refl _)
  | cons child rest ih => exact ⟨within.1, within.2.1, ih _ within.2.2⟩

/-- The nodes stand within a span, in turn and apart from each other, and have the given rolls. -/
structure Rolled (start stop : Nat) (nodes : List Node) (rolls : List Roll) : Prop where
  within : Within start stop nodes
  rolled : nodes.map Node.roll = rolls.map .ok

theorem Rolled.mono (start stop : Nat) (nodes : List Node) (rolls : List Roll) (before behind : Nat)
    (rolled : Rolled start stop nodes rolls) (begins : before ≤ start) (ends : stop ≤ behind) :
    Rolled before behind nodes rolls :=
  ⟨rolled.within.mono _ _ _ _ _ begins ends, rolled.rolled⟩

theorem Rolled.append (start middle stop : Nat) (nodes others : List Node) (rolls more : List Roll)
    (rolled : Rolled start middle nodes rolls) (next : Rolled middle stop others more) :
    Rolled start stop (nodes ++ others) (rolls ++ more) := by
  refine ⟨rolled.within.append _ _ _ _ _ next.within, ?_⟩
  rw [List.map_append, List.map_append, rolled.rolled, next.rolled]

end Node

namespace Phrase
open Node (Rolled diceTermsAmong diceTerms_spanning)

variable (text : List Char) (runs : List (List Char))

theorem diceTerms_dice (start : Nat) (dice : Dice) (stands : (Term.dice dice).Stands text runs start) :
    (dice.node start).diceTerms = [dice.node start] := by
  have inside : diceTermsAmong (dice.node start).children = [] := by
    rw [diceTermsAmong, List.filter_eq_nil_iff]
    intro node member
    have others : ∀ rule ∈ pieceRules, rule ≠ .diceRoll := by decide
    have piece := piece_dice text start dice stands.placed stands.legible.admissible node member
    simpa using others node.rule piece.rule_mem
  rw [Node.diceTerms, Node.nodes_eq, List.filter_cons_of_pos (by simp [Dice.node, spanning])]
  exact congrArg (dice.node start :: ·) inside

theorem diceTerms_termNode (start : Nat) (before part : List Char) (inner : Node) :
    (termNode start before part inner).diceTerms = inner.diceTerms := by
  rw [termNode, diceTerms_spanning _ _ _ _ (by decide), Node.diceTermsAmong_singleton]

theorem diceTerms_expressionNode (start : Nat) (part : List Char) (parts : List Node) :
    (expressionNode start part parts).diceTerms = diceTermsAmong parts := by
  rw [expressionNode, Node.diceTerms_around _ _ (by decide), diceTerms_spanning _ _ _ _ (by decide)]

theorem diceTerms_call (start : Nat) (name beforeOpening afterOpening : List Char) (argument : Chain)
    (beforeClosing : List Char) :
    ((Term.call name beforeOpening afterOpening argument beforeClosing).inner start).diceTerms =
      diceTermsAmong (argument.parts (start + name.length + beforeOpening.length + 1 + afterOpening.length) []) := by
  rw [Term.inner, diceTerms_spanning _ _ _ _ (by decide), Node.diceTermsAmong_cons,
    diceTerms_spanning _ _ _ _ (by decide), Node.diceTermsAmong_singleton, diceTerms_expressionNode]
  rfl

theorem diceTerms_link (start : Nat) (before : List Char) (term : Term) (joint : Joint) (rest : Chain) :
    diceTermsAmong ((Chain.link term joint rest).parts start before) =
      (term.inner (start + before.length)).diceTerms ++ diceTermsAmong (rest.parts
        (start + before.length + term.text.length + joint.before.length + 1) joint.after) := by
  rw [Chain.parts, Node.diceTermsAmong_cons, diceTerms_termNode, Node.diceTermsAmong_cons,
    diceTerms_spanning _ _ _ _ (by decide)]
  rfl

mutual
theorem Term.rolled_inner (term : Term) (start : Nat) (value : Expr) (stands : term.Stands text runs start)
    (ok : term.assembly.outcome = .ok value) :
    Rolled start (start + term.text.length) (term.inner start).diceTerms term.assembly.rolls := by
  match term with
  | .dice dice =>
    have proper := (Term.dice dice).inner_proper start stands.legible.admissible
    have same := roll_node start dice stands.legible.admissible stands.legible.short
    rw [Term.inner, diceTerms_dice text runs start dice stands]
    rw [Term.assembly] at ok ⊢
    refine ⟨⟨Nat.le_refl _, proper, Nat.le_refl _⟩, ?_⟩
    cases rolled : dice.roll with
    | error failure =>
      rw [rolled] at ok
      cases ok
    | ok roll =>
      rw [List.map_singleton, same, rolled]
      rfl
  | .number negative digits =>
    rw [Term.inner, diceTerms_spanning _ _ _ _ (by decide), Term.assembly]
    rw [Term.assembly] at ok
    refine ⟨Nat.le_add_right _ _, ?_⟩
    cases converted : Numeral.overlong? digits with
    | none => rfl
    | some length =>
      rw [converted] at ok
      cases ok
  | .call name beforeOpening afterOpening argument beforeClosing =>
    rw [Term.assembly] at ok ⊢
    obtain ⟨inner, found, _, rolls⟩ := Assembly.andThen_ok _ _ _ ok
    have inside := argument.rolled_parts
      (start + name.length + beforeOpening.length + 1 + afterOpening.length) [] beforeClosing id inner
      stands.argument found
    rw [diceTerms_call, rolls, Assembly.value, List.append_nil]
    apply inside.mono
    · simp only [List.length_nil]
      omega
    · simp only [Term.text, List.length_append, List.length_cons, List.length_nil]
      omega
theorem Chain.rolled_parts (chain : Chain) (start : Nat) (before after : List Char) (join : Expr → Expr)
    (value : Expr) (stands : chain.Stands text runs (start + before.length) after)
    (ok : (chain.assemblyOnto join).outcome = .ok value) :
    Rolled (start + before.length) (start + before.length + chain.text.length)
      (diceTermsAmong (chain.parts start before)) (chain.assemblyOnto join).rolls := by
  match chain with
  | .last term =>
    rw [Chain.assemblyOnto] at ok ⊢
    obtain ⟨operand, found, _, rolls⟩ := Assembly.andThen_ok _ _ _ ok
    rw [Chain.parts, Node.diceTermsAmong_singleton, diceTerms_termNode, rolls, Assembly.value, List.append_nil]
    exact term.rolled_inner (start + before.length) operand stands.only found
  | .link term joint rest =>
    rw [Chain.assemblyOnto] at ok ⊢
    obtain ⟨operand, found, following, rolls⟩ := Assembly.andThen_ok _ _ _ ok
    have first := term.rolled_inner (start + before.length) operand stands.first found
    have others := rest.rolled_parts
      (start + before.length + term.text.length + joint.before.length + 1) joint.after after _ value
      stands.rest following
    rw [diceTerms_link, rolls]
    refine first.append _ _ _ _ _ _ _ (others.mono _ _ _ _ _ _ ?_ ?_)
    · omega
    · simp only [Chain.text, Joint.text, List.length_append, List.length_cons]
      omega
end

theorem Derives.rolled (phrase : Phrase) (text : String) (derives : phrase.Derives text)
    (short : phrase.chain.overlong? = none) (shallow : phrase.chain.depth ≤ Nesting.limit) (value : Expr)
    (ok : phrase.chain.assembly.outcome = .ok value) :
    Rolled 0 text.toList.length phrase.node.diceTerms phrase.chain.assembly.rolls := by
  have stands := derives.stands phrase text short shallow
  have rolled := phrase.chain.rolled_parts _ _ phrase.before.length [] phrase.after id value stands ok
  have length := congrArg List.length derives.written
  rw [Phrase.text, List.length_append, List.length_append] at length
  rw [Phrase.node, Chain.node, diceTerms_expressionNode]
  apply rolled.mono
  · exact Nat.zero_le _
  · simp only [List.length_nil]
    omega

end Phrase
end Tabletop
