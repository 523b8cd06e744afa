import Tabletop.Proofs.Node.Tokens
import Tabletop.Proofs.Phrase.Conversions
import Tabletop.Proofs.Scanner.Legible
import Tabletop.Proofs.Text.Places

/-! What the nodes of a tree stem from. Every node in the tree of a phrase is the node of a chain, of a
term, of a modifier or of a single symbol, and what it stems from stands in the text where the node is
placed. What is true of each of these is true of all nodes, without another induction over phrases. -/
namespace Tabletop

namespace Node

theorem nodes_eq (node : Node) : node.nodes = node :: nodesAmong node.children := by
  obtain ⟨rule, text, start, stop, children⟩ := node
  rw [nodes]

theorem forall_nodes (P : Node → Prop) (node : Node) :
    (∀ other ∈ node.nodes, P other) ↔ P node ∧ ∀ other ∈ nodesAmong node.children, P other := by
  rw [nodes_eq, List.forall_mem_cons]

theorem forall_nodesAmong_cons (P : Node → Prop) (child : Node) (rest : List Node) :
    (∀ other ∈ nodesAmong (child :: rest), P other) ↔
      (∀ other ∈ child.nodes, P other) ∧ ∀ other ∈ nodesAmong rest, P other := by
  rw [nodesAmong, List.forall_mem_append]

theorem forall_nodesAmong_nil (P : Node → Prop) : ∀ other ∈ nodesAmong [], P other := by
  intro other member
  cases member

end Node

namespace Phrase
open Node (spanning nodesAmong)

/-- A term at its place in a text; the runs of digits that are converted in it are among the given ones. -/
structure Term.Stands (text : List Char) (runs : List (List Char)) (start : Nat) (term : Term) : Prop where
  placed : Text.Placed text start term.text
  legible : term.Legible Nesting.limit
  converted : term.conversions ⊆ runs

structure Chain.Stands (text : List Char) (runs : List (List Char)) (start : Nat) (chain : Chain)
    (after : List Char) : Prop where
  placed : Text.Placed text start (chain.text ++ after)
  layout : Layout after
  legible : chain.Legible Nesting.limit
  converted : chain.conversions ⊆ runs

def symbolRules : List Rule := [.operator, .identifier, .diceNumber, .dieSize, .selector, .count]

def pieceRules : List Rule := symbolRules ++ [.exploding, .keep, .drop, .reroll]

inductive Piece (text : List Char) : Node → Prop
  | modifier (start : Nat) (modifier : Modifier) (placed : Text.Placed text start modifier.text)
      (admissible : modifier.Admissible) : Piece text (modifier.node start)
  | symbol (rule : Rule) (start : Nat) (symbol : List Char) (isSymbol : rule ∈ symbolRules)
      (placed : Text.Placed text start symbol) (some : symbol ≠ [])
      (solid : ∀ c ∈ symbol, Text.isBlank c = false) : Piece text (spanning rule start symbol [])

inductive Stem (text : List Char) (runs : List (List Char)) : Node → Prop
  | expression (start : Nat) (chain : Chain) (after : List Char)
      (stands : chain.Stands text runs start after) : Stem text runs (chain.node start after)
  | operation (start : Nat) (chain : Chain) (after : List Char)
      (stands : chain.Stands text runs start after) :
      Stem text runs (spanning .operation start (chain.extent after) (chain.parts start []))
  | term (start : Nat) (before : List Char) (term : Term) (layout : Layout before)
      (placed : Text.Placed text start before) (stands : term.Stands text runs (start + before.length)) :
      Stem text runs (termNode start before term.text (term.inner (start + before.length)))
  | inner (start : Nat) (term : Term) (stands : term.Stands text runs start) :
      Stem text runs (term.inner start)
  | piece (node : Node) (piece : Piece text node) : Stem text runs node

theorem Piece.rule_mem (text : List Char) (node : Node) (piece : Piece text node) :
    node.rule ∈ pieceRules := by
  cases piece with
  | modifier start modifier placed admissible =>
    cases modifier with
    | explode twice => exact (by decide : Rule.exploding ∈ pieceRules)
    | select selector count =>
      have selected : selector.rule ∈ pieceRules := by
        cases selector <;> decide
      exact selected
    | reroll count => exact (by decide : Rule.reroll ∈ pieceRules)
  | symbol rule start symbol isSymbol placed some solid => exact List.mem_append_left _ isSymbol

theorem Dice.placed (text : List Char) (start : Nat) (dice : Dice) :
    Text.Placed text start dice.text ↔
      Text.Placed text start dice.count ∧ Text.Placed text (start + dice.count.length) ['d'] ∧
        Text.Placed text (start + dice.count.length + 1) dice.size.text ∧
        Text.Placed text (start + dice.count.length + 1 + dice.size.text.length)
          (dice.modifiers.flatMap Modifier.text) := by
  rw [Dice.text, Text.placed_append, Text.placed_cons, Text.placed_append]

theorem Term.call_placed (text : List Char) (start : Nat) (name beforeOpening afterOpening : List Char)
    (argument : Chain) (beforeClosing : List Char) :
    Text.Placed text start (Term.call name beforeOpening afterOpening argument beforeClosing).text ↔
      Text.Placed text start name ∧ Text.Placed text (start + name.length) beforeOpening ∧
        Text.Placed text (start + name.length + beforeOpening.length) ['('] ∧
        Text.Placed text (start + name.length + beforeOpening.length + 1) afterOpening ∧
        Text.Placed text (start + name.length + beforeOpening.length + 1 + afterOpening.length)
          (argument.text ++ beforeClosing) ∧
        Text.Placed text (start + name.length + beforeOpening.length + 1 + afterOpening.length +
          (argument.text ++ beforeClosing).length) [')'] := by
  rw [Term.text, Text.placed_append, Text.placed_append, Text.placed_cons, Text.placed_append,
    ← List.append_assoc argument.text, Text.placed_append]

theorem Term.Stands.argument (text : List Char) (runs : List (List Char)) (start : Nat)
    (name beforeOpening afterOpening : List Char) (argument : Chain) (beforeClosing : List Char)
    (stands : (Term.call name beforeOpening afterOpening argument beforeClosing).Stands text runs start) :
    argument.Stands text runs
      (start + name.length + beforeOpening.length + 1 + afterOpening.length) beforeClosing := by
  obtain ⟨placed, ⟨admissible, short, shallow⟩, converted⟩ := stands
  obtain ⟨_, _, _, _, inside, _⟩ := (Term.call_placed text start _ _ _ _ _).mp placed
  refine ⟨inside, admissible.2.2.2.2, ⟨admissible.2.2.2.1, ?_, ?_⟩, ?_⟩
  · exact (Option.or_eq_none_iff.mp short).2
  · exact (Nat.le_succ _).trans shallow
  · exact (List.append_subset.mp converted).2

theorem Chain.Stands.only (text : List Char) (runs : List (List Char)) (start : Nat) (term : Term)
    (after : List Char) (stands : (Chain.last term).Stands text runs start after) :
    term.Stands text runs start := by
  obtain ⟨placed, _, ⟨admissible, short, shallow⟩, converted⟩ := stands
  exact ⟨((Text.placed_append _ _ _ _).mp placed).1, ⟨admissible, short, shallow⟩, converted⟩

theorem Chain.link_placed (text : List Char) (start : Nat) (term : Term) (joint : Joint) (rest : Chain)
    (after : List Char) :
    Text.Placed text start ((Chain.link term joint rest).text ++ after) ↔
      Text.Placed text start term.text ∧ Text.Placed text (start + term.text.length) joint.before ∧
        Text.Placed text (start + term.text.length + joint.before.length) [joint.operator.char] ∧
        Text.Placed text (start + term.text.length + joint.before.length + 1) joint.after ∧
        Text.Placed text (start + term.text.length + joint.before.length + 1 + joint.after.length)
          (rest.text ++ after) := by
  rw [Chain.text, Joint.text, List.append_assoc, List.append_assoc, List.append_assoc, Text.placed_append,
    Text.placed_append, List.cons_append, Text.placed_cons, Text.placed_append]

theorem Chain.Stands.first (text : List Char) (runs : List (List Char)) (start : Nat) (term : Term)
    (joint : Joint) (rest : Chain) (after : List Char)
    (stands : (Chain.link term joint rest).Stands text runs start after) :
    term.Stands text runs start := by
  obtain ⟨placed, _, ⟨admissible, short, shallow⟩, converted⟩ := stands
  exact ⟨((Chain.link_placed _ _ _ _ _ _).mp placed).1,
    ⟨admissible.1, (Option.or_eq_none_iff.mp short).1, (Nat.le_max_left _ _).trans shallow⟩,
    (List.append_subset.mp converted).1⟩

theorem Chain.Stands.rest (text : List Char) (runs : List (List Char)) (start : Nat) (term : Term)
    (joint : Joint) (rest : Chain) (after : List Char)
    (stands : (Chain.link term joint rest).Stands text runs start after) :
    rest.Stands text runs
      (start + term.text.length + joint.before.length + 1 + joint.after.length) after := by
  obtain ⟨placed, layout, ⟨admissible, short, shallow⟩, converted⟩ := stands
  obtain ⟨_, _, _, _, behind⟩ := (Chain.link_placed _ _ _ _ _ _).mp placed
  exact ⟨behind, layout,
    ⟨admissible.2.2, (Option.or_eq_none_iff.mp short).2, (Nat.le_max_right _ _).trans shallow⟩,
    (List.append_subset.mp converted).2⟩

section Dice

variable (text : List Char)

theorem piece_digits (rule : Rule) (start : Nat) (run : List Char) (isSymbol : rule ∈ symbolRules)
    (placed : Text.Placed text start run) (some : run ≠ []) (digits : Digits run) :
    Piece text (spanning rule start run []) := by
  refine .symbol rule start run isSymbol placed some ?_
  intro c member
  exact isBlank_of_isTokenPart c (dense_digits run digits c member)

theorem piece_digitNodes (rule : Rule) (start : Nat) (digits : List Char) (isSymbol : rule ∈ symbolRules)
    (placed : Text.Placed text start digits) (inside : Digits digits) :
    ∀ node ∈ nodesAmong (digitNodes rule start digits), Piece text node := by
  cases digits with
  | nil => exact Node.forall_nodesAmong_nil _
  | cons c tail =>
    have piece := piece_digits text rule start (c :: tail) isSymbol placed (List.cons_ne_nil _ _) inside
    rw [digitNodes, Node.forall_nodesAmong_cons, Node.forall_nodes]
    · exact ⟨⟨piece, Node.forall_nodesAmong_nil _⟩, Node.forall_nodesAmong_nil _⟩
    · exact List.cons_ne_nil c tail

theorem piece_selected (start : Nat) (selector count : List Char)
    (placed : Text.Placed text start (selector ++ count)) (some : selector ≠ [])
    (solid : ∀ c ∈ selector, Text.isBlank c = false) (digits : Digits count) :
    ∀ node ∈ nodesAmong (spanning .selector start selector [] :: digitNodes .count (start + selector.length) count),
      Piece text node := by
  obtain ⟨first, second⟩ := (Text.placed_append _ _ _ _).mp placed
  rw [Node.forall_nodesAmong_cons, Node.forall_nodes]
  refine ⟨⟨?_, Node.forall_nodesAmong_nil _⟩, piece_digitNodes text .count _ count (by decide) second digits⟩
  exact .symbol .selector start selector (by decide) first some solid

theorem piece_modifier (start : Nat) (modifier : Modifier) (placed : Text.Placed text start modifier.text)
    (admissible : modifier.Admissible) : ∀ node ∈ (modifier.node start).nodes, Piece text node := by
  rw [Node.forall_nodes]
  refine ⟨.modifier start modifier placed admissible, ?_⟩
  cases modifier with
  | explode twice => exact Node.forall_nodesAmong_nil _
  | select selector count =>
    apply piece_selected text start selector.text count placed
    · cases selector <;> exact List.cons_ne_nil _ _
    · apply Text.eq_false_of_any
      cases selector <;> decide
    · exact Count.digits _ admissible
  | reroll count =>
    apply piece_selected text start ['r'] count placed (List.cons_ne_nil _ _)
    · exact Text.eq_false_of_any _ _ (by decide)
    · exact Count.digits _ admissible

theorem piece_modifiers (start : Nat) (modifiers : List Modifier)
    (placed : Text.Placed text start (modifiers.flatMap Modifier.text))
    (admissible : ∀ modifier ∈ modifiers, modifier.Admissible) :
    ∀ node ∈ nodesAmong (modifierNodes start modifiers), Piece text node := by
  induction modifiers generalizing start with
  | nil => exact Node.forall_nodesAmong_nil _
  | cons modifier rest ih =>
    obtain ⟨first, others⟩ := List.forall_mem_cons.mp admissible
    rw [List.flatMap_cons, Text.placed_append] at placed
    rw [modifierNodes, Node.forall_nodesAmong_cons]
    exact ⟨piece_modifier text start modifier placed.1 first, ih _ placed.2 others⟩

theorem piece_dice (start : Nat) (dice : Dice) (placed : Text.Placed text start dice.text)
    (admissible : dice.Admissible) :
    ∀ node ∈ nodesAmong (dice.node start).children, Piece text node := by
  obtain ⟨count, _, sized, modified⟩ := (dice.placed text start).mp placed
  have size : Piece text (spanning .dieSize (start + dice.count.length + 1) dice.size.text []) := by
    have positive := admissible.size
    cases same : dice.size with
    | percent =>
      rw [same] at sized
      exact .symbol .dieSize _ ['%'] (by decide) sized (List.cons_ne_nil _ _) (Text.eq_false_of_any _ _ (by decide))
    | digits run =>
      rw [same] at sized positive
      exact piece_digits text .dieSize _ run (by decide) sized positive.ne_nil positive.1
  have others := piece_modifiers text _ dice.modifiers modified admissible.modifiers
  have counts := piece_digitNodes text .diceNumber start dice.count (by decide) count admissible.count
  change ∀ node ∈ nodesAmong (digitNodes .diceNumber start dice.count ++ _ :: _), Piece text node
  rw [Node.nodesAmong_append, List.forall_mem_append, Node.forall_nodesAmong_cons, Node.forall_nodes]
  exact ⟨counts, ⟨size, Node.forall_nodesAmong_nil _⟩, others⟩

end Dice

section Chains

variable (text : List Char) (runs : List (List Char))

mutual
theorem Term.stem_of_mem (term : Term) (start : Nat) (stands : term.Stands text runs start) :
    ∀ node ∈ (term.inner start).nodes, Stem text runs node := by
  rw [Node.forall_nodes]
  refine ⟨.inner start term stands, ?_⟩
  match term with
  | .dice dice =>
    intro node member
    exact .piece node (piece_dice text start dice stands.placed stands.legible.admissible node member)
  | .number negative digits => exact Node.forall_nodesAmong_nil _
  | .call name beforeOpening afterOpening argument beforeClosing =>
    have isName := stands.legible.admissible.1
    obtain ⟨c, tail, begins, _⟩ := isName.identifier
    have named : Piece text (spanning .identifier start name []) := by
      refine .symbol .identifier start name (by decide) ((Term.call_placed _ _ _ _ _ _ _).mp stands.placed).1 ?_ ?_
      · rw [begins]
        exact List.cons_ne_nil c tail
      · intro c member
        exact isBlank_of_isTokenPart c (dense_name name isName.parts c member)
    have inside := argument.stem_of_mem _ beforeClosing stands.argument
    change ∀ node ∈ nodesAmong [_, _], Stem text runs node
    rw [Node.forall_nodesAmong_cons, Node.forall_nodesAmong_cons, Node.forall_nodes]
    exact ⟨⟨.piece _ named, Node.forall_nodesAmong_nil _⟩, inside, Node.forall_nodesAmong_nil _⟩
theorem Chain.stem_of_mem (chain : Chain) (start : Nat) (after : List Char)
    (stands : chain.Stands text runs start after) :
    ∀ node ∈ (chain.node start after).nodes, Stem text runs node := by
  have parts := chain.stem_parts start [] after layout_nil (Text.placed_nil text start) stands
  rw [Node.forall_nodes]
  refine ⟨.expression start chain after stands, ?_⟩
  change ∀ node ∈ nodesAmong [_], Stem text runs node
  rw [Node.forall_nodesAmong_cons, Node.forall_nodes]
  exact ⟨⟨.operation start chain after stands, parts⟩, Node.forall_nodesAmong_nil _⟩
theorem Chain.stem_parts (chain : Chain) (start : Nat) (before after : List Char) (layout : Layout before)
    (placed : Text.Placed text start before)
    (stands : chain.Stands text runs (start + before.length) after) :
    ∀ node ∈ nodesAmong (chain.parts start before), Stem text runs node := by
  match chain with
  | .last term =>
    have inside := term.stem_of_mem (start + before.length) stands.only
    rw [Chain.parts, Node.forall_nodesAmong_cons, Node.forall_nodes]
    refine ⟨⟨.term start before term layout placed stands.only, ?_⟩, Node.forall_nodesAmong_nil _⟩
    change ∀ node ∈ nodesAmong [_], Stem text runs node
    rw [Node.forall_nodesAmong_cons]
    exact ⟨inside, Node.forall_nodesAmong_nil _⟩
  | .link term joint rest =>
    obtain ⟨_, _, operator, behind, _⟩ := (Chain.link_placed _ _ _ _ _ _).mp stands.placed
    have inside := term.stem_of_mem (start + before.length) stands.first
    have others := rest.stem_parts
      (start + before.length + term.text.length + joint.before.length + 1) joint.after after
      stands.legible.admissible.2.1.after behind stands.rest
    have solid : ∀ c ∈ [joint.operator.char], Text.isBlank c = false := by
      apply Text.eq_false_of_any
      cases joint.operator <;> decide
    rw [Chain.parts, Node.forall_nodesAmong_cons, Node.forall_nodes, Node.forall_nodesAmong_cons,
      Node.forall_nodes]
    refine ⟨⟨.term start before term layout placed stands.first, ?_⟩,
      ⟨?_, Node.forall_nodesAmong_nil _⟩, others⟩
    · change ∀ node ∈ nodesAmong [_], Stem text runs node
      rw [Node.forall_nodesAmong_cons]
      exact ⟨inside, Node.forall_nodesAmong_nil _⟩
    · exact .piece _ (.symbol .operator _ _ (by decide) operator (List.cons_ne_nil _ _) solid)
end

end Chains

theorem Derives.stands (phrase : Phrase) (text : String) (derives : phrase.Derives text)
    (short : phrase.chain.overlong? = none) (shallow : phrase.chain.depth ≤ Nesting.limit) :
    phrase.chain.Stands text.toList phrase.chain.conversions phrase.before.length phrase.after := by
  refine ⟨?_, derives.after, ⟨derives.chain, short, shallow⟩, List.Subset.refl _⟩
  have whole : Text.Placed phrase.text 0 phrase.text := List.prefix_refl _
  have behind := ((Text.placed_append _ _ phrase.before _).mp whole).2
  rwa [Nat.zero_add, derives.written] at behind

/-- Every node in the tree of a derivation stems from a part of it that stands in the text. -/
theorem Derives.stem (phrase : Phrase) (text : String) (derives : phrase.Derives text)
    (short : phrase.chain.overlong? = none) (shallow : phrase.chain.depth ≤ Nesting.limit) :
    ∀ node ∈ phrase.node.nodes, Stem text.toList phrase.chain.conversions node :=
  phrase.chain.stem_of_mem _ _ _ _ (derives.stands phrase text short shallow)

end Phrase
end Tabletop
