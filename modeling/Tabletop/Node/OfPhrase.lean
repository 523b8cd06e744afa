import Tabletop.Node
import Tabletop.Phrase

/-! The parse tree of a phrase. A term is spanned together with the layout between it and its
operator, and the chain of a lone term together with the layout after it; all other nodes span
tokens only. Positions are those of the first character of a span. -/
namespace Tabletop

namespace Phrase

def digitNodes (rule : Rule) (start : Nat) : List Char → List Node
  | [] => []
  | digits => [.spanning rule start digits []]

def Modifier.node (start : Nat) (modifier : Modifier) : Node :=
  match modifier with
  | .explode _ => .spanning .exploding start modifier.text []
  | .select selector count =>
    .spanning selector.rule start modifier.text
      (.spanning .selector start selector.text [] ::
        digitNodes .count (start + selector.text.length) count)
  | .reroll count =>
    .spanning .reroll start modifier.text
      (.spanning .selector start ['r'] [] :: digitNodes .count (start + 1) count)

def modifierNodes (start : Nat) : List Modifier → List Node
  | [] => []
  | modifier :: rest =>
    modifier.node start :: modifierNodes (start + modifier.text.length) rest

def Dice.node (start : Nat) (dice : Dice) : Node :=
  let size := start + dice.count.length + 1
  .spanning .diceRoll start dice.text
    (digitNodes .diceNumber start dice.count ++
      .spanning .dieSize size dice.size.text [] ::
        modifierNodes (size + dice.size.text.length) dice.modifiers)

def expressionNode (start : Nat) (text : List Char) (parts : List Node) : Node :=
  .around .expression (.spanning .operation start text parts)

/-- What the nodes of a whole chain span: a lone term takes the layout after it along, and a chain
of several terms ends with its last one. -/
def Chain.extent (after : List Char) : Chain → List Char
  | .last term => term.text ++ after
  | .link term joint rest => (Chain.link term joint rest).text

def termNode (start : Nat) (before text : List Char) (inner : Node) : Node :=
  .spanning .term start (before ++ text) [inner]

mutual
def Term.inner (start : Nat) : Term → Node
  | .dice dice => dice.node start
  | .number negative digits => .spanning .number start (Term.number negative digits).text []
  | .call name beforeOpening afterOpening argument beforeClosing =>
    let inside := start + name.length + beforeOpening.length + 1 + afterOpening.length
    .spanning .function start
      (Term.call name beforeOpening afterOpening argument beforeClosing).text
      [.spanning .identifier start name [],
        expressionNode inside (argument.extent beforeClosing) (argument.parts inside [])]
def Chain.parts (start : Nat) (before : List Char) : Chain → List Node
  | .last term => [termNode start before term.text (term.inner (start + before.length))]
  | .link term joint rest =>
    let operator := start + before.length + term.text.length + joint.before.length
    termNode start before term.text (term.inner (start + before.length)) ::
      .spanning .operator operator [joint.operator.char] [] ::
      rest.parts (operator + 1) joint.after
end

def Chain.node (start : Nat) (after : List Char) (chain : Chain) : Node :=
  expressionNode start (chain.extent after) (chain.parts start [])

end Phrase

def Phrase.node (phrase : Phrase) : Node := phrase.chain.node phrase.before.length phrase.after

end Tabletop
