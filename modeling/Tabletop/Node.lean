import Tabletop.Rule

/-! Parse trees. A node is a span of text under one rule, with the nodes inside it. -/
namespace Tabletop

structure Node where
  rule : Rule
  text : String
  start : Nat
  stop : Nat
  children : List Node
deriving Repr

namespace Node

def spanning (rule : Rule) (start : Nat) (text : List Char) (children : List Node) : Node :=
  ⟨rule, String.ofList text, start, start + text.length, children⟩

def around (rule : Rule) (child : Node) : Node :=
  ⟨rule, child.text, child.start, child.stop, [child]⟩

def find? (node : Node) (rule : Rule) : Option Node :=
  node.children.find? fun child => child.rule = rule

end Node
end Tabletop
