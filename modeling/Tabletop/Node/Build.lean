import Tabletop.Node.Assemble

/-! Building expressions onto a list of rolls. The list is shared: each dice term that is completed is added
to its end at once, and what was added stays when the building fails later on. Several trees may be built
in turn onto one list. -/
namespace Tabletop

abbrev Building := ExceptT Failure (StateM (List Roll))

namespace Node

def buildRoll (node : Node) : Building Expr := do
  let roll ← (node.roll : Except Failure Roll)
  modifyThe (List Roll) (· ++ [roll])
  return .dice roll

mutual
def build : Node → Building Expr
  | ⟨rule, text, start, stop, children⟩ =>
    let node : Node := ⟨rule, text, start, stop, children⟩
    match rule with
    | .expression => buildOnly (node.violation (.oneChild children.length)) children
    | .term => buildOnly (node.violation (.oneChild children.length)) children
    | .operation => buildOperation (node.violation .alternation) children
    | .function =>
      match node.find? .identifier, buildArgument? children with
      | some name, some argument => return .call name.text (← argument)
      | _, _ => throw (node.violation .function)
    | .diceRoll => node.buildRoll
    | .number => return .number (← (node.signed : Except Failure Int))
    | _ => throw (node.violation .rule)
def buildOnly (otherwise : Failure) : List Node → Building Expr
  | [child] => child.build
  | _ => throw otherwise
def buildOperation (otherwise : Failure) : List Node → Building Expr
  | [] => throw otherwise
  | first :: links =>
    if links.length % 2 = 0 then do buildLinks (← first.build) links
    else throw otherwise
def buildLinks (left : Expr) : List Node → Building Expr
  | operator :: operand :: links =>
    if operator.rule = .operator then do
      let right ← operand.build
      buildLinks (.binary left operator.text right) links
    else throw (operator.violation .operator)
  | _ => return left
def buildArgument? : List Node → Option (Building Expr)
  | [] => none
  | child :: rest =>
    if child.rule = .expression then some child.build else buildArgument? rest
end

def buildOnto (rolls : List Roll) (node : Node) : Except Failure Expr × List Roll :=
  node.build.run.run rolls

def buildAll (rolls : List Roll) : List Node → List (Except Failure Expr × List Roll)
  | [] => []
  | node :: rest =>
    let built := node.buildOnto rolls
    built :: buildAll built.2 rest

end Node
end Tabletop
