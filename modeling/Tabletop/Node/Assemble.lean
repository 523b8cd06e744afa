import Tabletop.Assembly
import Tabletop.Expr
import Tabletop.Node

/-! The expression of a parse tree. A tree may have been made by hand, so nothing about its shape
is taken for granted: the first node that cannot be interpreted is named with the reason. Operators
are chained from left to right without precedence. -/
namespace Tabletop.Node

def violation (node : Node) (reason : Reason) : Failure :=
  .violated ⟨node.rule, node.text, reason⟩

def unsigned (node : Node) : Except Failure Nat :=
  let digits := node.text.toList
  if digits ≠ [] ∧ digits.all Char.isDigit then
    match Numeral.read digits with
    | .ok n => .ok n
    | .error length => .error (.overlong length)
  else .error (node.violation .unsigned)

def signed (node : Node) : Except Failure Int :=
  match Numeral.readSigned node.text.toList with
  | some n => .ok n
  | none => .error (node.violation .signed)

def count (node : Node) : Except Failure Nat :=
  match node.find? .count with
  | some count => count.unsigned
  | none => .ok 1

def policy? : String → Option Roll.Policy
  | "k" => some .keepHighest
  | "kh" => some .keepHighest
  | "kl" => some .keepLowest
  | "d" => some .dropHighest
  | "dh" => some .dropHighest
  | "dl" => some .dropLowest
  | _ => none

def selection (node : Node) : Except Failure (Roll.Policy × Int) :=
  match node.find? .selector with
  | none => .error (node.violation .selectorMissing)
  | some selector =>
    match policy? selector.text with
    | none => .error (node.violation .selectorUnknown)
    | some policy => node.count.map fun count => (policy, (count : Int))

/-- What an explosion mark makes of the explosion so far: a single mark does not take back a double
one. -/
def explosion (node : Node) (before : Roll.Explosion) : Except Failure Roll.Explosion :=
  match node.text with
  | "!" => .ok (if before = .indefinite then .indefinite else .once)
  | "!!" => .ok .indefinite
  | _ => .error (node.violation .explosion)

def modify (draft : Roll.Draft) (modifier : Node) : Except Failure Roll.Draft :=
  match modifier.rule with
  | .exploding => (modifier.explosion draft.explosion).map fun found =>
    { draft with explosion := found }
  | .keep => modifier.selection.map fun found => { draft with selection := some found }
  | .drop => modifier.selection.map fun found => { draft with selection := some found }
  | .reroll => modifier.count.map fun found => { draft with reroll := some (found : Int) }
  | _ => .error (modifier.violation .modifier)

def diceCount : List Node → Except Failure (Nat × List Node)
  | [] => .ok (1, [])
  | first :: rest =>
    if first.rule = .diceNumber then first.unsigned.map fun count => (count, rest)
    else .ok (1, first :: rest)

def dieSize (node : Node) : Except Failure Nat :=
  if node.text = "%" then .ok 100
  else
    match node.unsigned with
    | .ok 0 => .error (node.violation .dieSizeZero)
    | size => size

def rollDraft (node : Node) : Except Failure Roll.Draft := do
  let (count, parts) ← diceCount node.children
  match parts with
  | [] => throw (node.violation .dieSizeMissing)
  | size :: modifiers =>
    if size.rule = .dieSize then
      modifiers.foldlM modify ⟨count, ← size.dieSize, .none, none, none⟩
    else throw (node.violation .dieSizeMissing)

def roll (node : Node) : Except Failure Roll := do
  let draft ← node.rollDraft
  match draft.check with
  | .ok roll => return roll
  | .error fault => throw (.faulty fault)

mutual
def assemble : Node → Assembly Expr
  | ⟨rule, text, start, stop, children⟩ =>
    let node : Node := ⟨rule, text, start, stop, children⟩
    match rule with
    | .expression => assembleOnly (node.violation (.oneChild children.length)) children
    | .term => assembleOnly (node.violation (.oneChild children.length)) children
    | .operation => assembleOperation (node.violation .alternation) children
    | .function =>
      match node.find? .identifier, assembleArgument? children with
      | some name, some argument => argument.andThen fun value => .value (.call name.text value)
      | _, _ => .fail (node.violation .function)
    | .diceRoll =>
      match node.roll with
      | .ok roll => .completed roll (.dice roll)
      | .error failure => .fail failure
    | .number => (Assembly.ofExcept node.signed).andThen fun value => .value (.number value)
    | _ => .fail (node.violation .rule)
def assembleOnly (otherwise : Failure) : List Node → Assembly Expr
  | [child] => child.assemble
  | _ => .fail otherwise
def assembleOperation (otherwise : Failure) : List Node → Assembly Expr
  | [] => .fail otherwise
  | first :: links =>
    if links.length % 2 = 0 then first.assemble.andThen fun left => assembleLinks left links
    else .fail otherwise
def assembleLinks (left : Expr) : List Node → Assembly Expr
  | operator :: operand :: links =>
    if operator.rule = .operator then
      operand.assemble.andThen fun right => assembleLinks (.binary left operator.text right) links
    else .fail (operator.violation .operator)
  | _ => .value left
def assembleArgument? : List Node → Option (Assembly Expr)
  | [] => none
  | child :: rest =>
    if child.rule = .expression then some child.assemble else assembleArgument? rest
end

end Tabletop.Node
