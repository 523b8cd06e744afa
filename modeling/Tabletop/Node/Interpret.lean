import Tabletop.Node.Build

/-! Building from parts of a tree by their places. A part is taken by its position among the children, by its
rule or by its text as a key, and numerals are converted; each of these goes wrong where there is no such part.
A tree may have been made by hand, so nothing is taken before it has been looked for. -/
namespace Tabletop

/-- What can go wrong on the way: a failure of the building, or a part that is not there. -/
inductive Mishap where
  | failure (failure : Failure)
  | position (position : Nat)
  | key (key : String)
  | absence
  | numeral (text : String)
deriving DecidableEq, Repr

namespace Part

variable {α : Type}

def item (items : List α) (position : Nat) : Except Mishap { item // item ∈ items } :=
  if h : position < items.length then .ok ⟨items[position], List.getElem_mem h⟩ else .error (.position position)

def pop : List α → Except Mishap (α × List α)
  | first :: rest => .ok (first, rest)
  | [] => .error (.position 0)

def entry (table : List (String × α)) (key : String) : Except Mishap α :=
  match table.lookup key with
  | some value => .ok value
  | none => .error (.key key)

def present : (given : Option α) → Except Mishap { part // given = some part }
  | some part => .ok ⟨part, rfl⟩
  | none => .error .absence

def unsignedText (text : List Char) : List Char :=
  match Text.trim Text.isSpace text with
  | '-' :: digits => digits
  | '+' :: digits => digits
  | digits => digits

def integer (text : String) : Except Mishap Int :=
  match Numeral.readSigned text.toList with
  | some n => .ok n
  | none =>
    match Numeral.grouped (unsignedText text.toList) with
    | some digits => .error (.failure (.overlong digits.length))
    | none => .error (.numeral text)

end Part

def alternate {α : Type} : List α → List α
  | [] => []
  | [item] => [item]
  | item :: _ :: rest => item :: alternate rest

abbrev Interpreting := ExceptT Mishap (StateM (List Roll))

namespace Node

def refuse {α : Type} (node : Node) (reason : Reason) : Except Mishap α := throw (.failure (node.violation reason))

def explosions : List (String × Roll.Explosion) := [("!", .once), ("!!", .indefinite)]

def policies : List (String × Roll.Policy) :=
  [("k", .keepHighest), ("kh", .keepHighest), ("kl", .keepLowest), ("d", .dropHighest), ("dh", .dropHighest),
    ("dl", .dropLowest)]

def onlyChild (node : Node) : Except Mishap { child // child ∈ node.children } :=
  if node.children.length ≠ 1 then node.refuse (.oneChild node.children.length) else Part.item node.children 0

def takeUnsigned (node : Node) : Except Mishap Int :=
  let digits := node.text.toList
  if ¬ (digits ≠ [] ∧ digits.all Char.isDigit) then node.refuse .unsigned else Part.integer node.text

def takeCount (node : Node) : Except Mishap Int := do
  if (node.find? .count).isSome then (← Part.present (node.find? .count)).val.takeUnsigned else return 1

def takeSelector (node : Node) : Except Mishap String := do
  if (node.find? .selector).isNone then node.refuse .selectorMissing
  return (← Part.present (node.find? .selector)).val.text

def takeModifier (draft : Roll.Draft) (modifier : Node) : Except Mishap Roll.Draft := do
  if modifier.rule = .exploding then
    if (explosions.lookup modifier.text).isNone then modifier.refuse .explosion
    if draft.explosion = .indefinite ∧ modifier.text = "!" then return draft
    return { draft with explosion := ← Part.entry explosions modifier.text }
  else if modifier.rule = .keep ∨ modifier.rule = .drop then
    let selector ← modifier.takeSelector
    if (policies.lookup selector).isNone then modifier.refuse .selectorUnknown
    let policy ← Part.entry policies selector
    return { draft with selection := some (policy, ← modifier.takeCount) }
  else if modifier.rule = .reroll then
    return { draft with reroll := some (← modifier.takeCount) }
  else modifier.refuse .modifier

/-- The number of dice is optional; it is taken out only if it is there, so the size is not passed over. -/
def takeDiceCount (children : List Node) : Except Mishap (Int × List Node) := do
  if children.isEmpty then return (1, children)
  if (← Part.item children 0).val.rule = .diceNumber then
    let (number, rest) ← Part.pop children
    return (← number.takeUnsigned, rest)
  return (1, children)

def takeSize (node : Node) (children : List Node) : Except Mishap (Node × List Node) := do
  if children.isEmpty then node.refuse .dieSizeMissing
  else
    let first ← Part.item children 0
    if first.val.rule ≠ .dieSize then node.refuse .dieSizeMissing else Part.pop children

def takeDieSize (size : Node) : Except Mishap Int := do
  let sides ← if size.text = "%" then pure 100 else size.takeUnsigned
  if sides = 0 then size.refuse .dieSizeZero
  return sides

def takeDraft (node : Node) : Except Mishap Roll.Draft := do
  let (count, children) ← takeDiceCount node.children
  let (size, modifiers) ← node.takeSize children
  modifiers.foldlM takeModifier ⟨count, ← size.takeDieSize, .none, none, none⟩

def takeRoll (node : Node) : Except Mishap Roll := do
  let draft ← node.takeDraft
  match draft.check with
  | .ok roll => return roll
  | .error fault => throw (.failure (.faulty fault))

def links (children : List Node) : List (Node × Node) :=
  (alternate (children.drop 1)).zip (alternate (children.drop 2))

theorem mem_of_mem_alternate {α : Type} (items : List α) : ∀ item ∈ alternate items, item ∈ items := by
  induction items using alternate.induct with
  | case1 => exact fun item member => member
  | case2 only => exact fun item member => member
  | case3 first second rest ih =>
    intro item member
    rcases List.mem_cons.mp member with rfl | member
    · exact List.mem_cons_self
    · exact List.mem_cons_of_mem _ (List.mem_cons_of_mem _ (ih item member))

theorem sizeOf_child (node child : Node) (member : child ∈ node.children) : sizeOf child < sizeOf node := by
  obtain ⟨rule, text, start, stop, children⟩ := node
  have inside : sizeOf child < sizeOf children := List.sizeOf_lt_of_mem member
  rw [mk.sizeOf_spec]
  omega

theorem sizeOf_link (node : Node) (link : Node × Node) (member : link ∈ links node.children) :
    sizeOf link.2 < sizeOf node := by
  have inside := mem_of_mem_alternate _ link.2 (List.of_mem_zip member).2
  exact node.sizeOf_child link.2 (List.mem_of_mem_drop inside)

theorem sizeOf_found (node child : Node) (rule : Rule) (found : node.find? rule = some child) :
    sizeOf child < sizeOf node :=
  node.sizeOf_child child (List.mem_of_find?_eq_some found)

def joined (left : Expr) (operator : Node) (operand : Interpreting Expr) : Interpreting Expr := do
  if operator.rule ≠ .operator then (operator.refuse .operator : Except Mishap Expr)
  else return .binary left operator.text (← operand)

def interpret (node : Node) : Interpreting Expr := do
  match node.rule with
  | .expression =>
    let child ← (node.onlyChild : Except Mishap _)
    child.val.interpret
  | .term =>
    let child ← (node.onlyChild : Except Mishap _)
    child.val.interpret
  | .operation =>
    if node.children.length % 2 ≠ 1 then (node.refuse .alternation : Except Mishap Unit)
    let first ← (Part.item node.children 0 : Except Mishap _)
    let left ← first.val.interpret
    (links node.children).attach.foldlM (fun left link => joined left link.val.1 link.val.2.interpret) left
  | .function =>
    if (node.find? .identifier).isNone ∨ (node.find? .expression).isNone then
      (node.refuse .function : Except Mishap Unit)
    let name ← (Part.present (node.find? .identifier) : Except Mishap _)
    let argument ← (Part.present (node.find? .expression) : Except Mishap _)
    return .call name.val.text (← argument.val.interpret)
  | .diceRoll =>
    let roll ← (node.takeRoll : Except Mishap Roll)
    modifyThe (List Roll) (· ++ [roll])
    return .dice roll
  | .number =>
    match Part.integer node.text with
    | .ok value => return .number value
    | .error _ => (node.refuse .signed : Except Mishap Expr)
  | _ => (node.refuse .rule : Except Mishap Expr)
termination_by sizeOf node
decreasing_by
  · exact node.sizeOf_child child.val child.property
  · exact node.sizeOf_child child.val child.property
  · exact node.sizeOf_child first.val first.property
  · exact node.sizeOf_link link.val link.property
  · exact node.sizeOf_found argument.val .expression argument.property

def interpretOnto (rolls : List Roll) (node : Node) : Except Mishap Expr × List Roll :=
  node.interpret.run.run rolls

end Node
end Tabletop
