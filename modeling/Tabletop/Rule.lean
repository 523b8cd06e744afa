/-! The rules of the notation, by which the nodes of a parse tree are labelled. -/
namespace Tabletop

inductive Rule where
  | expression
  | operation
  | term
  | operator
  | number
  | function
  | identifier
  | diceRoll
  | diceNumber
  | dieSize
  | exploding
  | keep
  | drop
  | reroll
  | selector
  | count
  | other (name : String)
deriving DecidableEq, Repr

namespace Rule

def name : Rule → String
  | .expression => "expression"
  | .operation => "operation"
  | .term => "term"
  | .operator => "operator"
  | .number => "number"
  | .function => "function"
  | .identifier => "identifier"
  | .diceRoll => "dice_roll"
  | .diceNumber => "dice_number"
  | .dieSize => "die_size"
  | .exploding => "exploding_modifier"
  | .keep => "keep_modifier"
  | .drop => "drop_modifier"
  | .reroll => "reroll_modifier"
  | .selector => "selector"
  | .count => "count"
  | .other name => name

def ofName : String → Rule
  | "expression" => .expression
  | "operation" => .operation
  | "term" => .term
  | "operator" => .operator
  | "number" => .number
  | "function" => .function
  | "identifier" => .identifier
  | "dice_roll" => .diceRoll
  | "dice_number" => .diceNumber
  | "die_size" => .dieSize
  | "exploding_modifier" => .exploding
  | "keep_modifier" => .keep
  | "drop_modifier" => .drop
  | "reroll_modifier" => .reroll
  | "selector" => .selector
  | "count" => .count
  | name => .other name

theorem name_ofName (text : String) : (ofName text).name = text := by
  unfold ofName
  split <;> rfl

end Rule
end Tabletop
