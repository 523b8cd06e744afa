import Tabletop.Assembly
import Tabletop.Expr
import Tabletop.Proofs.Numeral

/-! What phrases mean. The value of a chain is built from left to right, so what stands to its left is
given as the operation that its first term completes. The number of dice and the digits of a number
are converted only here, and the first of them that is too long ends the assembly. -/
namespace Tabletop.Phrase

def countValue : List Char → Nat
  | [] => 1
  | run => Numeral.value run

def Size.value : Size → Nat
  | .percent => 100
  | .digits run => Numeral.value run

def Selector.policy : Selector → Roll.Policy
  | .k => .keepHighest
  | .kh => .keepHighest
  | .kl => .keepLowest
  | .d => .dropHighest
  | .dh => .dropHighest
  | .dl => .dropLowest

/-- A draft changed by a modifier: the last selection and the last reroll count, and a single mark
does not take back a double one. -/
def Modifier.amend (draft : Roll.Draft) : Modifier → Roll.Draft
  | .explode true => { draft with explosion := .indefinite }
  | .explode false =>
    { draft with explosion := if draft.explosion = .indefinite then .indefinite else .once }
  | .select selector count =>
    { draft with selection := some (selector.policy, (countValue count : Int)) }
  | .reroll count => { draft with reroll := some (countValue count : Int) }

def Dice.base (dice : Dice) : Roll.Draft where
  count := countValue dice.count
  size := dice.size.value

def Dice.draft (dice : Dice) : Roll.Draft := dice.modifiers.foldl Modifier.amend dice.base

def Dice.roll (dice : Dice) : Except Failure Roll :=
  match Numeral.overlong? dice.count with
  | some digits => .error (.overlong digits)
  | none =>
    match dice.draft.check with
    | .ok roll => .ok roll
    | .error fault => .error (.faulty fault)

def numberText (negative : Bool) (digits : List Char) : String :=
  String.ofList (Term.number negative digits).text

mutual
def Term.assembly : Term → Assembly Expr
  | .dice dice =>
    match dice.roll with
    | .ok roll => .completed roll (.dice roll)
    | .error failure => .fail failure
  | .number negative digits =>
    match Numeral.overlong? digits with
    | some _ => .fail (.violated ⟨.number, numberText negative digits, .signed⟩)
    | none => .value (.number (Numeral.signedValue negative digits))
  | .call name _ _ argument _ =>
    (argument.assemblyOnto id).andThen fun value => .value (.call (String.ofList name) value)
def Chain.assemblyOnto (join : Expr → Expr) : Chain → Assembly Expr
  | .last term => term.assembly.andThen fun value => .value (join value)
  | .link term joint rest =>
    term.assembly.andThen fun value =>
      rest.assemblyOnto (.binary (join value) (String.ofList [joint.operator.char]))
end

def Chain.assembly (chain : Chain) : Assembly Expr := chain.assemblyOnto id

end Tabletop.Phrase
