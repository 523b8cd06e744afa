import Tabletop.Rule
import Tabletop.Text.Characters

/-! Dice notation as it is written. A phrase keeps every character of its text, the layout between
tokens included, so a text is one phrase's writing or is not notation at all. -/
namespace Tabletop

namespace Phrase

inductive Operator where
  | plus
  | minus
  | times
  | over
deriving DecidableEq, Repr

def Operator.char : Operator → Char
  | .plus => '+'
  | .minus => '-'
  | .times => '*'
  | .over => '/'

def Operator.ofChar? : Char → Option Operator
  | '+' => some .plus
  | '-' => some .minus
  | '*' => some .times
  | '/' => some .over
  | _ => none

inductive Selector where
  | k
  | kh
  | kl
  | d
  | dh
  | dl
deriving DecidableEq, Repr

def Selector.text : Selector → List Char
  | .k => ['k']
  | .kh => ['k', 'h']
  | .kl => ['k', 'l']
  | .d => ['d']
  | .dh => ['d', 'h']
  | .dl => ['d', 'l']

def Selector.rule : Selector → Rule
  | .k => .keep
  | .kh => .keep
  | .kl => .keep
  | .d => .drop
  | .dh => .drop
  | .dl => .drop

/-- A modifier of a dice term; no digits stand for a count that is left out. -/
inductive Modifier where
  | explode (twice : Bool)
  | select (selector : Selector) (count : List Char)
  | reroll (count : List Char)
deriving DecidableEq, Repr

def Modifier.text : Modifier → List Char
  | .explode true => ['!', '!']
  | .explode false => ['!']
  | .select selector count => selector.text ++ count
  | .reroll count => 'r' :: count

inductive Size where
  | percent
  | digits (run : List Char)
deriving DecidableEq, Repr

def Size.text : Size → List Char
  | .percent => ['%']
  | .digits run => run

structure Dice where
  count : List Char
  size : Size
  modifiers : List Modifier
deriving DecidableEq, Repr

def Dice.text (dice : Dice) : List Char :=
  dice.count ++ 'd' :: (dice.size.text ++ dice.modifiers.flatMap Modifier.text)

structure Joint where
  before : List Char
  operator : Operator
  after : List Char
deriving DecidableEq, Repr

def Joint.text (joint : Joint) : List Char :=
  joint.before ++ joint.operator.char :: joint.after

mutual
inductive Term where
  | dice (dice : Dice)
  | number (negative : Bool) (digits : List Char)
  | call (name beforeOpening afterOpening : List Char) (argument : Chain) (beforeClosing : List Char)
inductive Chain where
  | last (term : Term)
  | link (term : Term) (joint : Joint) (rest : Chain)
end

mutual
def Term.text : Term → List Char
  | .dice dice => dice.text
  | .number true digits => '-' :: digits
  | .number false digits => digits
  | .call name beforeOpening afterOpening argument beforeClosing =>
    name ++ (beforeOpening ++ '(' :: (afterOpening ++ (argument.text ++ (beforeClosing ++ [')']))))
def Chain.text : Chain → List Char
  | .last term => term.text
  | .link term joint rest => term.text ++ (joint.text ++ rest.text)
end

mutual
def Term.depth : Term → Nat
  | .dice _ => 0
  | .number _ _ => 0
  | .call _ _ _ argument _ => argument.depth + 1
def Chain.depth : Chain → Nat
  | .last term => term.depth
  | .link term _ rest => max term.depth rest.depth
end

theorem Operator.char_of_ofChar? (c : Char) (operator : Operator)
    (named : ofChar? c = some operator) : operator.char = c := by
  unfold ofChar? at named
  split at named <;> cases named <;> rfl

theorem Operator.ofChar?_char (operator : Operator) :
    Operator.ofChar? operator.char = some operator := by
  cases operator <;> rfl

end Phrase

structure Phrase where
  before : List Char
  chain : Phrase.Chain
  after : List Char

def Phrase.text (phrase : Phrase) : List Char :=
  phrase.before ++ (phrase.chain.text ++ phrase.after)

end Tabletop
