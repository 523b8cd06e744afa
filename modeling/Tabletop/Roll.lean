import Tabletop.Numeral

/-! Dice rolls: how many dice of which size, whether they explode, which of them are selected and
below what threshold they are rerolled. Nothing is rolled here; a roll is a request. -/
namespace Tabletop

abbrev Positive := { n : Nat // 0 < n }

namespace Roll

inductive Explosion where
  | none
  | once
  | indefinite
deriving DecidableEq, Repr

inductive Policy where
  | keepHighest
  | keepLowest
  | dropHighest
  | dropLowest
deriving DecidableEq, Repr

structure Selection where
  policy : Policy
  count : Positive
deriving DecidableEq, Repr

end Roll

/-- What to roll for a single dice term. Any number of dice may be asked for, also none. -/
structure Roll where
  count : Nat
  size : Positive
  explosion : Roll.Explosion := .none
  selection : Option Roll.Selection := none
  reroll : Option Positive := none
deriving DecidableEq, Repr

namespace Roll

def Explosion.label : Explosion → String
  | .none => "none"
  | .once => "once"
  | .indefinite => "indefinite"

def Explosion.ofLabel? : String → Option Explosion
  | "none" => some .none
  | "once" => some .once
  | "indefinite" => some .indefinite
  | _ => Option.none

def Explosion.mark : Explosion → List Char
  | .none => []
  | .once => ['!']
  | .indefinite => ['!', '!']

def Policy.label : Policy → String
  | .keepHighest => "KeepHighest"
  | .keepLowest => "KeepLowest"
  | .dropHighest => "DropHighest"
  | .dropLowest => "DropLowest"

def Policy.ofLabel? : String → Option Policy
  | "KeepHighest" => some .keepHighest
  | "KeepLowest" => some .keepLowest
  | "DropHighest" => some .dropHighest
  | "DropLowest" => some .dropLowest
  | _ => none

def Policy.mark : Policy → List Char
  | .keepHighest => ['k', 'h']
  | .keepLowest => ['k', 'l']
  | .dropHighest => ['d', 'h']
  | .dropLowest => ['d', 'l']

def Selection.written (selection : Selection) : List Char :=
  selection.policy.mark ++ Numeral.ofNat selection.count.val

/-- The normal form of a roll. A single die has no count, and the modifiers come in the order
explosion, selection, reroll with their counts spelled out. -/
def written (roll : Roll) : List Char :=
  (if roll.count = 1 then [] else Numeral.ofNat roll.count) ++
    'd' :: (Numeral.ofNat roll.size.val ++ roll.explosion.mark ++
      (roll.selection.map Selection.written).getD [] ++
      (roll.reroll.map fun threshold => 'r' :: Numeral.ofNat threshold.val).getD [])

def describe (roll : Roll) : String := String.ofList roll.written

theorem Explosion.ofLabel?_label (explosion : Explosion) :
    Explosion.ofLabel? explosion.label = some explosion := by
  cases explosion <;> rfl

theorem Policy.ofLabel?_label (policy : Policy) : Policy.ofLabel? policy.label = some policy := by
  cases policy <;> rfl

end Roll
end Tabletop
