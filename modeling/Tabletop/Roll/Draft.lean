import Tabletop.Roll
import Tabletop.Text.Quoted

/-! Rolls assembled by hand. A draft may hold any integers; it is checked before it counts as a
roll, and the first fault in the order count, size, selection, reroll is the one that is named. -/
namespace Tabletop.Roll

structure Draft where
  count : Int
  size : Int
  explosion : Explosion := .none
  selection : Option (Policy × Int) := none
  reroll : Option Int := none
deriving DecidableEq, Repr

inductive Fault where
  | count (given : Int)
  | size (given : Int)
  | selection (given : Int)
  | reroll (given : Int)
  | explosion (given : String)
deriving DecidableEq, Repr

def Fault.message : Fault → String
  | .count given => "num_dice must not be negative, got " ++ Numeral.describe given
  | .size given => "die_size must be positive, got " ++ Numeral.describe given
  | .selection given => "keep/drop count must be positive, got " ++ Numeral.describe given
  | .reroll given => "reroll threshold must be positive, got " ++ Numeral.describe given
  | .explosion given => Text.quote given ++ " is not a valid Exploding"

def Explosion.read (label : String) : Except Fault Explosion :=
  match ofLabel? label with
  | .some explosion => .ok explosion
  | .none => .error (.explosion label)

def positive (given : Int) (fault : Fault) : Except Fault Positive :=
  if h : 0 < given.toNat then .ok ⟨given.toNat, h⟩ else .error fault

namespace Draft

def checkSelection : Option (Policy × Int) → Except Fault (Option Selection)
  | none => .ok none
  | some (policy, given) => do
    let count ← positive given (.selection given)
    return some ⟨policy, count⟩

def checkReroll : Option Int → Except Fault (Option Positive)
  | none => .ok none
  | some given => do
    let threshold ← positive given (.reroll given)
    return some threshold

def check (draft : Draft) : Except Fault Roll := do
  if draft.count < 0 then throw (.count draft.count)
  let size ← positive draft.size (.size draft.size)
  let selection ← checkSelection draft.selection
  let reroll ← checkReroll draft.reroll
  return ⟨draft.count.toNat, size, draft.explosion, selection, reroll⟩

end Draft

def draft (roll : Roll) : Draft where
  count := roll.count
  size := roll.size.val
  explosion := roll.explosion
  selection := roll.selection.map fun selection => (selection.policy, selection.count.val)
  reroll := roll.reroll.map fun threshold => threshold.val

theorem positive_natCast (n : Positive) (fault : Fault) : positive (n.val : Int) fault = .ok n := by
  simp [positive, n.property]

/-- Every roll passes the check, so the check decides which drafts are rolls. -/
theorem check_draft (roll : Roll) : roll.draft.check = .ok roll := by
  obtain ⟨count, size, explosion, selection, reroll⟩ := roll
  have natural : ¬ (count : Int) < 0 := by omega
  cases selection <;> cases reroll <;>
    simp [draft, Draft.check, Draft.checkSelection, Draft.checkReroll, positive_natCast, natural,
      bind, Except.bind, pure, Except.pure]

end Tabletop.Roll
