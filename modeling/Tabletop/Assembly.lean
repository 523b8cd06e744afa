import Tabletop.Failure

/-! Assembling values from a tree. An assembly yields the rolls that were completed on the way, in
order, and then either its value or the failure that ended it. -/
namespace Tabletop

structure Assembly (α : Type) where
  rolls : List Roll
  outcome : Except Failure α

namespace Assembly

variable {α β : Type}

def fail (failure : Failure) : Assembly α := ⟨[], .error failure⟩

def value (a : α) : Assembly α := ⟨[], .ok a⟩

def completed (roll : Roll) (a : α) : Assembly α := ⟨[roll], .ok a⟩

def andThen (first : Assembly α) (second : α → Assembly β) : Assembly β :=
  match first.outcome with
  | .error failure => ⟨first.rolls, .error failure⟩
  | .ok a => ⟨first.rolls ++ (second a).rolls, (second a).outcome⟩

def ofExcept : Except Failure α → Assembly α
  | .ok a => value a
  | .error failure => fail failure

instance : Monad Assembly where
  pure := value
  bind := andThen

@[simp] theorem pure_eq (a : α) : (pure a : Assembly α) = value a := rfl

@[simp] theorem bind_eq (first : Assembly α) (second : α → Assembly β) :
    (first >>= second) = first.andThen second := rfl

@[simp] theorem value_andThen (a : α) (second : α → Assembly β) :
    (value a).andThen second = second a := rfl

@[simp] theorem fail_andThen (failure : Failure) (second : α → Assembly β) :
    (fail failure).andThen second = fail failure := rfl

theorem andThen_value (first : Assembly α) : first.andThen value = first := by
  obtain ⟨rolls, outcome⟩ := first
  cases outcome <;> simp [andThen, value]

end Assembly
end Tabletop
