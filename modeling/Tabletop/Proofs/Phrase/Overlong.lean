import Tabletop.Proofs.Phrase.Grammar

/-! Runs of digits that are too long to be converted. Sizes and the counts of modifiers are converted
while they are scanned, so the first of them that is too long stops the scanner. The digits behind a
leading d of a name count among them, since a name is tried as a dice term first. -/
namespace Tabletop

namespace Numeral

def overlong? (run : List Char) : Option Nat :=
  if run.length ≤ maxDigits then none else some run.length

theorem overlong?_eq_none (run : List Char) : overlong? run = none ↔ run.length ≤ maxDigits := by
  unfold overlong?
  split <;> simp_all

theorem read_eq (run : List Char) :
    read run = match overlong? run with
      | none => .ok (value run)
      | some digits => .error digits := by
  unfold read overlong?
  split <;> rfl

theorem of_read_ok (run : List Char) (n : Nat) (ok : read run = .ok n) :
    value run = n ∧ overlong? run = none := by
  rw [read_eq] at ok
  split at ok
  · rename_i short
    exact ⟨Except.ok.inj ok, short⟩
  · cases ok

end Numeral

namespace Phrase

/-- The text holds a run of so many digits, and they are too many to be converted. -/
def LongRun (digits : Nat) (text : List Char) : Prop :=
  ∃ run, run <:+: text ∧ Digits run ∧ run.length = digits ∧ Numeral.maxDigits < digits

theorem LongRun.before (digits : Nat) (text after : List Char) (long : LongRun digits text) :
    LongRun digits (text ++ after) := by
  obtain ⟨run, inside, rest⟩ := long
  exact ⟨run, inside.trans (List.prefix_append text after).isInfix, rest⟩

theorem LongRun.behind (digits : Nat) (before text : List Char) (long : LongRun digits text) :
    LongRun digits (before ++ text) := by
  obtain ⟨run, inside, rest⟩ := long
  exact ⟨run, inside.trans (List.suffix_append before text).isInfix, rest⟩

theorem LongRun.split (digits : Nat) (before : List Char) (c : Char) (after : List Char)
    (other : c.isDigit = false) (long : LongRun digits (before ++ c :: after)) :
    LongRun digits before ∨ LongRun digits after := by
  obtain ⟨run, inside, only, length, tooLong⟩ := long
  have apart : ∀ part, part <+: c :: after → Digits part → part = [] := by
    intro part first only
    rcases List.prefix_cons_iff.mp first with nothing | ⟨more, rfl, _⟩
    · exact nothing
    · rw [only c (by simp)] at other
      cases other
  rcases List.infix_append_iff.mp inside with first | second | ⟨front, back, rfl, first, second⟩
  · exact .inl ⟨run, first, only, length, tooLong⟩
  · rcases List.infix_cons_iff.mp second with start | second
    · rw [apart run start only] at length
      exact absurd tooLong (by rw [← length]; decide)
    · exact .inr ⟨run, second, only, length, tooLong⟩
  · obtain ⟨only, onlyBack⟩ := List.forall_mem_append.mp only
    rw [apart back second onlyBack, List.append_nil] at length
    exact .inl ⟨front, first.isInfix, only, length, tooLong⟩

theorem not_longRun_short (digits : Nat) (text : List Char) (short : text.length ≤ Numeral.maxDigits) :
    ¬ LongRun digits text := by
  rintro ⟨run, inside, _, rfl, long⟩
  exact absurd (inside.length_le.trans short) (Nat.not_le_of_lt long)

theorem not_longRun_marked (digits : Nat) (before mark after : List Char) (some : mark ≠ [])
    (others : ∀ c ∈ mark, c.isDigit = false) (first : ¬ LongRun digits before)
    (second : ¬ LongRun digits after) : ¬ LongRun digits (before ++ (mark ++ after)) := by
  induction mark generalizing before with
  | nil => exact absurd rfl some
  | cons c mark ih =>
    obtain ⟨other, others⟩ := List.forall_mem_cons.mp others
    intro long
    rcases LongRun.split digits before c _ other long with long | long
    · exact first long
    · by_cases nothing : mark = []
      · subst nothing
        exact second long
      · have short := not_longRun_short digits [] (Nat.zero_le _)
        exact ih [] nothing others short long

theorem longRun_of_read (text : List Char) (digits : Nat)
    (failed : Numeral.read (text.takeWhile Char.isDigit) = .error digits) : LongRun digits text := by
  unfold Numeral.read at failed
  split at failed
  · cases failed
  · rename_i long
    cases failed
    exact ⟨_, (List.takeWhile_prefix _).isInfix, digits_takeWhile text, rfl, Nat.lt_of_not_le long⟩

def Size.overlong? : Size → Option Nat
  | .percent => none
  | .digits run => Numeral.overlong? run

def Modifier.overlong? : Modifier → Option Nat
  | .explode _ => none
  | .select _ count => Numeral.overlong? count
  | .reroll count => Numeral.overlong? count

def modifiersOverlong? : List Modifier → Option Nat
  | [] => none
  | modifier :: rest => modifier.overlong?.or (modifiersOverlong? rest)

theorem modifiersOverlong?_eq_none (modifiers : List Modifier) :
    modifiersOverlong? modifiers = none ↔ ∀ modifier ∈ modifiers, modifier.overlong? = none := by
  induction modifiers with
  | nil => simp [modifiersOverlong?]
  | cons modifier rest ih => rw [modifiersOverlong?, Option.or_eq_none_iff, ih, List.forall_mem_cons]

def Dice.overlong? (dice : Dice) : Option Nat :=
  dice.size.overlong?.or (modifiersOverlong? dice.modifiers)

def nameOverlong? : List Char → Option Nat
  | 'd' :: rest => Numeral.overlong? (rest.takeWhile Char.isDigit)
  | _ => none

mutual
def Term.overlong? : Term → Option Nat
  | .dice dice => dice.overlong?
  | .number _ _ => none
  | .call name _ _ argument _ => (nameOverlong? name).or argument.overlong?
def Chain.overlong? : Chain → Option Nat
  | .last term => term.overlong?
  | .link term _ rest => term.overlong?.or rest.overlong?
end

theorem map_error {ε α β : Type} (change : α → β) (scanned : Except ε α) (halt : ε)
    (failed : scanned.map change = .error halt) : scanned = .error halt := by
  cases scanned with
  | error other => exact congrArg _ (Except.error.inj failed)
  | ok found => cases failed

theorem bind_error {ε α β : Type} (scanned : Except ε α) (next : α → Except ε β) (halt : ε)
    (failed : (scanned >>= next) = .error halt) :
    scanned = .error halt ∨ ∃ found, scanned = .ok found ∧ next found = .error halt := by
  cases scanned with
  | error other => exact .inl (congrArg _ (Except.error.inj failed))
  | ok found => exact .inr ⟨found, rfl, failed⟩

def settle {α : Type} (stopped : Option Nat) (found : α) : Except Halt α :=
  match stopped with
  | none => .ok found
  | some digits => .error (.overlong digits)

theorem map_settle {α β : Type} (change : α → β) (stopped : Option Nat) (found : α) :
    (settle stopped found).map change = settle stopped (change found) := by
  cases stopped <;> rfl

theorem settle_or {α : Type} (first second : Option Nat) (found : α) :
    settle (first.or second) found = settle first () >>= fun _ => settle second found := by
  cases first <;> rfl

@[simp] theorem settle_none_bind {α β : Type} (found : α) (next : α → Except Halt β) :
    (settle none found >>= next) = next found := rfl

theorem orElse_settle {α : Type} (stopped : Option Nat) (found : α × List Char)
    (second : Unit → Scan α) : Scan.orElse (settle stopped found) second = settle stopped found := by
  cases stopped <;> rfl

theorem orElse_missing {α : Type} (expected : Expectation) (rest : List Char)
    (second : Unit → Scan α) (stopped : Option Nat) (found : α × List Char)
    (settled : second () = settle stopped found) :
    Scan.orElse (.error (.missing expected rest)) second = settle stopped found := by
  unfold Scan.orElse
  rw [settled]
  cases stopped <;> rfl

end Phrase
end Tabletop
