import Tabletop.Numeral
import Tabletop.Phrase
import Tabletop.Phrase.Scanner

/-! Scanning dice terms. The pieces of a dice term stand without layout, and sizes and counts are
converted as they are scanned, so one of too many digits stops everything. -/
namespace Tabletop.Phrase

/-- A count is taken only if its value is positive; otherwise its digits are left over. -/
def scanCount (text : List Char) : Except Halt (List Char × List Char) :=
  match Numeral.read (text.takeWhile Char.isDigit) with
  | .error length => .error (.overlong length)
  | .ok 0 => .ok ([], text)
  | .ok _ => .ok (text.takeWhile Char.isDigit, text.dropWhile Char.isDigit)

theorem scanCount_reads (text count rest : List Char) (found : scanCount text = .ok (count, rest)) :
    text = count ++ rest := by
  unfold scanCount at found
  split at found
  · cases found
  · cases found
    rfl
  · cases found
    exact List.takeWhile_append_dropWhile.symm

def counted (modifier : List Char → Modifier) (text : List Char) : Scan Modifier :=
  (scanCount text).map fun found => (modifier found.1, found.2)

theorem counted_reads (modifier : List Char → Modifier) (text rest : List Char) (result : Modifier)
    (found : counted modifier text = .ok (result, rest)) :
    ∃ count, result = modifier count ∧ text = count ++ rest := by
  obtain ⟨⟨count, left⟩, scanned, same⟩ := map_ok _ _ _ found
  cases same
  exact ⟨count, rfl, scanCount_reads text count left scanned⟩

def scanModifier? : List Char → Option (Scan Modifier)
  | '!' :: '!' :: rest => some (.ok (.explode true, rest))
  | '!' :: rest => some (.ok (.explode false, rest))
  | 'k' :: 'h' :: rest => some (counted (.select .kh) rest)
  | 'k' :: 'l' :: rest => some (counted (.select .kl) rest)
  | 'k' :: rest => some (counted (.select .k) rest)
  | 'd' :: 'h' :: rest => some (counted (.select .dh) rest)
  | 'd' :: 'l' :: rest => some (counted (.select .dl) rest)
  | 'd' :: rest => some (counted (.select .d) rest)
  | 'r' :: rest => some (counted .reroll rest)
  | _ => none

theorem scanModifier?_reads (text rest : List Char) (modifier : Modifier)
    (found : scanModifier? text = some (.ok (modifier, rest))) : text = modifier.text ++ rest := by
  unfold scanModifier? at found
  split at found <;> simp only [Option.some.injEq, reduceCtorEq] at found
  case h_1 => cases found; rfl
  case h_2 => cases found; rfl
  all_goals
    obtain ⟨count, rfl, rfl⟩ := counted_reads _ _ _ _ found
    rfl

theorem Modifier.text_ne_nil (modifier : Modifier) : modifier.text ≠ [] := by
  cases modifier with
  | explode twice => cases twice <;> simp [Modifier.text]
  | select selector count => cases selector <;> simp [Modifier.text, Selector.text]
  | reroll count => simp [Modifier.text]

theorem scanModifier?_shortens (text rest : List Char) (modifier : Modifier)
    (found : scanModifier? text = some (.ok (modifier, rest))) : rest.length < text.length := by
  have positive := List.length_pos_iff.mpr modifier.text_ne_nil
  rw [scanModifier?_reads text rest modifier found, List.length_append]
  omega

def scanModifiers (text : List Char) : Except Halt (List Modifier × List Char) :=
  match _found : scanModifier? text with
  | none => .ok ([], text)
  | some (.error halt) => .error halt
  | some (.ok (modifier, rest)) =>
    (scanModifiers rest).map fun more => (modifier :: more.1, more.2)
termination_by text.length
decreasing_by exact scanModifier?_shortens _ _ _ _found

theorem scanModifiers_eq (text : List Char) :
    scanModifiers text =
      match scanModifier? text with
      | none => .ok ([], text)
      | some (.error halt) => .error halt
      | some (.ok (modifier, rest)) =>
        (scanModifiers rest).map fun more => (modifier :: more.1, more.2) := by
  rw [scanModifiers]
  split <;> rename_i found <;> simp only [found]

theorem scanModifiers_reads (text rest : List Char) (modifiers : List Modifier)
    (found : scanModifiers text = .ok (modifiers, rest)) :
    text = modifiers.flatMap Modifier.text ++ rest := by
  fun_induction scanModifiers text generalizing modifiers rest with
  | case1 text none =>
    cases found
    rfl
  | case2 text halt failed => cases found
  | case3 text modifier left first ih =>
    obtain ⟨⟨more, after⟩, scanned, same⟩ := map_ok _ _ _ found
    cases same
    rw [scanModifier?_reads _ _ _ first, ih _ _ scanned, List.flatMap_cons, List.append_assoc]

def scanSize (text : List Char) : Scan Size :=
  match Numeral.read (text.takeWhile Char.isDigit) with
  | .error length => .error (.overlong length)
  | .ok 0 =>
    match text with
    | '%' :: rest => .ok (.percent, rest)
    | _ => .error (.missing .dieSize text)
  | .ok _ => .ok (.digits (text.takeWhile Char.isDigit), text.dropWhile Char.isDigit)

theorem scanSize_reads (text rest : List Char) (size : Size)
    (found : scanSize text = .ok (size, rest)) : text = size.text ++ rest := by
  unfold scanSize at found
  split at found
  · cases found
  · split at found
    · cases found
      rfl
    · cases found
  · cases found
    exact List.takeWhile_append_dropWhile.symm

def scanDice (text : List Char) : Except Halt (Dice × List Char) :=
  match text.dropWhile Char.isDigit with
  | 'd' :: rest => do
    let (size, rest) ← scanSize rest
    let (modifiers, rest) ← scanModifiers rest
    return (⟨text.takeWhile Char.isDigit, size, modifiers⟩, rest)
  | rest => .error (.missing .term rest)

theorem scanDice_reads (text rest : List Char) (dice : Dice)
    (found : scanDice text = .ok (dice, rest)) : text = dice.text ++ rest := by
  unfold scanDice at found
  split at found
  · rename_i inner mark
    obtain ⟨⟨size, afterSize⟩, sized, found⟩ := bind_ok _ _ _ found
    obtain ⟨⟨modifiers, left⟩, modified, found⟩ := bind_ok _ _ _ found
    cases found
    have whole := List.takeWhile_append_dropWhile (p := Char.isDigit) (l := text)
    rw [mark, scanSize_reads _ _ _ sized, scanModifiers_reads _ _ _ modified] at whole
    exact whole.symm.trans (by simp [Dice.text])
  · cases found

end Tabletop.Phrase
