import Tabletop.Proofs.Phrase.Grammar
import Tabletop.Proofs.Phrase.Overlong
import Tabletop.Proofs.Text.Runs

/-! Scanning dice terms, in both directions. What a scanner finds is admissible, and what is
admissible is found whole when what follows cannot belong to it, unless a run of digits is too long.
The runs that stop a scanner are runs of the text. -/
namespace Tabletop.Phrase
open Text (Ends)

def seams : List Char := [' ', '\t', '\r', '\n', '+', '-', '*', '/', ')']

/-- Nothing, or what may stand behind a term. -/
def Seam (rest : List Char) : Prop := ∀ c ∈ rest.head?, c ∈ seams

theorem Seam.ends (p : Char → Bool) (rest : List Char) (seam : Seam rest)
    (avoids : seams.any p = false) : Ends p rest := by
  intro c member
  exact Text.eq_false_of_any p seams avoids c (seam c member)

theorem scanCount_complete (count rest : List Char) (admissible : Count count)
    (ends : Ends Char.isDigit rest) :
    scanCount (count ++ rest) = settle (Numeral.overlong? count) (count, rest) := by
  have digits := admissible.digits
  unfold scanCount
  rw [Text.takeWhile_run _ _ _ digits ends, Text.dropWhile_run _ _ _ digits ends, Numeral.read_eq]
  cases Numeral.overlong? count with
  | some length => rfl
  | none =>
    rcases admissible with rfl | positive
    · rfl
    · obtain ⟨n, value⟩ := Nat.exists_eq_succ_of_ne_zero positive.2.ne'
      simp only [value]
      rfl

theorem scanSize_complete (size : Size) (rest : List Char) (admissible : size.Admissible)
    (ends : Ends Char.isDigit rest) :
    scanSize (size.text ++ rest) = settle size.overlong? (size, rest) := by
  cases size with
  | percent => rfl
  | digits run =>
    change scanSize (run ++ rest) = settle (Numeral.overlong? run) (Size.digits run, rest)
    unfold scanSize
    rw [Text.takeWhile_run _ _ _ admissible.1 ends, Text.dropWhile_run _ _ _ admissible.1 ends,
      Numeral.read_eq]
    cases Numeral.overlong? run with
    | some length => rfl
    | none =>
      obtain ⟨n, value⟩ := Nat.exists_eq_succ_of_ne_zero admissible.2.ne'
      simp only [value]
      rfl

theorem counted_complete (modifier : List Char → Modifier) (count rest : List Char)
    (admissible : Count count) (ends : Ends Char.isDigit rest) :
    counted modifier (count ++ rest) =
      settle (Numeral.overlong? count) (modifier count, rest) := by
  rw [counted, scanCount_complete count rest admissible ends, map_settle]

def isSelectorEnd (c : Char) : Bool := c == 'h' || c == 'l'

structure Modifier.EndsBefore (modifier : Modifier) (rest : List Char) : Prop where
  digits : Ends Char.isDigit rest
  letters : Ends isSelectorEnd rest
  marks : modifier = .explode false → Ends (· == '!') rest

private theorem short_selector (count rest : List Char) (digits : Digits count)
    (letters : Ends isSelectorEnd rest) :
    ∀ more, count ++ rest ≠ 'h' :: more ∧ count ++ rest ≠ 'l' :: more := by
  have ends : Ends isSelectorEnd (count ++ rest) := by
    cases count with
    | nil => exact letters
    | cons c count =>
      rw [List.cons_append, Text.ends_cons]
      have digit := digits c (by simp)
      unfold isSelectorEnd
      by_contra letter
      simp only [Bool.not_eq_false, Bool.or_eq_true, beq_iff_eq] at letter
      rcases letter with rfl | rfl <;> exact absurd digit (by decide)
  intro more
  constructor
  · intro same
    rw [same] at ends
    exact absurd ((Text.ends_cons _ _ _).mp ends) (by decide)
  · intro same
    rw [same] at ends
    exact absurd ((Text.ends_cons _ _ _).mp ends) (by decide)

theorem scanModifier?_complete (modifier : Modifier) (rest : List Char)
    (admissible : modifier.Admissible) (ends : modifier.EndsBefore rest) :
    scanModifier? (modifier.text ++ rest) =
      some (settle modifier.overlong? (modifier, rest)) := by
  cases modifier with
  | explode twice =>
    cases twice with
    | true => rfl
    | false =>
      have single : ∀ more, rest ≠ '!' :: more := by
        rintro more rfl
        exact absurd ((Text.ends_cons _ _ _).mp (ends.marks rfl)) (by decide)
      simp [Modifier.text, scanModifier?, Modifier.overlong?, settle]
  | select selector count =>
    have single := short_selector count rest admissible.digits ends.letters
    have counts := counted_complete (.select selector) count rest admissible ends.digits
    cases selector <;>
      simp [Modifier.text, Selector.text, scanModifier?, single, counts, Modifier.overlong?]
  | reroll count =>
    have counts := counted_complete .reroll count rest admissible ends.digits
    simp [Modifier.text, scanModifier?, counts, Modifier.overlong?]

theorem Modifier.text_head (modifier : Modifier) :
    ∃ c tail, modifier.text = c :: tail ∧ c ∈ ['!', 'k', 'd', 'r'] ∧
      (c = '!' → ∃ twice, modifier = .explode twice) := by
  cases modifier with
  | explode twice => cases twice <;> exact ⟨_, _, rfl, by decide, fun _ => ⟨_, rfl⟩⟩
  | select selector count =>
    cases selector <;> exact ⟨_, _, rfl, by decide, fun same => absurd same (by decide)⟩
  | reroll count => exact ⟨_, _, rfl, by decide, fun same => absurd same (by decide)⟩

theorem ends_modifiers (p : Char → Bool) (modifiers : List Modifier) (rest : List Char)
    (seam : Seam rest) (avoids : (['!', 'k', 'd', 'r'] ++ seams).any p = false) :
    Ends p (modifiers.flatMap Modifier.text ++ rest) := by
  cases modifiers with
  | nil =>
    apply seam.ends
    rw [List.any_append, Bool.or_eq_false_iff] at avoids
    exact avoids.2
  | cons modifier more =>
    obtain ⟨c, tail, text, mark, _⟩ := modifier.text_head
    rw [List.flatMap_cons, text, List.append_assoc, List.cons_append, Text.ends_cons]
    exact Text.eq_false_of_any p _ avoids c (List.mem_append_left _ mark)

theorem Modifier.endsBefore_next (modifier next : Modifier) (tail : List Char)
    (apart : modifier.MayPrecede next) : modifier.EndsBefore (next.text ++ tail) := by
  obtain ⟨c, more, text, mark, explodes⟩ := next.text_head
  have ends : ∀ p : Char → Bool, ['!', 'k', 'd', 'r'].any p = false → Ends p (next.text ++ tail) := by
    intro p avoids
    rw [text, List.cons_append, Text.ends_cons]
    exact Text.eq_false_of_any p _ avoids c mark
  refine ⟨ends _ (by decide), ends _ (by decide), ?_⟩
  intro single
  rw [text, List.cons_append, Text.ends_cons, beq_eq_false_iff_ne]
  intro mark
  obtain ⟨twice, same⟩ := explodes mark
  exact apart single twice same

private theorem modifier_endsBefore (modifier : Modifier) (more : List Modifier)
    (rest : List Char) (apart : (modifier :: more).IsChain Modifier.MayPrecede)
    (seam : Seam rest) : modifier.EndsBefore (more.flatMap Modifier.text ++ rest) := by
  cases more with
  | nil => exact ⟨seam.ends _ _ (by decide), seam.ends _ _ (by decide), fun _ => seam.ends _ _ (by decide)⟩
  | cons next more =>
    rw [List.flatMap_cons, List.append_assoc]
    exact modifier.endsBefore_next next _ (List.isChain_cons_cons.mp apart).1

def isMark (c : Char) : Bool := c == '!' || c == 'k' || c == 'd' || c == 'r'

theorem scanModifier?_none (text : List Char) (ends : Ends isMark text) : scanModifier? text = none := by
  unfold scanModifier?
  split
  case h_10 => rfl
  all_goals exact absurd ((Text.ends_cons _ _ _).mp ends) (by decide)

theorem scanModifiers_complete (modifiers : List Modifier) (rest : List Char)
    (admissible : ∀ modifier ∈ modifiers, modifier.Admissible)
    (apart : modifiers.IsChain Modifier.MayPrecede) (seam : Seam rest) :
    scanModifiers (modifiers.flatMap Modifier.text ++ rest) =
      settle (modifiersOverlong? modifiers) (modifiers, rest) := by
  induction modifiers with
  | nil =>
    have none := scanModifier?_none rest (seam.ends isMark rest (by decide))
    rw [scanModifiers_eq]
    simp only [List.flatMap_nil, List.nil_append, none]
    rfl
  | cons modifier more ih =>
    have first := scanModifier?_complete modifier (more.flatMap Modifier.text ++ rest)
      (admissible modifier (by simp)) (modifier_endsBefore modifier more rest apart seam)
    have others := ih (fun m member => admissible m (by simp [member])) apart.tail
    rw [scanModifiers_eq, List.flatMap_cons, List.append_assoc, first, modifiersOverlong?, settle_or]
    cases modifier.overlong? with
    | some length => rfl
    | none =>
      change (scanModifiers (more.flatMap Modifier.text ++ rest)).map _ = _
      rw [others, map_settle]
      rfl

theorem Dice.text_append (dice : Dice) (rest : List Char) :
    dice.text ++ rest =
      dice.count ++ 'd' :: (dice.size.text ++ (dice.modifiers.flatMap Modifier.text ++ rest)) := by
  simp [Dice.text]

theorem scanDice_complete (dice : Dice) (rest : List Char) (admissible : dice.Admissible)
    (seam : Seam rest) : scanDice (dice.text ++ rest) = settle dice.overlong? (dice, rest) := by
  have size := scanSize_complete dice.size (dice.modifiers.flatMap Modifier.text ++ rest)
    admissible.size (ends_modifiers _ _ _ seam (by decide))
  have modifiers := scanModifiers_complete dice.modifiers rest admissible.modifiers
    admissible.apart seam
  have letter : ∀ tail, Ends Char.isDigit ('d' :: tail) := by
    intro tail
    rw [Text.ends_cons]
    decide
  rw [Dice.text_append, scanDice, Text.dropWhile_run _ _ _ admissible.count (letter _),
    Text.takeWhile_run _ _ _ admissible.count (letter _), Dice.overlong?, settle_or]
  simp only [size]
  cases dice.size.overlong? with
  | some length => rfl
  | none =>
    simp only [settle_none_bind, modifiers]
    cases modifiersOverlong? dice.modifiers <;> rfl

theorem scanCount_sound (text count rest : List Char)
    (found : scanCount text = .ok (count, rest)) :
    Count count ∧ Numeral.overlong? count = none := by
  unfold scanCount at found
  split at found
  · cases found
  · cases found
    exact ⟨.inl rfl, rfl⟩
  · rename_i n nonzero converted
    cases found
    obtain ⟨value, short⟩ := Numeral.of_read_ok _ _ converted
    exact ⟨.inr ⟨digits_takeWhile text, value ▸ Nat.pos_of_ne_zero nonzero⟩, short⟩

theorem scanSize_sound (text rest : List Char) (size : Size)
    (found : scanSize text = .ok (size, rest)) : size.Admissible ∧ size.overlong? = none := by
  unfold scanSize at found
  split at found
  · cases found
  · split at found
    · cases found
      exact ⟨trivial, rfl⟩
    · cases found
  · rename_i n nonzero converted
    cases found
    obtain ⟨value, short⟩ := Numeral.of_read_ok _ _ converted
    exact ⟨⟨digits_takeWhile text, value ▸ Nat.pos_of_ne_zero nonzero⟩, short⟩

theorem scanModifier?_sound (text rest : List Char) (modifier : Modifier)
    (found : scanModifier? text = some (.ok (modifier, rest))) :
    modifier.Admissible ∧ modifier.overlong? = none ∧
      (modifier = .explode false → ∀ more, rest ≠ '!' :: more) := by
  unfold scanModifier? at found
  split at found <;> simp only [Option.some.injEq, reduceCtorEq] at found
  case h_1 => cases found; exact ⟨trivial, rfl, fun same => absurd same (by decide)⟩
  case h_2 single => cases found; exact ⟨trivial, rfl, fun _ => single⟩
  all_goals
    obtain ⟨⟨count, left⟩, scanned, same⟩ := map_ok _ _ _ found
    cases same
    obtain ⟨admissible, short⟩ := scanCount_sound _ _ _ scanned
    exact ⟨admissible, short, fun same => absurd same (by simp)⟩

private theorem mayPrecede_of_scan (text rest : List Char) (modifier next : Modifier)
    (more : List Modifier) (single : modifier = .explode false → ∀ tail, text ≠ '!' :: tail)
    (found : scanModifiers text = .ok (next :: more, rest)) : modifier.MayPrecede next := by
  rintro mark twice rfl
  have written := scanModifiers_reads _ _ _ found
  cases twice <;> exact single mark _ written

theorem scanModifiers_sound (text rest : List Char) (modifiers : List Modifier)
    (found : scanModifiers text = .ok (modifiers, rest)) :
    (∀ modifier ∈ modifiers, modifier.Admissible) ∧
      modifiers.IsChain Modifier.MayPrecede ∧ modifiersOverlong? modifiers = none := by
  fun_induction scanModifiers text generalizing modifiers rest with
  | case1 text none =>
    cases found
    exact ⟨by simp, .nil, rfl⟩
  | case2 text halt failed => cases found
  | case3 text modifier left first ih =>
    obtain ⟨⟨more, after⟩, scanned, same⟩ := map_ok _ _ _ found
    cases same
    obtain ⟨admissible, short, single⟩ := scanModifier?_sound _ _ _ first
    obtain ⟨others, apart, shorts⟩ := ih _ _ scanned
    refine ⟨List.forall_mem_cons.mpr ⟨admissible, others⟩, ?_, by simp [modifiersOverlong?, short, shorts]⟩
    cases more with
    | nil => exact .singleton _
    | cons next more =>
      exact .cons_cons (mayPrecede_of_scan _ _ _ _ _ single scanned) apart

theorem scanDice_sound (text rest : List Char) (dice : Dice)
    (found : scanDice text = .ok (dice, rest)) : dice.Admissible ∧ dice.overlong? = none := by
  unfold scanDice at found
  split at found
  · obtain ⟨⟨size, afterSize⟩, sized, found⟩ := bind_ok _ _ _ found
    obtain ⟨⟨modifiers, left⟩, modified, found⟩ := bind_ok _ _ _ found
    cases found
    obtain ⟨admissible, short⟩ := scanSize_sound _ _ _ sized
    obtain ⟨others, apart, shorts⟩ := scanModifiers_sound _ _ _ modified
    exact ⟨⟨digits_takeWhile text, admissible, others, apart⟩,
      by simp [Dice.overlong?, short, shorts]⟩
  · cases found

theorem counted_halts (modifier : List Char → Modifier) (text : List Char) (halt : Halt)
    (failed : counted modifier text = .error halt) :
    ∃ digits, halt = .overlong digits ∧ LongRun digits text := by
  unfold counted scanCount at failed
  split at failed
  · rename_i digits long
    cases failed
    exact ⟨digits, rfl, longRun_of_read text digits long⟩
  · cases failed
  · cases failed

theorem scanModifier?_halts (text : List Char) (halt : Halt)
    (failed : scanModifier? text = some (.error halt)) :
    ∃ digits, halt = .overlong digits ∧ LongRun digits text := by
  unfold scanModifier? at failed
  split at failed <;> simp only [Option.some.injEq, reduceCtorEq] at failed
  all_goals
    obtain ⟨digits, same, long⟩ := counted_halts _ _ _ failed
    refine ⟨digits, same, ?_⟩
  case h_3 rest => exact long.behind digits ['k', 'h'] rest
  case h_4 rest => exact long.behind digits ['k', 'l'] rest
  case h_5 rest _ _ => exact long.behind digits ['k'] rest
  case h_6 rest => exact long.behind digits ['d', 'h'] rest
  case h_7 rest => exact long.behind digits ['d', 'l'] rest
  case h_8 rest _ _ => exact long.behind digits ['d'] rest
  case h_9 rest => exact long.behind digits ['r'] rest

theorem scanModifiers_halts (text : List Char) (halt : Halt)
    (failed : scanModifiers text = .error halt) :
    ∃ digits, halt = .overlong digits ∧ LongRun digits text := by
  fun_induction scanModifiers text generalizing halt with
  | case1 text none => cases failed
  | case2 text halt' first =>
    cases failed
    exact scanModifier?_halts text _ first
  | case3 text modifier left first ih =>
    obtain ⟨digits, same, long⟩ := ih _ (map_error _ _ _ failed)
    refine ⟨digits, same, ?_⟩
    rw [scanModifier?_reads _ _ _ first]
    exact long.behind digits modifier.text left

theorem scanSize_overlong (text : List Char) (digits : Nat)
    (failed : scanSize text = .error (.overlong digits)) : LongRun digits text := by
  unfold scanSize at failed
  split at failed
  · rename_i length long
    cases failed
    exact longRun_of_read text digits long
  · split at failed <;> cases failed
  · cases failed

theorem scanDice_overlong (text : List Char) (digits : Nat)
    (failed : scanDice text = .error (.overlong digits)) : LongRun digits text := by
  unfold scanDice at failed
  split at failed
  · rename_i inner mark
    have whole := List.takeWhile_append_dropWhile (p := Char.isDigit) (l := text)
    rw [mark] at whole
    have inside : LongRun digits inner := by
      rcases bind_error _ _ _ failed with sized | ⟨⟨size, rest⟩, sized, failed⟩
      · exact scanSize_overlong inner digits sized
      · rw [scanSize_reads _ _ _ sized]
        rcases bind_error _ _ _ failed with modified | ⟨_, _, failed⟩
        · obtain ⟨_, same, long⟩ := scanModifiers_halts rest _ modified
          cases same
          exact long.behind digits size.text rest
        · cases failed
    rw [← whole]
    exact (inside.behind digits ['d'] inner).behind digits _ _
  · cases failed

end Tabletop.Phrase
