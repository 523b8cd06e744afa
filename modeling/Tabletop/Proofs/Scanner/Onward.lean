import Mathlib.Data.List.Infix
import Tabletop.Proofs.Phrase.Cut
import Tabletop.Proofs.Scanner.Legible

/-! Scanning a longer text. What is found with more text behind it is never shorter: a run of digits, a mark
or a chain goes on into what follows, a number may turn out to be the count of a dice term, and a scanner
does not give up what it would have found without the rest. -/
namespace Tabletop.Phrase
open Text (isLayout Ends)

/-- A scan that leaves no more than an end of the given text, unless it is stopped by a run of digits. -/
inductive TakesTo {α : Type} (rest : List Char) : Except Halt (α × List Char) → Prop
  | found (value : α) (left : List Char) (within : left <:+ rest) : TakesTo rest (.ok (value, left))
  | overlong (digits : Nat) : TakesTo rest (.error (.overlong digits))

theorem TakesTo.mono {α : Type} (rest rest' : List Char) (scanned : Except Halt (α × List Char))
    (takes : TakesTo rest scanned) (within : rest <:+ rest') : TakesTo rest' scanned := by
  cases takes with
  | found value left inside => exact .found value left (inside.trans within)
  | overlong digits => exact .overlong digits

theorem TakesTo.map {α β : Type} (rest : List Char) (change : α → β)
    (scanned : Except Halt (α × List Char)) (takes : TakesTo rest scanned) :
    TakesTo rest (scanned.map fun found => (change found.1, found.2)) := by
  cases takes with
  | found value left within => exact .found _ left within
  | overlong digits => exact .overlong digits

theorem TakesTo.bind {α β : Type} (rest : List Char) (scanned : Except Halt (α × List Char))
    (next : α × List Char → Except Halt (β × List Char)) (takes : TakesTo rest scanned)
    (follows : ∀ value left, TakesTo left (next (value, left))) : TakesTo rest (scanned >>= next) := by
  cases takes with
  | found value left within => exact (follows value left).mono _ _ _ within
  | overlong digits => exact .overlong digits

theorem takesTo_settle {α : Type} (stopped : Option Nat) (value : α) (rest : List Char) :
    TakesTo rest (settle stopped (value, rest)) := by
  cases stopped with
  | none => exact .found value rest (List.suffix_refl rest)
  | some digits => exact .overlong digits

theorem TakesTo.orElse {α : Type} (rest : List Char) (first : Scan α) (second : Unit → Scan α)
    (takes : TakesTo rest first) : TakesTo rest (Scan.orElse first second) := by
  cases takes with
  | found value left within => exact .found value left within
  | overlong digits => exact .overlong digits

theorem TakesTo.orElse_missing {α : Type} (rest : List Char) (expected : Expectation) (left : List Char)
    (second : Unit → Scan α) (takes : TakesTo rest (second ())) :
    TakesTo rest (Scan.orElse (.error (.missing expected left)) second) := by
  unfold Scan.orElse
  generalize second () = scanned at takes
  cases takes with
  | found value left within => exact .found value left within
  | overlong digits => exact .overlong digits

theorem scanCount_onward (count rest : List Char) (admissible : Count count) :
    TakesTo rest (scanCount (count ++ rest)) := by
  have digits := admissible.digits
  unfold scanCount
  rw [List.takeWhile_append_of_pos digits, List.dropWhile_append_of_pos digits]
  split
  · exact .overlong _
  · rename_i zero
    obtain ⟨value, _⟩ := Numeral.of_read_ok _ _ zero
    rcases admissible with rfl | positive
    · exact .found _ _ (List.suffix_refl _)
    · -- More digits behind a count keep it positive.
      have longer := positive.append count (rest.takeWhile Char.isDigit)
        (List.forall_mem_append.mpr ⟨digits, digits_takeWhile rest⟩)
      exact absurd longer.2 (by omega)
  · exact .found _ _ (List.dropWhile_suffix _)

theorem counted_onward (modifier : List Char → Modifier) (count rest : List Char) (admissible : Count count) :
    TakesTo rest (counted modifier (count ++ rest)) :=
  (scanCount_onward count rest admissible).map rest modifier _

theorem Count.letter (count rest more : List Char) (c : Char) (admissible : Count count)
    (other : c.isDigit = false) (same : count ++ rest = c :: more) : rest = c :: more := by
  cases count with
  | nil => exact same
  | cons first count =>
    have digit := Count.digits _ admissible first List.mem_cons_self
    rw [(List.cons.inj same).1, other] at digit
    cases digit

theorem scanModifier?_short (mark : Char) (short high low : Selector) (count rest : List Char)
    (admissible : Count count)
    (highest : ∀ more, scanModifier? (mark :: 'h' :: more) = some (counted (.select high) more))
    (lowest : ∀ more, scanModifier? (mark :: 'l' :: more) = some (counted (.select low) more))
    (alone : ∀ text, (∀ more, text ≠ 'h' :: more) → (∀ more, text ≠ 'l' :: more) →
      scanModifier? (mark :: text) = some (counted (.select short) text)) :
    ∃ scanned, scanModifier? (mark :: (count ++ rest)) = some scanned ∧ TakesTo rest scanned := by
  have longer : ∀ (letter : Char) (selector : Selector) (more : List Char), letter.isDigit = false →
      count ++ rest = letter :: more → TakesTo rest (counted (.select selector) more) := by
    intro letter selector more other same
    rw [admissible.letter count rest more letter other same]
    exact (counted_onward _ [] more (.inl rfl)).mono _ _ _ (List.suffix_cons _ _)
  by_cases first : ∃ more, count ++ rest = 'h' :: more
  · obtain ⟨more, same⟩ := first
    exact ⟨_, same ▸ highest more, longer 'h' high more (by decide) same⟩
  by_cases second : ∃ more, count ++ rest = 'l' :: more
  · obtain ⟨more, same⟩ := second
    exact ⟨_, same ▸ lowest more, longer 'l' low more (by decide) same⟩
  refine ⟨_, alone _ ?_ ?_, counted_onward _ count rest admissible⟩
  · exact fun more same => first ⟨more, same⟩
  · exact fun more same => second ⟨more, same⟩

theorem scanModifier?_onward (modifier : Modifier) (rest : List Char) (admissible : modifier.Admissible) :
    ∃ scanned, scanModifier? (modifier.text ++ rest) = some scanned ∧ TakesTo rest scanned := by
  cases modifier with
  | explode twice =>
    cases twice with
    | true => exact ⟨_, rfl, .found _ _ (List.suffix_refl rest)⟩
    | false =>
      -- A second mark behind a single one makes it a double one.
      by_cases mark : ∃ more, rest = '!' :: more
      · obtain ⟨more, rfl⟩ := mark
        exact ⟨_, rfl, .found _ _ (List.suffix_cons _ _)⟩
      · have single : ∀ more, rest ≠ '!' :: more := fun more same => mark ⟨more, same⟩
        exact ⟨.ok (.explode false, rest), by simp [Modifier.text, scanModifier?],
          .found _ _ (List.suffix_refl rest)⟩
  | select selector count =>
    have counts := fun selector => counted_onward (.select selector) count rest admissible
    cases selector with
    | kh => exact ⟨_, rfl, counts .kh⟩
    | kl => exact ⟨_, rfl, counts .kl⟩
    | dh => exact ⟨_, rfl, counts .dh⟩
    | dl => exact ⟨_, rfl, counts .dl⟩
    | k =>
      apply scanModifier?_short 'k' .k .kh .kl count rest admissible (fun _ => rfl) (fun _ => rfl)
      intro text high low
      simp [scanModifier?]
    | d =>
      apply scanModifier?_short 'd' .d .dh .dl count rest admissible (fun _ => rfl) (fun _ => rfl)
      intro text high low
      simp [scanModifier?]
  | reroll count => exact ⟨_, rfl, counted_onward .reroll count rest admissible⟩

theorem scanModifiers_takes (text : List Char) : TakesTo text (scanModifiers text) := by
  cases scanned : scanModifiers text with
  | ok found =>
    obtain ⟨modifiers, left⟩ := found
    have whole := scanModifiers_reads _ _ _ scanned
    exact .found modifiers left (whole ▸ List.suffix_append _ _)
  | error halt =>
    obtain ⟨digits, rfl, _⟩ := scanModifiers_halts _ _ scanned
    exact .overlong digits

theorem scanModifiers_onward (modifiers : List Modifier) (rest : List Char)
    (admissible : ∀ modifier ∈ modifiers, modifier.Admissible)
    (apart : modifiers.IsChain Modifier.MayPrecede) :
    TakesTo rest (scanModifiers (modifiers.flatMap Modifier.text ++ rest)) := by
  induction modifiers with
  | nil => exact scanModifiers_takes rest
  | cons modifier more ih =>
    obtain ⟨first, others⟩ := List.forall_mem_cons.mp admissible
    rw [scanModifiers_eq, List.flatMap_cons, List.append_assoc]
    cases more with
    | nil =>
      obtain ⟨scanned, same, takes⟩ := scanModifier?_onward modifier rest first
      rw [List.flatMap_nil, List.nil_append, same]
      cases takes with
      | found value left within =>
        exact ((scanModifiers_takes left).map _ _ _).mono _ _ _ within
      | overlong digits => exact .overlong digits
    | cons next more =>
      have ends := modifier.endsBefore_next next (more.flatMap Modifier.text ++ rest)
        (List.isChain_cons_cons.mp apart).1
      rw [← List.append_assoc, ← List.flatMap_cons] at ends
      rw [scanModifier?_complete modifier _ first ends]
      cases modifier.overlong? with
      | some digits => exact .overlong digits
      | none => exact (ih others apart.tail).map _ _ _

theorem scanSize_onward (size : Size) (rest : List Char) (admissible : size.Admissible) :
    TakesTo rest (scanSize (size.text ++ rest)) := by
  cases size with
  | percent => exact .found Size.percent rest (List.suffix_refl rest)
  | digits run =>
    change TakesTo rest (scanSize (run ++ rest))
    unfold scanSize
    rw [List.takeWhile_append_of_pos admissible.1, List.dropWhile_append_of_pos admissible.1]
    split
    · exact .overlong _
    · rename_i zero
      obtain ⟨value, _⟩ := Numeral.of_read_ok _ _ zero
      have longer := PositiveRun.append run (rest.takeWhile Char.isDigit) admissible
        (List.forall_mem_append.mpr ⟨admissible.1, digits_takeWhile rest⟩)
      exact absurd longer.2 (by omega)
    · exact .found _ _ (List.dropWhile_suffix _)

theorem scanDice_onward (dice : Dice) (rest : List Char) (admissible : dice.Admissible) :
    TakesTo rest (scanDice (dice.text ++ rest)) := by
  have letter : ∀ tail, Ends Char.isDigit ('d' :: tail) := fun tail => (Text.ends_cons _ _ _).mpr (by decide)
  rw [Dice.text_append, scanDice, Text.dropWhile_run _ _ _ admissible.count (letter _),
    Text.takeWhile_run _ _ _ admissible.count (letter _)]
  have sized := scanSize_onward dice.size (dice.modifiers.flatMap Modifier.text ++ rest) admissible.size
  have modified := scanModifiers_onward dice.modifiers rest admissible.modifiers admissible.apart
  cases same : dice.modifiers with
  | nil =>
    rw [same] at sized
    apply sized.bind
    intro size left
    apply (scanModifiers_takes left).bind
    intro modifiers left
    exact .found _ left (List.suffix_refl left)
  | cons modifier more =>
    -- A size with a modifier behind it does not go on.
    obtain ⟨c, tail, text, mark, _⟩ := modifier.text_head
    have ends : Ends Char.isDigit ((modifier :: more).flatMap Modifier.text ++ rest) := by
      rw [List.flatMap_cons, text, List.append_assoc, List.cons_append, Text.ends_cons]
      exact Text.eq_false_of_any _ _ (by decide) c mark
    rw [same] at modified
    simp only [scanSize_complete dice.size _ admissible.size ends]
    cases dice.size.overlong? with
    | some digits => exact .overlong digits
    | none =>
      apply modified.bind
      intro modifiers left
      exact .found _ left (List.suffix_refl left)

theorem scanDice_count (text left : List Char) (dice : Dice) (found : scanDice text = .ok (dice, left)) :
    dice.count = text.takeWhile Char.isDigit := by
  unfold scanDice at found
  split at found
  · obtain ⟨_, _, found⟩ := bind_ok _ _ _ found
    obtain ⟨_, _, found⟩ := bind_ok _ _ _ found
    cases found
    rfl
  · cases found

theorem scanDice_digits (digits rest : List Char) (inside : Digits digits) :
    TakesTo rest (scanDice (digits ++ rest)) ∨
      ∃ expected left, scanDice (digits ++ rest) = .error (.missing expected left) := by
  cases scanned : scanDice (digits ++ rest) with
  | ok found =>
    obtain ⟨dice, left⟩ := found
    have whole := scanDice_reads _ _ _ scanned
    have counted := scanDice_count _ _ _ scanned
    rw [List.takeWhile_append_of_pos inside] at counted
    have length := congrArg List.length whole
    have shorter : left.length ≤ rest.length := by
      simp only [Dice.text, counted, List.length_append, List.length_cons] at length
      omega
    have within : left <:+ digits ++ rest := whole ▸ List.suffix_append _ _
    exact .inl (.found dice left (List.suffix_of_suffix_length_le within (List.suffix_append _ _) shorter))
  | error halt =>
    cases halt with
    | missing expected left => exact .inr ⟨expected, left, rfl⟩
    | overlong digits => exact .inl (.overlong digits)

theorem scanDigits_onward (negative : Bool) (digits rest : List Char) (some : digits ≠ [])
    (inside : Digits digits) : TakesTo rest (scanDigits negative (digits ++ rest)) := by
  unfold scanDigits
  rw [List.takeWhile_append_of_pos inside, List.dropWhile_append_of_pos inside]
  obtain ⟨c, tail, rfl⟩ := List.exists_cons_of_ne_nil some
  exact .found _ _ (List.dropWhile_suffix _)

theorem scanTerm_number_onward (argument : Scanner Chain.text) (negative : Bool) (digits rest : List Char)
    (some : digits ≠ []) (inside : Digits digits) :
    TakesTo rest (scanTerm argument ((Term.number negative digits).text ++ rest)) := by
  have number := scanDigits_onward negative digits rest some inside
  cases negative with
  | true =>
    apply TakesTo.orElse_missing
    apply TakesTo.orElse_missing
    exact number
  | false =>
    obtain ⟨c, tail, rfl⟩ := List.exists_cons_of_ne_nil some
    have digit := inside c List.mem_cons_self
    have unsigned : c ≠ '-' := by
      rintro rfl
      exact absurd digit (by decide)
    change TakesTo rest (scanTerm argument (c :: tail ++ rest))
    rcases scanDice_digits (c :: tail) rest inside with takes | ⟨expected, left, missing⟩
    · exact (takes.map rest Term.dice _).orElse _ _ _
    · rw [scanTerm, missing]
      apply TakesTo.orElse_missing
      rw [List.cons_append, scanCall_missing argument c _ (isNameStart_of_isDigit c digit)]
      apply TakesTo.orElse_missing
      simpa [scanNumber, unsigned] using number

theorem scanTerm_onward (innermost : Scanner Chain.text) (term : Term) (room : Nat) (rest : List Char)
    (admissible : term.Admissible) (shallow : term.depth ≤ room) :
    TakesTo rest (scanTerm (.nested innermost room) (term.text ++ rest)) := by
  cases term with
  | dice dice => exact ((scanDice_onward dice rest admissible).map rest Term.dice _).orElse _ _ _
  | number negative digits => exact scanTerm_number_onward _ negative digits rest admissible.1 admissible.2
  | call name beforeOpening afterOpening argument beforeClosing =>
    cases room with
    | zero => exact absurd shallow (Nat.not_succ_le_zero _)
    | succ room =>
      -- The closing parenthesis ends the argument and the call.
      have closed := closed_layout beforeClosing _ admissible.2.2.2.2 (.inr ⟨rest, rfl⟩)
      have found := scanChain_complete innermost argument room _ admissible.2.2.2.1
        (Nat.le_of_succ_le_succ shallow) closed
      rw [scanTerm_call (.nested innermost (room + 1)) _ _ _ _ _ rest admissible found]
      exact takesTo_settle _ _ rest

theorem scanChain_takes (term : Scanner Term.text) (text rest : List Char)
    (first : TakesTo rest (term.run text)) : TakesTo rest (scanChain term text) := by
  rw [scanChain_eq]
  generalize term.run text = scanned at first
  cases first with
  | overlong digits => exact .overlong digits
  | found value left within =>
    cases next : scanJoint? left with
    | none =>
      simp only [next]
      exact .found _ left within
    | some joined =>
      obtain ⟨joint, after⟩ := joined
      cases others : scanChain term after with
      | ok found =>
        obtain ⟨chain, left'⟩ := found
        have onward : left' <:+ left := by
          rw [scanJoint?_reads _ _ _ next, (scanChain_reads _ _ _ _ others).2]
          exact (List.suffix_append _ _).trans (List.suffix_append _ _)
        simp only [next, others]
        exact .found _ left' (onward.trans within)
      | error halt =>
        cases halt with
        | missing expected more =>
          simp only [next, others]
          exact .found _ left within
        | overlong digits =>
          simp only [next, others]
          exact .overlong digits

/-- With more text behind it an admissible chain is found whole, or a longer one is. -/
theorem scanChain_onward (innermost : Scanner Chain.text) (chain : Chain) (room : Nat) (rest : List Char)
    (admissible : chain.Admissible) (shallow : chain.depth ≤ room) :
    TakesTo rest (scanChain (.terms (.nested innermost room)) (chain.text ++ rest)) := by
  cases chain with
  | last term =>
    exact scanChain_takes _ _ rest (scanTerm_onward innermost term room rest admissible shallow)
  | link term joint more =>
    obtain ⟨admissible, joins, others⟩ := admissible
    have first : (Scanner.terms (.nested innermost room)).run
          (term.text ++ (joint.text ++ (more.text ++ rest))) =
        settle term.overlong? (term, joint.text ++ (more.text ++ rest)) :=
      scanTerm_complete innermost term room _ admissible (le_trans (Nat.le_max_left _ _) shallow)
        (seam_joint joint _ joins)
    have next := scanJoint?_complete joint (more.text ++ rest) joins (more.ends_layout others rest)
    have following := scanChain_onward innermost more room rest others (le_trans (Nat.le_max_right _ _) shallow)
    rw [Chain.text, List.append_assoc, List.append_assoc, scanChain_eq, first]
    cases term.overlong? with
    | some digits => exact .overlong digits
    | none =>
      simp only [settle, next]
      generalize scanChain _ (more.text ++ rest) = scanned at following
      cases following with
      | found value left within => exact .found _ left within
      | overlong digits => exact .overlong digits

end Tabletop.Phrase
