import Tabletop.Proofs.Scanner.Dice

/-! Scanning terms and chains, in both directions. The scanner chooses between dice terms, calls and
numbers in that order and never reconsiders; an admissible chain is found whole all the same, because
the beginning of a term decides which alternative it is and what stands behind it ends it. Chains
within calls are scanned as long as there is room for the calls around them. -/
namespace Tabletop.Phrase
open Text (isLayout Ends)

theorem isNamePart_of_isDigit (c : Char) (digit : c.isDigit = true) : isNamePart c = true := by
  simp [isNamePart, Char.isAlphanum, digit]

theorem isDigit_of_isNameStart (c : Char) (start : isNameStart c = true) : c.isDigit = false := by
  by_contra digit
  rw [Bool.not_eq_false] at digit
  have bounds : 0x30 ≤ c.toNat ∧ c.toNat ≤ 0x39 := Char.isDigit_iff_toNat.mp digit
  rw [isNameStart, Bool.or_eq_true, beq_iff_eq] at start
  rcases start with letter | rfl
  · have others := Text.bounds_of_isAlpha c letter
    omega
  · cases digit

theorem isNameStart_of_isDigit (c : Char) (digit : c.isDigit = true) : isNameStart c = false := by
  by_contra start
  rw [Bool.not_eq_false] at start
  rw [isDigit_of_isNameStart c start] at digit
  cases digit

def isTermStart (c : Char) : Bool := c.isDigit || isNameStart c || c == '-'

theorem isBlank_of_isTermStart (c : Char) (start : isTermStart c = true) : Text.isBlank c = false := by
  simp only [isTermStart, isNameStart, Bool.or_eq_true, beq_iff_eq] at start
  rcases start with (digit | letter | rfl) | rfl
  · have bounds : 0x30 ≤ c.toNat ∧ c.toNat ≤ 0x39 := Char.isDigit_iff_toNat.mp digit
    exact Text.isBlank_of_graphic c (by omega) (by omega)
  · have bounds := Text.bounds_of_isAlpha c letter
    exact Text.isBlank_of_graphic c (by omega) (by omega)
  · decide
  · decide

theorem isLayout_cases (p : Char → Bool) (avoids : [' ', '\t', '\r', '\n'].any p = false)
    (c : Char) (layout : isLayout c = true) : p c = false := by
  simp only [isLayout, Bool.or_eq_true, beq_iff_eq] at layout
  rcases layout with ((rfl | rfl) | rfl) | rfl <;>
    exact Text.eq_false_of_any p _ avoids _ (by decide)

theorem ends_layout (p : Char → Bool) (layout rest : List Char) (layouts : Layout layout)
    (avoids : [' ', '\t', '\r', '\n'].any p = false) (ends : Ends p rest) :
    Ends p (layout ++ rest) := by
  cases layout with
  | nil => exact ends
  | cons c layout =>
    rw [List.cons_append, Text.ends_cons]
    exact isLayout_cases p avoids c (layouts c (by simp))

theorem Term.text_head (term : Term) (admissible : term.Admissible) :
    ∃ c tail, term.text = c :: tail ∧ isTermStart c = true := by
  cases term with
  | dice dice =>
    obtain ⟨count, size, modifiers⟩ := dice
    cases count with
    | nil => exact ⟨'d', _, rfl, by decide⟩
    | cons c count =>
      have digit := Dice.Admissible.count admissible c (by simp)
      exact ⟨c, _, rfl, by simp [isTermStart, digit]⟩
  | number negative digits =>
    cases negative with
    | true => exact ⟨'-', digits, rfl, by decide⟩
    | false =>
      obtain ⟨c, tail, rfl⟩ := List.exists_cons_of_ne_nil admissible.1
      exact ⟨c, tail, rfl, by simp [isTermStart, admissible.2 c (by simp)]⟩
  | call name beforeOpening afterOpening argument beforeClosing =>
    obtain ⟨c, tail, rfl, start, _⟩ := admissible.1.identifier
    exact ⟨c, _, rfl, by simp [isTermStart, start]⟩

theorem Chain.text_head (chain : Chain) (admissible : chain.Admissible) :
    ∃ c tail, chain.text = c :: tail ∧ isTermStart c = true := by
  cases chain with
  | last term => exact term.text_head admissible
  | link term joint rest =>
    obtain ⟨c, tail, text, start⟩ := term.text_head admissible.1
    exact ⟨c, tail ++ (joint.text ++ rest.text), by simp [Chain.text, text], start⟩

theorem Chain.ends_layout (chain : Chain) (admissible : chain.Admissible) (rest : List Char) :
    Ends isLayout (chain.text ++ rest) := by
  obtain ⟨c, tail, text, start⟩ := chain.text_head admissible
  rw [text, List.cons_append, Text.ends_cons]
  by_contra layout
  rw [Bool.not_eq_false] at layout
  rw [isLayout_cases isTermStart (by decide) c layout] at start
  cases start

theorem scanDice_missing (text : List Char) (free : ∀ tail, text.dropWhile Char.isDigit ≠ 'd' :: tail) :
    scanDice text = .error (.missing .term (text.dropWhile Char.isDigit)) := by
  unfold scanDice
  split
  · rename_i tail mark
    exact absurd mark (free tail)
  · rfl

theorem scanCall_missing (argument : Scanner Chain.text) (c : Char) (rest : List Char)
    (free : isNameStart c = false) :
    scanCall argument (c :: rest) = .error (.missing .term (c :: rest)) := by
  simp [scanCall, free]

theorem scanDigits_complete (negative : Bool) (digits rest : List Char) (some : digits ≠ [])
    (inside : Digits digits) (ends : Ends Char.isDigit rest) :
    scanDigits negative (digits ++ rest) = .ok (.number negative digits, rest) := by
  unfold scanDigits
  rw [Text.takeWhile_run _ _ _ inside ends, Text.dropWhile_run _ _ _ inside ends]
  obtain ⟨c, tail, rfl⟩ := List.exists_cons_of_ne_nil some
  rfl

theorem scanNumber_complete (negative : Bool) (digits rest : List Char) (some : digits ≠ [])
    (inside : Digits digits) (ends : Ends Char.isDigit rest) :
    scanNumber ((Term.number negative digits).text ++ rest) =
      .ok (.number negative digits, rest) := by
  have scanned := scanDigits_complete negative digits rest some inside ends
  cases negative with
  | true => exact scanned
  | false =>
    obtain ⟨c, tail, rfl⟩ := List.exists_cons_of_ne_nil some
    have unsigned : c ≠ '-' := by
      rintro rfl
      exact absurd (inside '-' (by simp)) (by decide)
    simpa [scanNumber, Term.text, unsigned] using scanned

theorem scanTerm_number (argument : Scanner Chain.text) (negative : Bool) (digits rest : List Char)
    (some : digits ≠ []) (inside : Digits digits) (seam : Seam rest) :
    scanTerm argument ((Term.number negative digits).text ++ rest) =
      settle none (.number negative digits, rest) := by
  have ends : Ends Char.isDigit rest := seam.ends _ _ (by decide)
  have noDice : ∀ tail, ((Term.number negative digits).text ++ rest).dropWhile Char.isDigit ≠
      'd' :: tail := by
    intro tail same
    cases negative with
    | true => exact absurd same (by simp [Term.text, Char.isDigit])
    | false =>
      rw [Term.text, Text.dropWhile_run _ _ _ inside ends] at same
      have free := seam.ends (· == 'd') rest (by decide)
      rw [same, Text.ends_cons] at free
      cases free
  have noCall : ∃ c tail, (Term.number negative digits).text ++ rest = c :: tail ∧
      isNameStart c = false := by
    cases negative with
    | true => exact ⟨'-', _, rfl, by decide⟩
    | false =>
      obtain ⟨c, tail, rfl⟩ := List.exists_cons_of_ne_nil some
      exact ⟨c, tail ++ rest, rfl, isNameStart_of_isDigit c (inside c (by simp))⟩
  obtain ⟨c, tail, text, noName⟩ := noCall
  have number := scanNumber_complete negative digits rest some inside ends
  rw [text] at noDice number ⊢
  rw [scanTerm, scanDice_missing _ noDice]
  apply orElse_missing
  rw [scanCall_missing argument c tail noName]
  apply orElse_missing
  exact number

/-- A name is no dice term. It is found to be none unless its digits are too long for a size. -/
theorem scanDice_name (name rest : List Char) (isName : IsName name)
    (digits : Ends Char.isDigit rest) (percent : Ends (· == '%') rest) :
    ∃ expected left, (scanDice (name ++ rest)) =
      settle (nameOverlong? name) () >>= fun _ => .error (.missing expected left) := by
  obtain ⟨c, tail, rfl, start, parts⟩ := isName.identifier
  -- Only a name with a leading d comes as far as a size.
  by_cases letter : c = 'd'
  · subst letter
    have noPercent : ∀ more, tail ++ rest ≠ '%' :: more := by
      intro more same
      cases tail with
      | nil =>
        rw [List.nil_append] at same
        rw [same, Text.ends_cons] at percent
        cases percent
      | cons c tail =>
        have part := parts c (by simp)
        rw [(List.cons.inj same).1] at part
        exact absurd part (by decide)
    have zero : Numeral.value (tail.takeWhile Char.isDigit) = 0 := by
      have free := isName.notDice tail rfl
      by_contra nonzero
      exact free ⟨digits_takeWhile tail, Nat.pos_of_ne_zero nonzero⟩
    refine ⟨.dieSize, tail ++ rest, ?_⟩
    have size : scanSize (tail ++ rest) =
        settle (nameOverlong? ('d' :: tail)) () >>= fun _ => .error (.missing .dieSize (tail ++ rest)) := by
      unfold scanSize
      rw [Text.takeWhile_before _ _ _ digits, Numeral.read_eq, nameOverlong?]
      cases Numeral.overlong? (tail.takeWhile Char.isDigit) with
      | some length => rfl
      | none =>
        simp only [zero, settle_none_bind]
    have whole : ('d' :: tail ++ rest).dropWhile Char.isDigit = 'd' :: (tail ++ rest) := rfl
    simp only [scanDice, whole, size]
    cases nameOverlong? ('d' :: tail) <;> rfl
  · have noDigit := isDigit_of_isNameStart c start
    refine ⟨.term, c :: (tail ++ rest), ?_⟩
    have whole : (c :: tail ++ rest).dropWhile Char.isDigit = c :: (tail ++ rest) := by
      simp [noDigit]
    rw [scanDice_missing, whole]
    · have short : nameOverlong? (c :: tail) = none := by
        unfold nameOverlong?
        split
        · rename_i same
          exact absurd (List.cons.inj same).1 letter
        · rfl
      rw [short]
      rfl
    · intro more same
      rw [whole] at same
      exact letter (List.cons.inj same).1

theorem Term.call_append (name beforeOpening afterOpening : List Char) (argument : Chain)
    (beforeClosing rest : List Char) :
    (Term.call name beforeOpening afterOpening argument beforeClosing).text ++ rest =
      name ++ (beforeOpening ++ '(' ::
        (afterOpening ++ (argument.text ++ (beforeClosing ++ ')' :: rest)))) := by
  simp [Term.text]

theorem scanClosing_complete (call : List Char → Term) (layout rest : List Char)
    (layouts : Layout layout) : scanClosing call (layout ++ ')' :: rest) = .ok (call layout, rest) := by
  have closes : Ends isLayout (')' :: rest) := (Text.ends_cons _ _ _).mpr (by decide)
  rw [scanClosing, Text.takeWhile_run _ _ _ layouts closes, Text.dropWhile_run _ _ _ layouts closes]
  rfl

theorem ends_opening (p : Char → Bool) (layout rest : List Char) (layouts : Layout layout)
    (avoids : [' ', '\t', '\r', '\n'].any p = false) (other : p '(' = false) :
    Ends p (layout ++ '(' :: rest) :=
  ends_layout p layout _ layouts avoids ((Text.ends_cons _ _ _).mpr other)

theorem scanCall_opened (scanner : Scanner Chain.text)
    (name beforeOpening afterOpening text : List Char) (isName : IsName name)
    (before : Layout beforeOpening) (after : Layout afterOpening) (ends : Ends isLayout text) :
    scanCall scanner (name ++ (beforeOpening ++ '(' :: (afterOpening ++ text))) =
      (scanner.run text).bind fun found =>
        scanClosing (.call name beforeOpening afterOpening found.1) found.2 := by
  obtain ⟨c, tail, rfl, start, parts⟩ := isName.identifier
  have named := ends_opening isNamePart beforeOpening (afterOpening ++ text) before (by decide) (by decide)
  have opens : Ends isLayout ('(' :: (afterOpening ++ text)) := (Text.ends_cons _ _ _).mpr (by decide)
  rw [List.cons_append, scanCall, if_pos start, Text.takeWhile_run _ _ _ parts named,
    Text.dropWhile_run _ _ _ parts named, scanArgument, Text.takeWhile_run _ _ _ before opens,
    Text.dropWhile_run _ _ _ before opens]
  simp only [Text.takeWhile_run _ _ _ after ends, Text.dropWhile_run _ _ _ after ends]
  rfl

theorem scanCall_complete (scanner : Scanner Chain.text)
    (name beforeOpening afterOpening : List Char) (argument : Chain)
    (beforeClosing rest : List Char)
    (admissible : (Term.call name beforeOpening afterOpening argument beforeClosing).Admissible)
    (found : scanner.run (argument.text ++ (beforeClosing ++ ')' :: rest)) =
      settle argument.overlong? (argument, beforeClosing ++ ')' :: rest)) :
    scanCall scanner
        ((Term.call name beforeOpening afterOpening argument beforeClosing).text ++ rest) =
      settle argument.overlong?
        (.call name beforeOpening afterOpening argument beforeClosing, rest) := by
  obtain ⟨isName, before, after, inner, closing⟩ := admissible
  rw [Term.call_append, scanCall_opened _ _ _ _ _ isName before after (argument.ends_layout inner _), found]
  cases argument.overlong? with
  | some length => rfl
  | none => exact scanClosing_complete _ _ _ closing

theorem scanTerm_call (scanner : Scanner Chain.text) (name beforeOpening afterOpening : List Char)
    (argument : Chain) (beforeClosing rest : List Char)
    (admissible : (Term.call name beforeOpening afterOpening argument beforeClosing).Admissible)
    (found : scanner.run (argument.text ++ (beforeClosing ++ ')' :: rest)) =
      settle argument.overlong? (argument, beforeClosing ++ ')' :: rest)) :
    scanTerm scanner
        ((Term.call name beforeOpening afterOpening argument beforeClosing).text ++ rest) =
      settle (Term.call name beforeOpening afterOpening argument beforeClosing).overlong?
        (.call name beforeOpening afterOpening argument beforeClosing, rest) := by
  have call := scanCall_complete scanner name beforeOpening afterOpening argument beforeClosing rest
    admissible found
  obtain ⟨isName, before, _⟩ := admissible
  obtain ⟨expected, left, dice⟩ := scanDice_name name _ isName
    (ends_opening _ _ _ before (by decide) (by decide)) (ends_opening _ _ _ before (by decide) (by decide))
  rw [scanTerm, Term.overlong?, settle_or]
  rw [Term.call_append] at call ⊢
  rw [dice]
  cases nameOverlong? name with
  | some length => rfl
  | none =>
    apply orElse_missing
    rw [call]
    exact orElse_settle _ _ _

/-- What ends a chain: nothing that could belong to its last term, and no operator. -/
structure Closed (rest : List Char) : Prop where
  seam : Seam rest
  noJoint : scanJoint? rest = none

theorem isLayout_mem_seams (c : Char) (layout : isLayout c = true) : c ∈ seams := by
  simp only [isLayout, Bool.or_eq_true, beq_iff_eq] at layout
  rcases layout with ((rfl | rfl) | rfl) | rfl <;> decide

theorem seam_layout (layout rest : List Char) (layouts : Layout layout) (seam : Seam rest) :
    Seam (layout ++ rest) := by
  cases layout with
  | nil => exact seam
  | cons c layout =>
    intro first member
    cases member
    exact isLayout_mem_seams c (layouts c (by simp))

theorem closed_layout (layout rest : List Char) (layouts : Layout layout)
    (closing : rest = [] ∨ ∃ more, rest = ')' :: more) : Closed (layout ++ rest) := by
  rcases closing with rfl | ⟨more, rfl⟩
  · refine ⟨seam_layout layout [] layouts (by intro c member; cases member), ?_⟩
    rw [scanJoint?, Text.dropWhile_run _ _ _ layouts (Text.ends_nil _)]
  · refine ⟨seam_layout layout _ layouts (by intro c member; cases member; decide), ?_⟩
    rw [scanJoint?, Text.dropWhile_run _ _ _ layouts ((Text.ends_cons _ _ _).mpr (by decide))]
    rfl

theorem Joint.text_append (joint : Joint) (rest : List Char) :
    joint.text ++ rest = joint.before ++ joint.operator.char :: (joint.after ++ rest) := by
  simp [Joint.text]

theorem Operator.char_mem_seams (operator : Operator) : operator.char ∈ seams := by
  cases operator <;> decide

theorem Operator.ends_char (operator : Operator) (rest : List Char) :
    Ends isLayout (operator.char :: rest) := by
  rw [Text.ends_cons]
  cases operator <;> decide

theorem seam_joint (joint : Joint) (rest : List Char) (admissible : joint.Admissible) :
    Seam (joint.text ++ rest) := by
  rw [Joint.text_append]
  apply seam_layout _ _ admissible.before
  intro c member
  cases member
  exact joint.operator.char_mem_seams

theorem scanJoint?_complete (joint : Joint) (rest : List Char) (admissible : joint.Admissible)
    (ends : Ends isLayout rest) : scanJoint? (joint.text ++ rest) = some (joint, rest) := by
  have operator := joint.operator.ends_char (joint.after ++ rest)
  rw [Joint.text_append, scanJoint?, Text.dropWhile_run _ _ _ admissible.before operator,
    Text.takeWhile_run _ _ _ admissible.before operator]
  simp only [Operator.ofChar?_char, Option.map_some, Text.takeWhile_run _ _ _ admissible.after ends,
    Text.dropWhile_run _ _ _ admissible.after ends]

mutual
/-- An admissible term before a seam is found whole, whatever reads the calls for which there is no
room. -/
theorem scanTerm_complete (innermost : Scanner Chain.text) (term : Term) (room : Nat)
    (rest : List Char) (admissible : term.Admissible) (shallow : term.depth ≤ room)
    (seam : Seam rest) :
    scanTerm (.nested innermost room) (term.text ++ rest) = settle term.overlong? (term, rest) := by
  match term with
  | .dice dice =>
    change Scan.orElse ((scanDice (dice.text ++ rest)).map _) _ = _
    rw [scanDice_complete dice rest admissible seam, map_settle]
    exact orElse_settle _ _ _
  | .number negative digits =>
    exact scanTerm_number _ negative digits rest admissible.1 admissible.2 seam
  | .call name beforeOpening afterOpening argument beforeClosing =>
    cases room with
    | zero => exact absurd shallow (Nat.not_succ_le_zero _)
    | succ room =>
      apply scanTerm_call _ _ _ _ _ _ _ admissible
      exact scanChain_complete innermost argument room _ admissible.2.2.2.1
        (Nat.le_of_succ_le_succ shallow)
        (closed_layout _ _ admissible.2.2.2.2 (.inr ⟨rest, rfl⟩))
theorem scanChain_complete (innermost : Scanner Chain.text) (chain : Chain) (room : Nat)
    (rest : List Char) (admissible : chain.Admissible) (shallow : chain.depth ≤ room)
    (closed : Closed rest) :
    scanChain (.terms (.nested innermost room)) (chain.text ++ rest) =
      settle chain.overlong? (chain, rest) := by
  match chain with
  | .last term =>
    have first : (Scanner.terms (.nested innermost room)).run (term.text ++ rest) =
        settle term.overlong? (term, rest) :=
      scanTerm_complete innermost term room rest admissible shallow closed.seam
    rw [Chain.text, Chain.overlong?, scanChain_eq, first]
    cases term.overlong? with
    | some length => rfl
    | none => simp only [settle, closed.noJoint]
  | .link term joint more =>
    obtain ⟨admissible, joins, others⟩ := admissible
    have first : (Scanner.terms (.nested innermost room)).run
          (term.text ++ (joint.text ++ (more.text ++ rest))) =
        settle term.overlong? (term, joint.text ++ (more.text ++ rest)) :=
      scanTerm_complete innermost term room _ admissible (le_trans (Nat.le_max_left _ _) shallow)
        (seam_joint joint _ joins)
    have next := scanJoint?_complete joint (more.text ++ rest) joins (more.ends_layout others rest)
    have following := scanChain_complete innermost more room rest others
      (le_trans (Nat.le_max_right _ _) shallow) closed
    rw [Chain.text, List.append_assoc, List.append_assoc, Chain.overlong?, settle_or, scanChain_eq,
      first]
    cases term.overlong? with
    | some length => rfl
    | none =>
      simp only [settle_none_bind]
      simp only [settle, next, following]
      cases more.overlong? <;> rfl
end

end Tabletop.Phrase
