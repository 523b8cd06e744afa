import Tabletop.Proofs.Phrase.Conversions
import Tabletop.Proofs.Phrase.Cut
import Tabletop.Proofs.Scanner.Before

/-! Scanning a text with layout at a place that cuts a token in two. The scanner finds a shorter token
there, or none. What it leaves begins, behind layout, with more of the token; no operator, parenthesis or
end of the text stands there, so nothing goes on from it. -/
namespace Tabletop.Phrase
open Text (isLayout Ends)

/-- A scan that misses something, or leaves a text of the given kind. -/
inductive FallsShort {α : Type} (left : List Char → Prop) : Scan α → Prop
  | found (value : α) (rest : List Char) (leaves : left rest) : FallsShort left (.ok (value, rest))
  | missing (expected : Expectation) (rest : List Char) : FallsShort left (.error (.missing expected rest))

theorem FallsShort.map {α β : Type} (left : List Char → Prop) (change : α → β) (scanned : Scan α)
    (short : FallsShort left scanned) :
    FallsShort left (scanned.map fun found => (change found.1, found.2)) := by
  cases short with
  | found value rest leaves => exact .found _ _ leaves
  | missing expected rest => exact .missing _ _

theorem FallsShort.orElse {α : Type} (left : List Char → Prop) (first : Scan α)
    (second : Unit → Scan α) (short : FallsShort left first) (short' : FallsShort left (second ())) :
    FallsShort left (Scan.orElse first second) := by
  cases short with
  | found value rest leaves => exact .found _ _ leaves
  | missing expected rest =>
    unfold Scan.orElse
    cases same : second () with
    | ok found =>
      rw [same] at short'
      exact short'
    | error halt =>
      rw [same] at short'
      cases short' with
      | missing expected' rest' =>
        dsimp only
        split
        · exact .missing _ _
        · exact .missing _ _

def Stuck (rest : List Char) : Prop :=
  ∃ c tail, rest.dropWhile isLayout = c :: tail ∧ isTokenPart c = true

def Unclosed (rest : List Char) : Prop := ∃ c tail, rest.dropWhile isLayout = c :: tail ∧ c ≠ ')'

theorem Stuck.unclosed (rest : List Char) (stuck : Stuck rest) : Unclosed rest := by
  obtain ⟨c, tail, behind, part⟩ := stuck
  refine ⟨c, tail, behind, ?_⟩
  rintro rfl
  exact absurd part (by decide)

theorem Stuck.noJoint (rest : List Char) (stuck : Stuck rest) : scanJoint? rest = none := by
  obtain ⟨c, tail, behind, part⟩ := stuck
  unfold scanJoint?
  rw [behind]
  simp only [Option.map_eq_none_iff]
  cases named : Operator.ofChar? c with
  | none => rfl
  | some operator =>
    rw [← Operator.char_of_ofChar? c operator named] at part
    cases operator <;> exact absurd part (by decide)

theorem scanArgument_stuck (argument : Scanner Chain.text) (name text : List Char) (stuck : Stuck text) :
    ∃ expected rest, scanArgument argument name text = .error (.missing expected rest) := by
  obtain ⟨c, tail, behind, part⟩ := stuck
  unfold scanArgument
  rw [behind]
  split
  · rename_i opening
    obtain ⟨rfl, rfl⟩ := List.cons.inj opening
    exact absurd part (by decide)
  · exact ⟨_, _, rfl⟩

theorem unclosed_joint (joint : Joint) (rest : List Char) (admissible : joint.Admissible) :
    Unclosed (joint.text ++ rest) := by
  have operator := joint.operator.ends_char (joint.after ++ rest)
  refine ⟨joint.operator.char, joint.after ++ rest, ?_, ?_⟩
  · rw [Joint.text_append, Text.dropWhile_run _ _ _ admissible.before operator]
  · cases joint.operator <;> decide

def Severed (rest : List Char) : Prop :=
  ∃ layout more, rest = layout ++ more ∧ Layout layout ∧ layout ≠ [] ∧
    ∃ c tail, more = c :: tail ∧ isTokenPart c = true

theorem Severed.ends (p : Char → Bool) (rest : List Char) (severed : Severed rest)
    (avoids : [' ', '\t', '\r', '\n'].any p = false) : Ends p rest := by
  obtain ⟨layout, more, rfl, blank, some, _⟩ := severed
  obtain ⟨c, tail, rfl⟩ := List.exists_cons_of_ne_nil some
  rw [List.cons_append, Text.ends_cons]
  exact isLayout_cases p avoids c (blank c (by simp))

theorem Severed.seam (rest : List Char) (severed : Severed rest) : Seam rest := by
  obtain ⟨layout, more, rfl, blank, some, _⟩ := severed
  obtain ⟨c, tail, rfl⟩ := List.exists_cons_of_ne_nil some
  intro first member
  cases member
  exact isLayout_mem_seams c (blank c (by simp))

theorem Severed.ne_nil (rest : List Char) (severed : Severed rest) : rest ≠ [] := by
  obtain ⟨layout, more, rfl, _, some, _⟩ := severed
  exact List.append_ne_nil_of_left_ne_nil some more

theorem Severed.stuck (text rest : List Char) (severed : Severed rest) (dense : Dense text) :
    Stuck (text ++ rest) := by
  obtain ⟨layout, more, rfl, blank, _, c, tail, rfl, part⟩ := severed
  cases text with
  | nil =>
    have ends : Ends isLayout (c :: tail) := (Text.ends_cons _ _ _).mpr (isLayout_of_isTokenPart c part)
    exact ⟨c, tail, Text.dropWhile_run _ _ _ blank ends, part⟩
  | cons first text =>
    have part := dense first (by simp)
    refine ⟨first, text ++ (layout ++ c :: tail), ?_, part⟩
    rw [List.cons_append, List.dropWhile_cons_of_neg]
    simp [isLayout_of_isTokenPart first part]

theorem dense_dropWhile (p : Char → Bool) (text : List Char) (dense : Dense text) :
    Dense (text.dropWhile p) := by
  intro c member
  exact dense c ((List.dropWhile_suffix p).subset member)

section Severed

variable (rest : List Char) (severed : Severed rest)
include severed

theorem scanDigits_severed (negative : Bool) (text : List Char) (dense : Dense text) :
    FallsShort Stuck (scanDigits negative (text ++ rest)) := by
  have ends : Ends Char.isDigit rest := severed.ends _ _ (by decide)
  unfold scanDigits
  rw [Text.takeWhile_before _ _ _ ends, Text.dropWhile_before _ _ _ ends]
  cases text.takeWhile Char.isDigit with
  | nil => exact .missing _ _
  | cons c digits => exact .found _ _ (severed.stuck _ _ (dense_dropWhile _ text dense))

theorem scanNumber_severed (text : List Char) (dense : Dense text) :
    FallsShort Stuck (scanNumber (text ++ rest)) := by
  unfold scanNumber
  split
  · rename_i tail sign
    have unsigned : Ends (· == '-') (text ++ rest) := by
      cases text with
      | nil => exact severed.ends _ _ (by decide)
      | cons c text =>
        rw [List.cons_append, Text.ends_cons, beq_eq_false_iff_ne]
        rintro rfl
        exact absurd (dense '-' (by simp)) (by decide)
    rw [sign, Text.ends_cons] at unsigned
    cases unsigned
  · exact scanDigits_severed rest severed false text dense

theorem scanCall_severed (argument : Scanner Chain.text) (text : List Char) (dense : Dense text) :
    FallsShort Stuck (scanCall argument (text ++ rest)) := by
  have ends : Ends isNamePart rest := severed.ends _ _ (by decide)
  cases text with
  | nil =>
    have free : Ends isNameStart rest := severed.ends _ _ (by decide)
    obtain ⟨c, tail, rfl⟩ := List.exists_cons_of_ne_nil (severed.ne_nil rest)
    rw [List.nil_append, scanCall_missing _ _ _ ((Text.ends_cons _ _ _).mp free)]
    exact .missing _ _
  | cons c text =>
    have stuck := severed.stuck _ _ (dense_dropWhile isNamePart text ((dense_cons _ _).mp dense).2)
    rw [List.cons_append, scanCall, Text.dropWhile_before _ _ _ ends]
    split
    · obtain ⟨expected, left, missing⟩ := scanArgument_stuck argument
        (c :: (text ++ rest).takeWhile isNamePart) _ stuck
      rw [missing]
      exact .missing _ _
    · exact .missing _ _

theorem scanTerm_dense (argument : Scanner Chain.text) (text : List Char) (dense : Dense text)
    (dice : FallsShort Stuck (scanDice (text ++ rest))) : FallsShort Stuck (scanTerm argument (text ++ rest)) :=
  (dice.map Stuck Term.dice _).orElse _ _ _ ((scanCall_severed rest severed argument text dense).orElse _ _ _
    (scanNumber_severed rest severed text dense))

theorem scanTerm_dice_severed (argument : Scanner Chain.text) (dice : Dice) (text more : List Char)
    (admissible : dice.Admissible) (convertible : Convertible dice.conversions)
    (whole : dice.text = text ++ more) : FallsShort Stuck (scanTerm argument (text ++ rest)) := by
  have dense : Dense text := ((dense_append _ _).mp (whole ▸ dice.dense admissible)).1
  apply scanTerm_dense rest severed argument text dense
  rw [scanDice_before rest (severed.seam rest) text]
  cases scanned : scanDice text with
  | ok found =>
    obtain ⟨part, left⟩ := found
    rw [scanDice_reads _ _ _ scanned] at dense
    exact .found _ _ (severed.stuck _ _ ((dense_append _ _).mp dense).2)
  | error halt =>
    cases halt with
    | missing expected left => exact .missing _ _
    | overlong digits =>
      -- A run of the part is a run of the whole term, and those are all short.
      have long := scanDice_overlong _ _ scanned
      exact absurd (whole ▸ long.before digits _ more) (dice.not_longRun convertible digits)

theorem scanTerm_number_severed (argument : Scanner Chain.text) (negative : Bool)
    (digits text more : List Char) (inside : Digits digits) (some : text ≠ [])
    (whole : (Term.number negative digits).text = text ++ more) :
    FallsShort Stuck (scanTerm argument (text ++ rest)) := by
  have ends : Ends Char.isDigit rest := severed.ends _ _ (by decide)
  have free : Ends (· == 'd') rest := severed.ends _ _ (by decide)
  cases negative with
  | false =>
    rw [Term.text] at whole
    have part : Digits text := (List.forall_mem_append.mp (whole ▸ inside)).1
    apply scanTerm_dense rest severed argument text (dense_digits text part)
    rw [scanDice_missing]
    · exact .missing _ _
    · intro tail same
      rw [Text.dropWhile_run _ _ _ part ends] at same
      rw [same, Text.ends_cons] at free
      cases free
  | true =>
    obtain ⟨c, text, rfl⟩ := List.exists_cons_of_ne_nil some
    obtain ⟨rfl, behind⟩ := List.cons.inj whole
    have part : Digits text := (List.forall_mem_append.mp (behind ▸ inside)).1
    have dice : FallsShort Stuck (scanDice ('-' :: text ++ rest)) := .missing _ _
    have call : FallsShort Stuck (scanCall argument ('-' :: text ++ rest)) := .missing _ _
    exact (dice.map Stuck Term.dice _).orElse _ _ _ (call.orElse _ _ _
      (scanDigits_severed rest severed true text (dense_digits text part)))

end Severed

theorem scanNumber_name (left : List Char → Prop) (name rest : List Char) (isName : IsName name) :
    FallsShort left (scanNumber (name ++ rest)) := by
  obtain ⟨c, tail, rfl, start, _⟩ := isName.identifier
  rw [List.cons_append]
  unfold scanNumber
  split
  · rename_i sign
    obtain ⟨rfl, _⟩ := List.cons.inj sign
    exact absurd start (by decide)
  · unfold scanDigits
    rw [List.takeWhile_cons_of_neg (by simp [isDigit_of_isNameStart c start])]
    exact .missing _ _

theorem scanTerm_name (left : List Char → Prop) (argument : Scanner Chain.text) (name rest : List Char)
    (isName : IsName name) (short : nameOverlong? name = none) (digits : Ends Char.isDigit rest)
    (percent : Ends (· == '%') rest) (call : FallsShort left (scanCall argument (name ++ rest))) :
    FallsShort left (scanTerm argument (name ++ rest)) := by
  obtain ⟨expected, rest', dice⟩ := scanDice_name name rest isName digits percent
  rw [short] at dice
  rw [scanTerm, dice]
  apply FallsShort.orElse
  · exact .missing _ _
  · exact call.orElse _ _ _ (scanNumber_name left name rest isName)

theorem scanTerm_name_severed (argument : Scanner Chain.text) (name rest : List Char) (isName : IsName name)
    (short : nameOverlong? name = none) (severed : Severed rest) :
    FallsShort Stuck (scanTerm argument (name ++ rest)) :=
  scanTerm_name Stuck argument name rest isName short (severed.ends _ _ (by decide))
    (severed.ends _ _ (by decide))
    (scanCall_severed rest severed argument name (dense_name name isName.parts))

theorem scanClosing_unclosed (left : List Char → Prop) (call : List Char → Term) (text : List Char)
    (unclosed : Unclosed text) : FallsShort left (scanClosing call text) := by
  obtain ⟨c, tail, behind, other⟩ := unclosed
  unfold scanClosing
  rw [behind]
  split
  · rename_i closing
    exact absurd (List.cons.inj closing).1 other
  · exact .missing _ _

theorem scanCall_unclosed (left : List Char → Prop) (scanner : Scanner Chain.text)
    (name beforeOpening afterOpening text : List Char) (isName : IsName name)
    (before : Layout beforeOpening) (after : Layout afterOpening) (ends : Ends isLayout text)
    (short : FallsShort Unclosed (scanner.run text)) :
    FallsShort left (scanCall scanner (name ++ (beforeOpening ++ '(' :: (afterOpening ++ text)))) := by
  rw [scanCall_opened _ _ _ _ _ isName before after ends]
  generalize scanner.run text = scanned at short
  cases short with
  | found chain rest unclosed => exact scanClosing_unclosed left _ rest unclosed
  | missing expected rest => exact .missing _ _

theorem scanChain_stuck (term : Scanner Term.text) (text : List Char)
    (short : FallsShort Stuck (term.run text)) : FallsShort Unclosed (scanChain term text) := by
  rw [scanChain_eq]
  generalize term.run text = scanned at short
  cases short with
  | found value rest stuck =>
    simp only [stuck.noJoint]
    exact .found _ _ (stuck.unclosed rest)
  | missing expected rest => exact .missing _ _

theorem scanChain_link (term : Scanner Term.text) (text rest : List Char) (found : Term) (joint : Joint)
    (joins : joint.Admissible) (ends : Ends isLayout rest)
    (first : term.run text = .ok (found, joint.text ++ rest))
    (short : FallsShort Unclosed (scanChain term rest)) : FallsShort Unclosed (scanChain term text) := by
  rw [scanChain_eq, first]
  simp only [scanJoint?_complete joint rest joins ends]
  generalize scanChain term rest = scanned at short
  cases short with
  | found chain rest unclosed => exact .found _ _ unclosed
  | missing expected rest' =>
    -- The operator is left over, and the chain ends before it.
    exact .found _ _ (unclosed_joint joint rest joins)

theorem severed_dense (layout : List Char) (blank : Layout layout) (some : layout ≠ [])
    (right more : List Char) (rest : right ≠ []) (dense : Dense right) :
    Severed (layout ++ (right ++ more)) := by
  obtain ⟨c, tail, rfl⟩ := List.exists_cons_of_ne_nil rest
  exact ⟨layout, _, rfl, blank, some, c, tail ++ more, rfl, dense c (by simp)⟩

mutual
/-- Of a term with layout at a place that cuts a token, a term is found that ends at that place, or
nothing. -/
theorem scanTerm_cut (innermost : Scanner Chain.text) (term : Term) (room : Nat)
    (layout : List Char) (blank : Layout layout) (some : layout ≠ []) (left right rest : List Char)
    (cut : term.Cut left right) (admissible : term.Admissible)
    (convertible : Convertible term.conversions) (shallow : term.depth ≤ room) :
    FallsShort Stuck (scanTerm (.nested innermost room) (left ++ (layout ++ (right ++ rest)))) := by
  match term, left, right, cut with
  | _, _, _, .dice dice left right parted =>
    have dense := ((dense_append _ _).mp (parted.whole ▸ dice.dense admissible)).2
    have severed := severed_dense layout blank some right rest parted.right dense
    exact scanTerm_dice_severed _ severed _ dice left right admissible convertible parted.whole
  | _, _, _, .number negative digits left right parted =>
    have dense := dense_behind_sign negative digits left right admissible.2 parted
    have severed := severed_dense layout blank some right rest parted.right dense
    exact scanTerm_number_severed _ severed _ negative digits left right admissible.2 parted.left parted.whole
  | _, _, _, .name name beforeOpening afterOpening argument beforeClosing left right parted =>
    obtain ⟨rfl, some', rest'⟩ := parted
    have isName := admissible.1
    have dense := ((dense_append _ _).mp (dense_name _ isName.parts)).2
    have short := (nameOverlong?_eq_none _).mpr ((convertible_append _ _).mp convertible).1
    rw [List.append_assoc right]
    exact scanTerm_name_severed _ left _ (isName.front left right some')
      (nameOverlong?_front left right short) (severed_dense layout blank some right _ rest' dense)
  | _, _, _, .argument name beforeOpening afterOpening argument beforeClosing left right cut =>
    obtain ⟨isName, before, after, inner, closing⟩ := admissible
    obtain ⟨named, convertible⟩ := (convertible_append _ _).mp convertible
    -- The name is found whole, and its argument ends before the parenthesis that would close the call.
    cases room with
    | zero => exact absurd shallow (Nat.not_succ_le_zero _)
    | succ room =>
      have short := scanChain_cut innermost argument room layout blank some left right
        (beforeClosing ++ ')' :: rest) cut inner convertible (Nat.le_of_succ_le_succ shallow)
      have ends := (cut.parted argument left right).ends isLayout _ _ _ []
        (layout ++ (right ++ (beforeClosing ++ ')' :: rest))) (argument.ends_layout inner [])
      have call := scanCall_unclosed Stuck (.nested innermost (room + 1)) name beforeOpening afterOpening _
        isName before after ends short
      have whole := scanTerm_name Stuck _ name _ isName ((nameOverlong?_eq_none _).mpr named)
        (ends_opening _ _ _ before (by decide) (by decide))
        (ends_opening _ _ _ before (by decide) (by decide)) call
      simpa using whole
theorem scanChain_cut (innermost : Scanner Chain.text) (chain : Chain) (room : Nat)
    (layout : List Char) (blank : Layout layout) (some : layout ≠ []) (left right rest : List Char)
    (cut : chain.Cut left right) (admissible : chain.Admissible)
    (convertible : Convertible chain.conversions) (shallow : chain.depth ≤ room) :
    FallsShort Unclosed
      (scanChain (.terms (.nested innermost room)) (left ++ (layout ++ (right ++ rest)))) := by
  match chain, left, right, cut with
  | _, _, _, .last term left right cut =>
    apply scanChain_stuck
    exact scanTerm_cut innermost term room layout blank some left right rest cut admissible convertible
      shallow
  | _, _, _, .first term joint more left right cut =>
    apply scanChain_stuck
    rw [List.append_assoc right]
    exact scanTerm_cut innermost term room layout blank some left right _ cut admissible.1
      ((convertible_append _ _).mp convertible).1 (le_trans (Nat.le_max_left _ _) shallow)
  | _, _, _, .later term joint more left right cut =>
    obtain ⟨admissible, joins, others⟩ := admissible
    obtain ⟨convertible, convertible'⟩ := (convertible_append _ _).mp convertible
    have ends := (cut.parted more left right).ends isLayout _ _ _ [] (layout ++ (right ++ rest))
      (more.ends_layout others [])
    have first := scanTerm_complete innermost term room
      (joint.text ++ (left ++ (layout ++ (right ++ rest)))) admissible
      (le_trans (Nat.le_max_left _ _) shallow) (seam_joint joint _ joins)
    rw [((term.convertible_iff admissible).mp convertible).1] at first
    rw [List.append_assoc, List.append_assoc]
    apply scanChain_link _ _ _ term joint joins ends first
    exact scanChain_cut innermost more room layout blank some left right rest cut others convertible'
      (le_trans (Nat.le_max_right _ _) shallow)
end

/-- A text whose chain falls short of its end is missing something. -/
theorem scan_unclosed (text : List Char)
    (short : FallsShort Unclosed (Scanner.chain.run (text.dropWhile isLayout))) :
    ∃ expected rest, scan text = .error (.missing expected rest) := by
  unfold scan
  generalize Scanner.chain.run (text.dropWhile isLayout) = scanned at short
  cases short with
  | found chain rest unclosed =>
    obtain ⟨c, tail, behind, _⟩ := unclosed
    refine ⟨.endOfText, c :: tail, ?_⟩
    simp only [bind, Except.bind, behind]
    rfl
  | missing expected rest => exact ⟨expected, rest, rfl⟩

end Tabletop.Phrase
