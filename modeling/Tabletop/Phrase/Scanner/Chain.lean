import Tabletop.Phrase.Scanner.Dice

/-! Scanning chains of terms, and whole texts. The scanner of the arguments of calls is given to the
scanner of terms; tying that knot as often as calls may stand within each other yields the scanner
of whole texts. What is scanned is the writing of what is found. -/
namespace Tabletop.Phrase
open Text (isLayout)

def scanDigits (negative : Bool) (text : List Char) : Scan Term :=
  match text.takeWhile Char.isDigit with
  | [] => .error (.missing .digits text)
  | digits => .ok (.number negative digits, text.dropWhile Char.isDigit)

def scanNumber : List Char → Scan Term
  | '-' :: rest => scanDigits true rest
  | text => scanDigits false text

private theorem scanDigits_reads (negative : Bool) (text rest : List Char) (term : Term)
    (found : scanDigits negative text = .ok (term, rest)) :
    ∃ digits, digits ≠ [] ∧ term = .number negative digits ∧ text = digits ++ rest := by
  unfold scanDigits at found
  split at found
  · cases found
  · rename_i some
    cases found
    exact ⟨_, some, rfl, List.takeWhile_append_dropWhile.symm⟩

theorem scanNumber_reads (text rest : List Char) (term : Term)
    (found : scanNumber text = .ok (term, rest)) : term.text ≠ [] ∧ text = term.text ++ rest := by
  unfold scanNumber at found
  split at found
  · obtain ⟨digits, _, rfl, rfl⟩ := scanDigits_reads _ _ _ _ found
    exact ⟨by simp [Term.text], rfl⟩
  · obtain ⟨digits, some, rfl, rfl⟩ := scanDigits_reads _ _ _ _ found
    exact ⟨some, rfl⟩

def isNameStart (c : Char) : Bool := c.isAlpha || c == '_'

def isNamePart (c : Char) : Bool := c.isAlphanum || c == '_'

def scanClosing (call : List Char → Term) (text : List Char) : Scan Term :=
  match text.dropWhile isLayout with
  | ')' :: rest => .ok (call (text.takeWhile isLayout), rest)
  | rest => .error (.missing .closing rest)

def scanArgument (argument : Scanner Chain.text) (name text : List Char) :
    Except Halt (Term × List Char) :=
  match text.dropWhile isLayout with
  | '(' :: inner => do
    let (chain, rest) ← argument.run (inner.dropWhile isLayout)
    scanClosing (.call name (text.takeWhile isLayout) (inner.takeWhile isLayout) chain) rest
  | rest => .error (.missing .opening rest)

def scanCall (argument : Scanner Chain.text) : List Char → Scan Term
  | [] => .error (.missing .term [])
  | c :: rest =>
    if isNameStart c then
      scanArgument argument (c :: rest.takeWhile isNamePart) (rest.dropWhile isNamePart)
    else .error (.missing .term (c :: rest))

private theorem scanClosing_reads (call : List Char → Term) (text rest : List Char) (term : Term)
    (found : scanClosing call text = .ok (term, rest)) :
    ∃ layout, term = call layout ∧ text = layout ++ ')' :: rest := by
  unfold scanClosing at found
  split at found
  · rename_i after closing
    cases found
    exact ⟨_, rfl, by rw [← closing, List.takeWhile_append_dropWhile]⟩
  · cases found

private theorem scanArgument_reads (argument : Scanner Chain.text) (name text rest : List Char)
    (term : Term) (found : scanArgument argument name text = .ok (term, rest)) :
    term.text ≠ [] ∧ name ++ text = term.text ++ rest := by
  unfold scanArgument at found
  split at found
  · rename_i inner opening
    obtain ⟨⟨chain, left⟩, scanned, closed⟩ := bind_ok _ _ _ found
    obtain ⟨layout, rfl, rfl⟩ := scanClosing_reads _ _ _ _ closed
    have outer := List.takeWhile_append_dropWhile (p := isLayout) (l := text)
    have between := List.takeWhile_append_dropWhile (p := isLayout) (l := inner)
    rw [(argument.reads _ _ _ scanned).2] at between
    rw [opening] at outer
    refine ⟨by simp [Term.text], ?_⟩
    calc name ++ text
        = name ++ (text.takeWhile isLayout ++ '(' :: inner) := by rw [outer]
      _ = name ++ (text.takeWhile isLayout ++ '(' ::
            (inner.takeWhile isLayout ++ (chain.text ++ (layout ++ ')' :: rest)))) := by
          rw [between]
      _ = _ := by simp [Term.text]
  · cases found

theorem scanCall_reads (argument : Scanner Chain.text) (text rest : List Char) (term : Term)
    (found : scanCall argument text = .ok (term, rest)) :
    term.text ≠ [] ∧ text = term.text ++ rest := by
  unfold scanCall at found
  split at found
  · cases found
  · rename_i c more
    split at found
    · obtain ⟨some, whole⟩ := scanArgument_reads _ _ _ _ _ found
      refine ⟨some, whole ▸ ?_⟩
      rw [List.cons_append, List.takeWhile_append_dropWhile]
    · cases found

def scanTerm (argument : Scanner Chain.text) (text : List Char) : Scan Term :=
  Scan.orElse ((scanDice text).map fun found => (.dice found.1, found.2)) fun _ =>
    Scan.orElse (scanCall argument text) fun _ => scanNumber text

theorem scanTerm_reads (argument : Scanner Chain.text) (text : List Char) (term : Term)
    (rest : List Char) (found : scanTerm argument text = .ok (term, rest)) :
    term.text ≠ [] ∧ text = term.text ++ rest := by
  rcases Scan.orElse_ok _ _ _ found with dice | other
  · obtain ⟨⟨dice, left⟩, scanned, same⟩ := map_ok _ _ _ dice
    cases same
    exact ⟨by simp [Term.text, Dice.text], scanDice_reads _ _ _ scanned⟩
  · rcases Scan.orElse_ok _ _ _ other with call | number
    · exact scanCall_reads _ _ _ _ call
    · exact scanNumber_reads _ _ _ number

def scanJoint? (text : List Char) : Option (Joint × List Char) :=
  match text.dropWhile isLayout with
  | [] => none
  | c :: rest =>
    (Operator.ofChar? c).map fun operator =>
      (⟨text.takeWhile isLayout, operator, rest.takeWhile isLayout⟩, rest.dropWhile isLayout)

theorem scanJoint?_reads (text rest : List Char) (joint : Joint)
    (found : scanJoint? text = some (joint, rest)) : text = joint.text ++ rest := by
  unfold scanJoint? at found
  split at found
  · cases found
  · rename_i c more mark
    obtain ⟨operator, named, same⟩ := Option.map_eq_some_iff.mp found
    cases same
    have outer := List.takeWhile_append_dropWhile (p := isLayout) (l := text)
    rw [mark, ← Operator.char_of_ofChar? c operator named] at outer
    refine outer.symm.trans ?_
    simp [Joint.text]

/-- A chain goes on as long as an operator and a term follow; an operator without a term is left
over. -/
def scanChain (term : Scanner Term.text) (text : List Char) : Scan Chain :=
  match _first : term.run text with
  | .error halt => .error halt
  | .ok (found, rest) =>
    match _next : scanJoint? rest with
    | none => .ok (.last found, rest)
    | some (joint, after) =>
      match scanChain term after with
      | .ok (chain, rest) => .ok (.link found joint chain, rest)
      | .error (.missing _ _) => .ok (.last found, rest)
      | .error (.overlong digits) => .error (.overlong digits)
termination_by text.length
decreasing_by
  have used := term.shortens _ _ _ _first
  have kept := congrArg List.length (scanJoint?_reads _ _ _ _next)
  rw [List.length_append] at kept
  omega

theorem scanChain_eq (term : Scanner Term.text) (text : List Char) :
    scanChain term text =
      match term.run text with
      | .error halt => .error halt
      | .ok (found, rest) =>
        match scanJoint? rest with
        | none => .ok (.last found, rest)
        | some (joint, after) =>
          match scanChain term after with
          | .ok (chain, rest) => .ok (.link found joint chain, rest)
          | .error (.missing _ _) => .ok (.last found, rest)
          | .error (.overlong digits) => .error (.overlong digits) := by
  rw [scanChain]
  split
  · rename_i halt failed
    simp only [failed]
  · rename_i found rest first
    simp only [first]
    split
    · rename_i ends
      simp only [ends]
    · rename_i joint after next
      simp only [next]

theorem scanChain_reads (term : Scanner Term.text) (text : List Char) (chain : Chain)
    (rest : List Char) (found : scanChain term text = .ok (chain, rest)) :
    chain.text ≠ [] ∧ text = chain.text ++ rest := by
  fun_induction scanChain term text generalizing chain rest with
  | case1 text halt failed => cases found
  | case2 text first left first_found ends =>
    cases found
    exact term.reads _ _ _ first_found
  | case3 text first left first_found joint after next more rest' scanned ih =>
    cases found
    obtain ⟨some, whole⟩ := term.reads _ _ _ first_found
    refine ⟨by simp [Chain.text, some], ?_⟩
    rw [whole, scanJoint?_reads _ _ _ next, (ih _ _ scanned).2]
    simp [Chain.text]
  | case4 text first left first_found joint after next expected missing scanned ih =>
    cases found
    exact term.reads _ _ _ first_found
  | case5 text first left first_found joint after next digits scanned ih => cases found

def Scanner.terms (argument : Scanner Chain.text) : Scanner Term.text where
  run := scanTerm argument
  reads := scanTerm_reads argument

def Scanner.chains (term : Scanner Term.text) : Scanner Chain.text where
  run := scanChain term
  reads := scanChain_reads term

def Scanner.refusal : Scanner Chain.text where
  run text := .error (.missing .shallowerCalls text)
  reads := by
    intro text found rest ok
    cases ok

/-- The scanner of chains that stand within each other a given number of times, around those that
the innermost scanner reads. -/
def Scanner.nested (innermost : Scanner Chain.text) : Nat → Scanner Chain.text
  | 0 => innermost
  | room + 1 => .chains (.terms (nested innermost room))

def Scanner.chain : Scanner Chain.text := .nested .refusal (Nesting.limit + 1)

def scan (text : List Char) : Except Halt Phrase := do
  let (chain, rest) ← Scanner.chain.run (text.dropWhile isLayout)
  match rest.dropWhile isLayout with
  | [] => return ⟨text.takeWhile isLayout, chain, rest⟩
  | more => throw (.missing .endOfText more)

/-- No character of a text is lost in its phrase. -/
theorem text_of_scan (text : List Char) (phrase : Phrase) (found : scan text = .ok phrase) :
    phrase.text = text := by
  obtain ⟨⟨chain, rest⟩, scanned, found⟩ := bind_ok _ _ _ found
  dsimp only at found
  split at found
  · cases found
    rw [Phrase.text, ← (Scanner.chain.reads _ _ _ scanned).2, List.takeWhile_append_dropWhile]
  · cases found

end Tabletop.Phrase
