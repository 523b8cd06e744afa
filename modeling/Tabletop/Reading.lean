import Tabletop.Node.Assemble
import Tabletop.Node.OfPhrase
import Tabletop.Phrase.Scanner.Chain

/-! Reading a text. A text is refused when it is blank, when its parentheses stand too deep, or where
the scanner stops; otherwise its tree is assembled into an expression with the rolls it asks for. -/
namespace Tabletop

def reject (text : String) (position : Nat) (expected : Expectation) : Failure :=
  .rejected ⟨text, position, expected⟩

def readPhrase (text : String) : Except Failure Phrase :=
  let cs := text.toList
  if cs.all Text.isBlank then .error (reject text 0 .input)
  else
    match Nesting.tooDeep? cs with
    | some before => .error (reject text before.length .shallowerCalls)
    | none =>
      match Phrase.scan cs with
      | .ok phrase => .ok phrase
      | .error (.missing expected rest) =>
        .error (reject text (cs.length - rest.length) expected)
      | .error (.overlong digits) => .error (.overlong digits)

def readTree (text : String) : Except Failure Node := (readPhrase text).map Phrase.node

structure Reading where
  expression : Expr
  rolls : List Roll
deriving DecidableEq, Repr

def Reading.ofAssembly (assembly : Assembly Expr) : Except Failure Reading :=
  assembly.outcome.map fun expression => ⟨expression, assembly.rolls⟩

def Node.reading (node : Node) : Except Failure Reading :=
  Reading.ofAssembly node.assemble

def read (text : String) : Except Failure Reading := do
  let tree ← readTree text
  tree.reading

def Reading.normalized (reading : Reading) : String := reading.expression.describe

end Tabletop
