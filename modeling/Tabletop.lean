import Tabletop.Datum.Written
import Tabletop.Expr.Draft
import Tabletop.Expr.Draft.Rendered
import Tabletop.Journal
import Tabletop.Main
import Tabletop.Payload
import Tabletop.Proofs.Reading.Composition
import Tabletop.Proofs.Reading.Contract
import Tabletop.Proofs.Reading.Failures
import Tabletop.Proofs.Reading.Invariant
import Tabletop.Proofs.Reading.Layout
import Tabletop.Server
import Tabletop.Proofs.Node.Stems
import Tabletop.Proofs.Node.Moved
import Tabletop.Proofs.Reading.Locality
import Tabletop.Proofs.Node.Spans
import Tabletop.Proofs.Reading.Spans
import Tabletop.Proofs.Reading.Positions
import Tabletop.Node.Build
import Tabletop.Proofs.Node.Build
import Tabletop.Proofs.Node.Shared
import Tabletop.Proofs.Reading.Longest
import Tabletop.Proofs.Expr.Recovery
import Tabletop.Proofs.Node.Reordered
import Tabletop.Proofs.Phrase.Modifiers
import Tabletop.Proofs.Reading.Dice
import Tabletop.Proofs.Scanner.Unbounded
import Tabletop.Proofs.Scanner.Places
import Tabletop.Proofs.Reading.Nesting
import Tabletop.Proofs.Expr.Rendered
import Tabletop.Proofs.Reading.Published
import Tabletop.Proofs.Reading.Containers
import Tabletop.Node.Interpret
import Tabletop.Proofs.Node.Blame
import Tabletop.Proofs.Rejection
import Tabletop.Proofs.Settings
