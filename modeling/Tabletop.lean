import Tabletop.DiceSource.Replay
import Tabletop.DiceSource.WordTape
import Tabletop.Main
import Tabletop.Session.Action
import Tabletop.Proofs.Form
import Tabletop.Proofs.NetStep
import Tabletop.Proofs.Chain
import Tabletop.Proofs.Unambiguous
import Tabletop.Proofs.MovedDie
import Tabletop.Proofs.Stepping
import Tabletop.Proofs.Canonical
import Tabletop.Proofs.Lookup
import Tabletop.Proofs.Intervals
import Tabletop.Proofs.Uncovered
import Tabletop.Proofs.Clashes
import Tabletop.Proofs.StableSort
import Tabletop.Proofs.WrittenOrder
import Tabletop.Proofs.Kept
import Tabletop.Proofs.Ranks
import Tabletop.Proofs.Totals
import Tabletop.Proofs.Extremes
import Tabletop.Proofs.Replaying
import Tabletop.Proofs.Throws
import Tabletop.Proofs.Evaluation
import Tabletop.Proofs.Attained
import Tabletop.Proofs.RollOn
import Tabletop.Proofs.Recording
import Tabletop.Proofs.Accounting
import Tabletop.Proofs.Stages
import Tabletop.Proofs.FirstOffence
import Tabletop.Proofs.RecordReplay
import Tabletop.Proofs.Lines
import Tabletop.Proofs.SameShape
import Tabletop.Proofs.Variables
import Tabletop.Proofs.LineByLine
import Tabletop.Proofs.Markup
import Tabletop.Proofs.ShownDie
import Tabletop.Proofs.Pieces
import Tabletop.Proofs.Readback
import Tabletop.Proofs.KeyForms
import Tabletop.Proofs.KeyTexts
import Tabletop.Proofs.EveryDie
import Tabletop.Proofs.ErrorReports
import Tabletop.Proofs.Stretches
