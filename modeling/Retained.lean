import Retained.Heap.Alike
import Retained.Json.Write
import Retained.Main
import Retained.Proofs.Store.Closure
import Retained.Proofs.Walk.Path
import Retained.Proofs.Walk.Step
import Retained.Proofs.Walk.Alone
import Retained.Proofs.Dump.Attribution
import Retained.Proofs.Schedule.Attribution
import Retained.Proofs.Schedule.Failure
import Retained.Proofs.Schedule.Overlap
import Retained.Proofs.Dump.Builtins
import Retained.Proofs.Snapshot.Defect
import Retained.Proofs.Snapshot.Layout
import Retained.Proofs.Snapshot.Acyclic
import Retained.Proofs.Snapshot.Faithful
import Retained.Proofs.Schedule.Liveness
import Retained.Proofs.Dump.Outcome
import Retained.Proofs.Cli
import Retained.Proofs.Dump.Restricted
import Retained.Proofs.Label.Grammar
import Retained.Proofs.Walk.Exact
import Retained.Proofs.Label.Reading
import Retained.Proofs.Label.Printing
import Retained.Proofs.Store.History
import Retained.Proofs.Dump.Resolve
import Retained.Proofs.Dump.Rearranged
import Retained.Proofs.Snapshot.Rearranged
import Retained.Proofs.Configuration.Canonical
import Retained.Proofs.Dump.Address
import Retained.Proofs.Mode.Printing
import Retained.Proofs.Mode.Reading
import Retained.Proofs.Heap.Size
import Retained.Proofs.Walk.History
import Retained.Proofs.Walk.Recursive
import Retained.Proofs.Walk.Cancelled
import Retained.Proofs.Schedule.Cancelled
import Retained.Proofs.Dump.Cancelled
import Retained.Tally.Recording
import Retained.Proofs.Tally.Columns
import Retained.Proofs.Tally.Recording
import Retained.Proofs.Tally.SideBySide
import Retained.Proofs.Text.Utf8
import Retained.Proofs.Tally.Render
import Retained.Proofs.Store.Recount
import Retained.Proofs.Dump.Permits
import Retained.Proofs.Snapshot.Echo
