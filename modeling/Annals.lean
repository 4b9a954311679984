import Annals.Catalog.Reader
import Annals.Course
import Annals.Dice.Generator
import Annals.Entry
import Annals.Family.Tree
import Annals.LogLevel
import Annals.Simulation
import Annals.Catalog.Directory
import Annals.Catalog.Shipped
import Annals.Cli.Disk
import Annals.Cli.Program
import Annals.Main
import Annals.Proofs.Course.Absent
import Annals.Proofs.Course.Forest
import Annals.Proofs.Course.Scan
import Annals.Proofs.Simulation.Report
import Annals.Proofs.Family.Turn
import Annals.Proofs.Simulation.Whereabouts
import Annals.Proofs.Entry.Lines
import Annals.Proofs.Course.Bounds
import Annals.Proofs.Simulation.Bounds
import Annals.Proofs.Catalog.Pruned
import Annals.Proofs.Catalog.Reload
import Annals.Proofs.Course.Pruned
import Annals.Proofs.Simulation.Pruned
import Annals.Proofs.Calendar.Shift
import Annals.Proofs.World.Shift
import Annals.Proofs.Course.Shift
import Annals.Proofs.Family.Dates
import Annals.Proofs.Family.Shift
import Annals.Proofs.Simulation.Shift
import Annals.Proofs.Dice.Certain
import Annals.Proofs.Course.Certain
import Annals.Proofs.Cli.Program
import Annals.Proofs.Simulation.Births
import Annals.Proofs.Simulation.Range
import Annals.Proofs.Course.Faults
import Annals.Proofs.Simulation.Spans
import Annals.Proofs.Family.Ageing
import Annals.Proofs.Family.Crown
import Annals.Proofs.Family.Accounts
import Annals.Proofs.Family.Rulers
import Annals.Proofs.Simulation.Retries
import Annals.Proofs.Family.Fates
import Annals.Proofs.Family.Descent
import Annals.Proofs.Family.Pedigree
import Annals.Proofs.Family.Candidates
import Annals.Proofs.Course.Counted
import Annals.Proofs.Course.Draws
import Annals.Proofs.Course.Length
import Annals.Proofs.Catalog.Directory
import Annals.Proofs.World.Changes
import Annals.Proofs.World.Order
import Annals.Proofs.Course.Depth
import Annals.Proofs.Simulation.Depth
import Annals.Proofs.Catalog.Decoders
import Annals.Proofs.Family.Branches
import Annals.Proofs.Json.Spelling
import Annals.Proofs.Json.Reordered
import Annals.Proofs.World.Encoding
import Annals.Proofs.Saved
import Annals.Proofs.Catalog.Faults
