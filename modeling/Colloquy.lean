import Colloquy.Main
import Colloquy.Proofs.Store.Persistence
import Colloquy.Proofs.Keyed
import Colloquy.Proofs.Store.Record
import Colloquy.Proofs.Query.RoundTrip
import Colloquy.Session
import Colloquy.Proofs.Source.Rows
import Colloquy.Proofs.Database
import Colloquy.Proofs.Store.Contents
import Colloquy.Proofs.CommandLine.Workspace
import Colloquy.Proofs.CommandLine.Coherence
import Colloquy.Proofs.CommandLine.History
import Colloquy.Proofs.Utf8.Order
import Colloquy.Proofs.Message
import Colloquy.Proofs.Source.Memory
import Colloquy.Proofs.Archive
import Colloquy.Proofs.Participants
import Colloquy.Proofs.Background
import Colloquy.Proofs.Background.Registry
import Colloquy.Proofs.Background.Outcome
import Colloquy.Proofs.Engine.Selection
import Colloquy.Proofs.Index.Format
import Colloquy.Proofs.Store.History
import Colloquy.Proofs.Query.Layout
import Colloquy.Proofs.Index.Torn
import Colloquy.Proofs.Store.FlushAll
import Colloquy.Proofs.Store.LongNames
import Colloquy.Proofs.Store.Slots
import Colloquy.Proofs.Predicate.Laws
import Colloquy.Proofs.Predicate.Plain
import Colloquy.Proofs.Engine.FirstResults
import Colloquy.Proofs.Disk.Children
import Colloquy.Proofs.Store.Apart
import Colloquy.Proofs.Value.Comparison
import Colloquy.Proofs.Value.StrictOrder
import Colloquy.Proofs.Engine.Cache
import Colloquy.Proofs.Engine.Failures
import Colloquy.Proofs.Keyword
import Colloquy.Proofs.Value.Display
import Colloquy.Proofs.Value.Written
import Colloquy.Proofs.Keyword.LetterCase
import Colloquy.Proofs.Query.Ending
import Colloquy.Proofs.Query.Position
import Colloquy.Proofs.Query.Construction
import Colloquy.Proofs.Store.Loading
