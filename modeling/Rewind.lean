import Rewind.Bytes
import Rewind.Checkpoints
import Rewind.Command
import Rewind.Config.Basic
import Rewind.Config.Environment
import Rewind.Config.Json
import Rewind.Deck.Basic
import Rewind.Deck.Batch
import Rewind.Deck.Drain
import Rewind.Deck.Frame
import Rewind.Deck.Movie
import Rewind.Deck.Seek
import Rewind.Deck.Transport
import Rewind.Frontend
import Rewind.Gzip.Bits
import Rewind.Gzip.Checksum
import Rewind.Gzip.Error
import Rewind.Gzip.Huffman
import Rewind.Gzip.Inflate
import Rewind.Gzip.Member
import Rewind.Machine.Accumulator
import Rewind.Machine.Core
import Rewind.Machine.Cpu
import Rewind.Machine.Interrupts
import Rewind.Machine.LookupTable
import Rewind.Machine.Peripherals
import Rewind.Machine.Snapshot
import Rewind.Movie.Error
import Rewind.Movie.Freeze
import Rewind.Movie.Header
import Rewind.Movie.Log
import Rewind.Movie.Recording
import Rewind.Movie.Sample
import Rewind.Rom
import Rewind.Savestate.Encoding
import Rewind.Savestate.Error
import Rewind.Savestate.Queue
import Rewind.Savestate.Reader
import Rewind.Savestate.Request
import Rewind.Savestate.Transfer
import Rewind.Seek
import Rewind.Storage.Fault
import Rewind.Storage.Files
import Rewind.Storage.Pathname
import Rewind.Storage.Tree
import Rewind.Text.Blank
import Rewind.Text.Hidden
import Rewind.Text.Number
import Rewind.Text.Quoted
import Rewind.Text.Utf8
import Rewind.Warp
import Rewind.Wire.Layout
import Rewind.Wire.Register
import Rewind.Main
import Rewind.Proofs.Wire.LayoutLaws
import Rewind.Proofs.Machine.SnapshotLayout
import Rewind.Proofs.Savestate.Reading
import Rewind.Proofs.Movie.FreezeLayout
import Rewind.Proofs.Savestate.RoundTrip
import Rewind.Proofs.Savestate.Cuts
import Rewind.Proofs.Savestate.Batches
import Rewind.Proofs.Savestate.Loading
import Rewind.Proofs.Machine.Replayable
import Rewind.Proofs.Savestate.Accepted
import Rewind.Proofs.Warp
import Rewind.Proofs.Seek
import Rewind.Proofs.Movie.Polling
import Rewind.Proofs.Checkpoints.Laws
import Rewind.Proofs.Deck.Tape
import Rewind.Proofs.Deck.WarpCheckpoints
import Rewind.Proofs.Deck.Requests
import Rewind.Proofs.Deck.InStep
import Rewind.Proofs.Deck.Frames
import Rewind.Proofs.Deck.Starts
import Rewind.Proofs.Deck.SeekReplay
import Rewind.Proofs.Deck.Course
import Rewind.Proofs.Deck.WarpReplay
import Rewind.Proofs.Deck.FailedLoads
import Rewind.Proofs.Deck.QuietLoads
import Rewind.Proofs.Deck.PendingLoads
import Rewind.Proofs.Text.Utf8
import Rewind.Proofs.Movie.RecordingLayout
import Rewind.Proofs.Deck.Captures
import Rewind.Proofs.Deck.Rounds
import Rewind.Proofs.Machine.Programs
import Rewind.Proofs.Deck.Mirrored
import Rewind.Proofs.Storage.Extension
import Rewind.Proofs.Storage.Writes
import Rewind.Proofs.Storage.Rewrites
import Rewind.Proofs.Movie.FileRoundTrip
import Rewind.Proofs.Deck.Beginnings
import Rewind.Proofs.Deck.Playback
import Rewind.Proofs.Deck.Calls
import Rewind.Proofs.Deck.Operations
import Rewind.Proofs.Deck.Steady
import Rewind.Proofs.Deck.Nesting
import Rewind.Proofs.Deck.Cursor
import Rewind.Proofs.Deck.SeekTargets
import Rewind.Proofs.Deck.MovieFiles
import Rewind.Proofs.Deck.Anchors
import Rewind.Proofs.Deck.Warnings
import Rewind.Proofs.Deck.Branches
import Rewind.Proofs.Deck.Undo
import Rewind.Proofs.Deck.Refusals
import Rewind.Proofs.Deck.Answers
import Rewind.Proofs.Deck.UndoHistory
import Rewind.Proofs.Deck.DuplicateSaves
import Rewind.Proofs.Savestate.Expressible
import Rewind.Proofs.Savestate.Marks
import Rewind.Proofs.Deck.Loads
import Rewind.Proofs.Deck.Standstill
import Rewind.Proofs.Deck.RerecordCheckpoints
import Rewind.Proofs.Movie.HeaderEdits
import Rewind.Proofs.Savestate.RepeatedSaves
import Rewind.Proofs.Checkpoints.Newest
import Rewind.Proofs.Deck.TimeTravel
import Rewind.Proofs.Checked.Reader
import Rewind.Proofs.Checked.State
import Rewind.Proofs.Checked.Recording
import Rewind.Proofs.Checked.Encoding
import Rewind.Proofs.Text.Decimal
import Rewind.Proofs.Deck.FailedSaves
import Rewind.Proofs.Extraction
import Rewind.Proofs.Machine.Interrupts
import Rewind.Proofs.Savestate.Transfers
import Rewind.Proofs.Config.Environment
import Rewind.Proofs.Deck.OwnMovies
