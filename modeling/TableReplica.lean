import TableReplica.Apply.BaseFile
import TableReplica.Apply.Blocks
import TableReplica.Apply.Chunks
import TableReplica.Apply.Directory
import TableReplica.Apply.Replicator
import TableReplica.Apply.Session
import TableReplica.Apply.Thrift
import TableReplica.Bytes
import TableReplica.CommandLine.Arguments
import TableReplica.CommandLine.Grammar
import TableReplica.CommandLine.Program
import TableReplica.CommandLine.Report
import TableReplica.Config
import TableReplica.Error
import TableReplica.Files.Content
import TableReplica.Files.Directories
import TableReplica.Files.FileSystem
import TableReplica.Files.Operations
import TableReplica.Files.Path
import TableReplica.Files.Refusal
import TableReplica.Main
import TableReplica.Proofs.Acceptance
import TableReplica.Proofs.Accounting
import TableReplica.Proofs.Archiving
import TableReplica.Proofs.Attachment
import TableReplica.Proofs.BlockOffsets
import TableReplica.Proofs.CatchingUp
import TableReplica.Proofs.Codec.Canonical
import TableReplica.Proofs.Codec.Completion
import TableReplica.Proofs.Codec.Digits
import TableReplica.Proofs.Codec.Strings
import TableReplica.Proofs.CommandLine.Commands
import TableReplica.Proofs.CommandLine.Deadline
import TableReplica.Proofs.CommandLine.Environment
import TableReplica.Proofs.CommandLine.Values
import TableReplica.Proofs.Confinement
import TableReplica.Proofs.Failures
import TableReplica.Proofs.Faultless
import TableReplica.Proofs.Files.Edits
import TableReplica.Proofs.Files.Lengths
import TableReplica.Proofs.Files.Moving
import TableReplica.Proofs.Files.Names
import TableReplica.Proofs.Files.Patching
import TableReplica.Proofs.Files.Renaming
import TableReplica.Proofs.Files.Walking
import TableReplica.Proofs.Footprints
import TableReplica.Proofs.Format.Beginning
import TableReplica.Proofs.Format.Changeset
import TableReplica.Proofs.Format.Grammar
import TableReplica.Proofs.Format.Halting
import TableReplica.Proofs.Format.Landmarks
import TableReplica.Proofs.Format.Numerals
import TableReplica.Proofs.Format.Offending
import TableReplica.Proofs.Format.Parsing
import TableReplica.Proofs.Format.Reading
import TableReplica.Proofs.Histories
import TableReplica.Proofs.Insistence
import TableReplica.Proofs.Interruption
import TableReplica.Proofs.Locking
import TableReplica.Proofs.Machine.Mirroring
import TableReplica.Proofs.Machine.Programs
import TableReplica.Proofs.Machine.Reading
import TableReplica.Proofs.Machine.Words
import TableReplica.Proofs.Meaning
import TableReplica.Proofs.Outcome
import TableReplica.Proofs.Plan.Arrival
import TableReplica.Proofs.Plan.Basic
import TableReplica.Proofs.Plan.Carrying
import TableReplica.Proofs.Plan.Contents
import TableReplica.Proofs.Plan.Editing
import TableReplica.Proofs.Plan.Emission
import TableReplica.Proofs.Plan.Finality
import TableReplica.Proofs.Plan.Following
import TableReplica.Proofs.Plan.Perform
import TableReplica.Proofs.Plan.Repeating
import TableReplica.Proofs.Plan.Steadiness
import TableReplica.Proofs.Plan.Stopping
import TableReplica.Proofs.Plan.Tracking
import TableReplica.Proofs.Progress
import TableReplica.Proofs.ReadBoundaries
import TableReplica.Proofs.Recovery
import TableReplica.Proofs.Rejection
import TableReplica.Proofs.RenameFallback
import TableReplica.Proofs.Reordering
import TableReplica.Proofs.Replacement
import TableReplica.Proofs.Retention
import TableReplica.Proofs.Stages
import TableReplica.Proofs.Stream.AtOnce
import TableReplica.Proofs.Stream.Committing
import TableReplica.Proofs.Stream.Delivery
import TableReplica.Proofs.Stream.Enough
import TableReplica.Proofs.Stream.Field
import TableReplica.Proofs.Stream.Mending
import TableReplica.Proofs.Stream.Operations
import TableReplica.Proofs.Stream.Spending
import TableReplica.Proofs.Text.Decimal
import TableReplica.Proofs.Truncation
import TableReplica.Proofs.Trust
import TableReplica.Proofs.Twins
import TableReplica.Proofs.Updates
import TableReplica.Proofs.WriteAhead
import TableReplica.Text.Integer
import TableReplica.Text.Quoted
import TableReplica.Text.Utf8
import TableReplica.Toml.Document
import TableReplica.Toml.Reader
import TableReplica.Toml.Number
import TableReplica.Toml.Quote
import TableReplica.Toml.Value
import TableReplica.Transport.Buffer
import TableReplica.Transport.Connection
import TableReplica.Transport.Cursor
import TableReplica.Transport.Feed
import TableReplica.Transport.Supply
import TableReplica.Transport.Waiting
import TableReplica.Wire.Changeset
import TableReplica.Wire.Varint
