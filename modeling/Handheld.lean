/-
# Handheld

The board of a handheld console as a clocked core sees it: address map, images,
working memory, hardware registers, screen and timing audit, the machine that
steps them, and snapshots of its state.
-/

import Handheld.Core.Recorder
import Handheld.Core.Scripted
import Handheld.Document.Records
import Handheld.Machine.Notices
import Handheld.Machine.Run
import Handheld.Machine.Snapshot
import Handheld.Proofs.Board.Effects
import Handheld.Proofs.Refresh.Hunt
import Handheld.Proofs.Board.Moves
import Handheld.Proofs.Machine.Stages
import Handheld.Proofs.Audit.Tally
import Handheld.Proofs.Wire.Spelling
import Handheld.Proofs.Rom
import Handheld.Proofs.Machine.Reachable
import Handheld.Proofs.Machine.Course
import Handheld.Proofs.Machine.Snapshot
import Handheld.Proofs.Machine.Steps
import Handheld.Proofs.Bitmap
import Handheld.Proofs.Audit.Trace
import Handheld.Proofs.Machine.AuditTrace
import Handheld.Proofs.AddressMap
import Handheld.Proofs.Board.Memory
import Handheld.Proofs.Machine.FlatMemory
import Handheld.Proofs.Board.Limits
import Handheld.Proofs.Board.Progress
import Handheld.Proofs.Machine.Progress
import Handheld.Proofs.Machine.Actions
import Handheld.Proofs.Register.History
import Handheld.Proofs.Register.Writes
import Handheld.Proofs.Board.Interrupts
import Handheld.Proofs.Machine.Histories
import Handheld.Proofs.Machine.PowerOn
import Handheld.Proofs.Machine.Halting
import Handheld.Proofs.Machine.Registers
import Handheld.Proofs.Machine.FrameCount
import Handheld.Proofs.Wire.Incremental
import Handheld.Proofs.Machine.SnapshotFormat
import Handheld.Proofs.Machine.Pairs
import Handheld.Proofs.Machine.Handling
import Handheld.Proofs.Machine.ScriptedPairs
import Handheld.Proofs.Machine.Reset
import Handheld.Proofs.Machine.Answers
import Handheld.Proofs.Machine.Unobserved
import Handheld.Proofs.Machine.PairedAnswers
import Handheld.Proofs.Machine.Mirror
import Handheld.Proofs.Board.Reads
import Handheld.Proofs.Machine.InvisibleReads
import Handheld.Proofs.Machine.FramesShown
import Handheld.Proofs.Machine.ForeignSnapshots
import Handheld.Proofs.Refresh.Timing
import Handheld.Proofs.Lcd.Contrast
import Handheld.Proofs.Lcd.Painting
import Handheld.Proofs.Refresh.Tiles
import Handheld.Proofs.Board.Reachable
import Handheld.Proofs.Board.ReadPaths
import Handheld.Proofs.Board.Writes
import Handheld.Proofs.Register.Seconds
import Handheld.Proofs.Machine.SecondsCount
import Handheld.Proofs.Oscillator
import Handheld.Proofs.Machine.RealTimeClock
import Handheld.Proofs.Rom.Coverage
import Handheld.Proofs.Text.Splitting
import Handheld.Proofs.Text.Numerals
import Handheld.Proofs.CycleTable.Lines
import Handheld.Proofs.CycleTable.Spellings
import Handheld.Proofs.CycleTable.RoundTrip
import Handheld.Proofs.Audit.Ranking
import Handheld.Proofs.AddressMap.Partition
import Handheld.Proofs.Audit.Calls
import Handheld.Proofs.Audit.Coverage
import Handheld.Proofs.WordAddresses
