import VideoCore.Area.Basic
import VideoCore.Area.Index
import VideoCore.Area.Reference
import VideoCore.Area.Registry
import VideoCore.Area.Request
import VideoCore.Area.Sweep
import VideoCore.Bits
import VideoCore.Bytes
import VideoCore.CommandLine.Arguments
import VideoCore.CommandLine.Path
import VideoCore.CommandLine.Run
import VideoCore.Compressed
import VideoCore.Dump
import VideoCore.Fault
import VideoCore.Hexdump
import VideoCore.Main
import VideoCore.Memory.Basic
import VideoCore.Memory.Buffer
import VideoCore.Memory.Window
import VideoCore.Number.Binary
import VideoCore.Number.Decimal
import VideoCore.Packet.Basic
import VideoCore.Packet.Catalogue
import VideoCore.Packet.Effect
import VideoCore.Proofs.Area.Canonical
import VideoCore.Proofs.Area.Count
import VideoCore.Proofs.Area.Index
import VideoCore.Proofs.Area.Iteration
import VideoCore.Proofs.Area.Registry
import VideoCore.Proofs.Area.Request
import VideoCore.Proofs.Area.Sweep
import VideoCore.Proofs.Bits
import VideoCore.Proofs.Compressed
import VideoCore.Proofs.Dump.Printing
import VideoCore.Proofs.Dump.Run
import VideoCore.Proofs.Dump.Safety
import VideoCore.Proofs.Dump.Sections
import VideoCore.Proofs.Dump.Termination
import VideoCore.Proofs.Dump.Worklist
import VideoCore.Proofs.Hexdump
import VideoCore.Proofs.Memory.Reading
import VideoCore.Proofs.Memory.Rearrangement
import VideoCore.Proofs.Memory.Resolution
import VideoCore.Proofs.Memory.Translation
import VideoCore.Proofs.Number.Binary
import VideoCore.Proofs.Outcome
import VideoCore.Proofs.Packet.Effect
import VideoCore.Proofs.Packet.Reading
import VideoCore.Proofs.Packet.Writing
import VideoCore.Proofs.Record.Catalogue
import VideoCore.Proofs.Record.Decoding
import VideoCore.Proofs.Record.Encoding
import VideoCore.Proofs.Record.Layout
import VideoCore.Proofs.Record.Listing
import VideoCore.Proofs.Record.Lossless
import VideoCore.Proofs.Record.Placement
import VideoCore.Proofs.Record.Position
import VideoCore.Proofs.Record.Range
import VideoCore.Proofs.Record.Rank
import VideoCore.Proofs.Record.Storage
import VideoCore.Proofs.Record.Update
import VideoCore.Proofs.Record.Writing
import VideoCore.Proofs.Register.Reading
import VideoCore.Proofs.Register.Setting
import VideoCore.Proofs.Register.Storage
import VideoCore.Proofs.Report.Matching
import VideoCore.Proofs.Report.Regular
import VideoCore.Proofs.Report.Safe
import VideoCore.Proofs.Report.Traced
import VideoCore.Proofs.Session.Rearrangement
import VideoCore.Proofs.Session.Registry
import VideoCore.Proofs.Session.Safety
import VideoCore.Proofs.Session.Worklist
import VideoCore.Proofs.Shader.Extent
import VideoCore.Proofs.Shader.Program
import VideoCore.Proofs.Shader.Record
import VideoCore.Proofs.Shader.Walk
import VideoCore.Proofs.SignExtension
import VideoCore.Proofs.Snapshot.Acceptance
import VideoCore.Proofs.Snapshot.Container
import VideoCore.Proofs.Snapshot.RoundTrip
import VideoCore.Proofs.Snapshot.State
import VideoCore.Proofs.Snapshot.Writing
import VideoCore.Proofs.Text.Hexadecimal
import VideoCore.Proofs.Walk.Agreement
import VideoCore.Proofs.Walk.Area
import VideoCore.Proofs.Walk.Cursor
import VideoCore.Proofs.Walk.Finding
import VideoCore.Proofs.Walk.Item
import VideoCore.Proofs.Walk.Listing
import VideoCore.Proofs.Walk.Locality
import VideoCore.Proofs.Walk.Matching
import VideoCore.Proofs.Walk.Reference
import VideoCore.Proofs.Walk.Requests
import VideoCore.Proofs.Walk.Resumption
import VideoCore.Proofs.Walk.RoundTrip
import VideoCore.Proofs.Walk.Run
import VideoCore.Proofs.Walk.Source
import VideoCore.Proofs.Walk.Stops
import VideoCore.Proofs.Walk.Tiling
import VideoCore.Proofs.Walk.Truncation
import VideoCore.Proofs.Walk.Unresolved
import VideoCore.Record.Basic
import VideoCore.Record.Catalogue
import VideoCore.Record.Encoding
import VideoCore.Record.Fields
import VideoCore.Record.Layout
import VideoCore.Register.Basic
import VideoCore.Register.Catalogue
import VideoCore.Register.Noted.Basic
import VideoCore.Register.Noted.Printer
import VideoCore.Register.Printer
import VideoCore.Register.Workings
import VideoCore.Report.Entry
import VideoCore.Report.Event
import VideoCore.Report.Printer
import VideoCore.Report.Recording
import VideoCore.Report.Unresolved
import VideoCore.Session
import VideoCore.Shader.Program
import VideoCore.Shader.Record
import VideoCore.Shader.Walk
import VideoCore.Snapshot.Container
import VideoCore.Snapshot.State
import VideoCore.Text.Blank
import VideoCore.Text.Hexadecimal
import VideoCore.Text.Integer
import VideoCore.Text.Printable
import VideoCore.Text.Quoted
import VideoCore.Value.Basic
import VideoCore.Value.Names
import VideoCore.Value.Printer
import VideoCore.Walk.Area
import VideoCore.Walk.Cursor
import VideoCore.Walk.Item
import VideoCore.Walk.List
import VideoCore.Walk.Run
