import WasmTrim.Archive.Crc32
import WasmTrim.Archive.Inflate
import WasmTrim.Archive.Zip
import WasmTrim.Archive.Zip.Basic
import WasmTrim.Archive.Zip.EndRecord
import WasmTrim.Archive.Zip.Header
import WasmTrim.Archive.Zip.Writer
import WasmTrim.Build.Basic
import WasmTrim.Build.Platform
import WasmTrim.Build.Report
import WasmTrim.CommandLine
import WasmTrim.Compression.Block
import WasmTrim.Compression.Data
import WasmTrim.Compression.Frame
import WasmTrim.Compression.XxHash
import WasmTrim.EntryPoints.Basic
import WasmTrim.EntryPoints.OfJson
import WasmTrim.EntryPoints.Shims
import WasmTrim.FileTree.Basic
import WasmTrim.FileTree.Disk
import WasmTrim.FileTree.Path
import WasmTrim.FileTree.View
import WasmTrim.Fingerprint
import WasmTrim.Frozen.Collect
import WasmTrim.Frozen.Layout
import WasmTrim.Frozen.Loader
import WasmTrim.Frozen.Store
import WasmTrim.Guest.Basic
import WasmTrim.Guest.Memory
import WasmTrim.Guest.Trap
import WasmTrim.Guest.Value
import WasmTrim.Host.Function
import WasmTrim.Host.Imports
import WasmTrim.Host.State
import WasmTrim.Instrument
import WasmTrim.Json.Basic
import WasmTrim.Json.Magnitude
import WasmTrim.Json.Object
import WasmTrim.Json.Parse
import WasmTrim.Json.Strict
import WasmTrim.Machine.Assembly
import WasmTrim.Machine.Binary
import WasmTrim.Machine.Code
import WasmTrim.Machine.Constant
import WasmTrim.Machine.Lexeme
import WasmTrim.Machine.Program
import WasmTrim.Machine.Run
import WasmTrim.Machine.Script
import WasmTrim.Machine.Typing
import WasmTrim.Main
import WasmTrim.Memory.Overlay
import WasmTrim.Memory.Words
import WasmTrim.Module.DataSegment
import WasmTrim.Module.Fields
import WasmTrim.Module.File
import WasmTrim.Options
import WasmTrim.Proofs.Build.Performs
import WasmTrim.Proofs.Build.Plan
import WasmTrim.Proofs.Build.Platform
import WasmTrim.Proofs.Build.Publish
import WasmTrim.Proofs.Build.Writes
import WasmTrim.Proofs.Compression.Block
import WasmTrim.Proofs.Compression.Frame
import WasmTrim.Proofs.Compression.Image
import WasmTrim.Proofs.Compression.LastSegment
import WasmTrim.Proofs.Compression.Pieces
import WasmTrim.Proofs.Compression.Refusal
import WasmTrim.Proofs.Compression.Restore
import WasmTrim.Proofs.EntryPoints.InsertionOrder
import WasmTrim.Proofs.EntryPoints.Shims
import WasmTrim.Proofs.EntryPoints.SourceNames
import WasmTrim.Proofs.FileTree.Places
import WasmTrim.Proofs.FileTree.Write
import WasmTrim.Proofs.Fingerprint
import WasmTrim.Proofs.Frozen.Collect
import WasmTrim.Proofs.Frozen.DataPath
import WasmTrim.Proofs.Frozen.Image
import WasmTrim.Proofs.Frozen.Interning
import WasmTrim.Proofs.Frozen.Loader
import WasmTrim.Proofs.Frozen.Pool
import WasmTrim.Proofs.Frozen.Selection
import WasmTrim.Proofs.Guest.Memory
import WasmTrim.Proofs.Guest.Region
import WasmTrim.Proofs.Host.Serving
import WasmTrim.Proofs.Instrument
import WasmTrim.Proofs.Instrument.Iterate
import WasmTrim.Proofs.Keyed
import WasmTrim.Proofs.Memory.Bytes
import WasmTrim.Proofs.Memory.Overlay
import WasmTrim.Proofs.Module.ConstantOffset
import WasmTrim.Proofs.Module.DataSegment
import WasmTrim.Proofs.Module.DataText
import WasmTrim.Proofs.Module.FieldLens
import WasmTrim.Proofs.Module.Fields
import WasmTrim.Proofs.Module.Passes
import WasmTrim.Proofs.Module.QuotedAtoms
import WasmTrim.Proofs.Plan
import WasmTrim.Proofs.Session.Compilation
import WasmTrim.Proofs.Session.CompilerInputs
import WasmTrim.Proofs.Session.Course
import WasmTrim.Proofs.Session.MemoryAccess
import WasmTrim.Proofs.Session.Registers
import WasmTrim.Proofs.Session.Reset
import WasmTrim.Proofs.Session.Storage
import WasmTrim.Proofs.Session.TraceLog
import WasmTrim.Proofs.Session.Tracing
import WasmTrim.Proofs.Sexpr.Balance
import WasmTrim.Proofs.Sexpr.Layout
import WasmTrim.Proofs.Sexpr.Lexable
import WasmTrim.Proofs.Sexpr.Literal
import WasmTrim.Proofs.Sexpr.Parse
import WasmTrim.Proofs.Sexpr.Token
import WasmTrim.Proofs.Stateful
import WasmTrim.Proofs.Strip.Addresses
import WasmTrim.Proofs.Strip.CallSites
import WasmTrim.Proofs.Strip.Evidence
import WasmTrim.Proofs.Strip.Fields
import WasmTrim.Proofs.Strip.Frame
import WasmTrim.Proofs.Strip.InlineImports
import WasmTrim.Proofs.Strip.MoreEvidence
import WasmTrim.Proofs.Strip.NoRemovedCalls
import WasmTrim.Proofs.Strip.Outline
import WasmTrim.Proofs.Strip.Twice
import WasmTrim.Proofs.Text.IntegerLiteral
import WasmTrim.Proofs.Text.Numerals
import WasmTrim.Proofs.Text.Utf8
import WasmTrim.Session.Account
import WasmTrim.Session.Basic
import WasmTrim.Session.History
import WasmTrim.Session.Operation
import WasmTrim.Session.SourceCompilation
import WasmTrim.Session.Tracing
import WasmTrim.Sexpr.Basic
import WasmTrim.Sexpr.Literal
import WasmTrim.Sexpr.Parse
import WasmTrim.Sexpr.Token
import WasmTrim.SortedMap
import WasmTrim.SortedSet
import WasmTrim.Strip.KnownFunctions
import WasmTrim.Strip.Policy
import WasmTrim.Strip.Removal
import WasmTrim.Text.Blank
import WasmTrim.Text.Digits
import WasmTrim.Text.Utf8
import WasmTrim.Toolchain.Basic
import WasmTrim.Toolchain.Carried
import WasmTrim.Toolchain.Commands
import WasmTrim.Toolchain.Texts
import WasmTrim.TraceHook
