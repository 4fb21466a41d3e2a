import LuaLiterals.Dialect
import LuaLiterals.Fault
import LuaLiterals.Grammar
import LuaLiterals.Host.Device
import LuaLiterals.Host.Hooks
import LuaLiterals.Host.Session
import LuaLiterals.Json.Form
import LuaLiterals.Json.Piece
import LuaLiterals.Json.Value
import LuaLiterals.Kind
import LuaLiterals.Literal
import LuaLiterals.Offer
import LuaLiterals.Phase
import LuaLiterals.Position
import LuaLiterals.Reader
import LuaLiterals.Recognizer
import LuaLiterals.Scan
import LuaLiterals.Scan.Moves
import LuaLiterals.Scan.Progress
import LuaLiterals.Session
import LuaLiterals.Snapshot
import LuaLiterals.Splitter
import LuaLiterals.Splitter.Run
import LuaLiterals.Trace
import LuaLiterals.Proofs.Runs
import LuaLiterals.Proofs.Answers
import LuaLiterals.Proofs.Suspension
import LuaLiterals.Proofs.Places
import LuaLiterals.Proofs.Tiling
import LuaLiterals.Proofs.History
import LuaLiterals.Proofs.HostSessions
import LuaLiterals.Proofs.LongBrackets
import LuaLiterals.Proofs.Quotes
import LuaLiterals.Proofs.Openings
import LuaLiterals.Proofs.Findings
import LuaLiterals.Proofs.Outlines
import LuaLiterals.Proofs.Lexing
import LuaLiterals.Proofs.Lookahead
import LuaLiterals.Proofs.Boundaries
import LuaLiterals.Proofs.Layout
import LuaLiterals.Proofs.Slices
import LuaLiterals.Proofs.Extension
import LuaLiterals.Proofs.Probes
import LuaLiterals.Proofs.Writes
import LuaLiterals.Proofs.Visits
import LuaLiterals.Proofs.Snapshots
import LuaLiterals.Proofs.Whereabouts
import LuaLiterals.Proofs.LongBodies
import LuaLiterals.Proofs.ShortBodies
import LuaLiterals.Proofs.OpeningScans
import LuaLiterals.Proofs.Filtering
import LuaLiterals.Proofs.Calls
import LuaLiterals.Proofs.Spans
import LuaLiterals.Proofs.Levels
import LuaLiterals.Proofs.Spelling
import LuaLiterals.Proofs.Rearranging
import LuaLiterals.Proofs.Records
import LuaLiterals.Proofs.Refusals
import LuaLiterals.Proofs.Exchange
