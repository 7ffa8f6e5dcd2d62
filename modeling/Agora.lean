import Agora.Board
import Agora.Cache
import Agora.Command.Line
import Agora.Command.Run
import Agora.Compiler
import Agora.Connection
import Agora.Completion.Chat
import Agora.Completion.Client
import Agora.Completion.Error
import Agora.Executor
import Agora.Intent
import Agora.Json.Basic
import Agora.Json.Number
import Agora.Json.Printer
import Agora.Json.Reader
import Agora.Json.Token
import Agora.Main
import Agora.Number.Binary64
import Agora.Number.Digits
import Agora.Number.Hex
import Agora.Number.Shortest
import Agora.Reply.Fence
import Agora.Reply.Statement
import Agora.Scalar
import Agora.Schema
import Agora.Settings.Basic
import Agora.Settings.Environment
import Agora.Settings.Location
import Agora.Settings.Reader
import Agora.Sql.Kind
import Agora.Sql.Lexer
import Agora.Sql.Token
import Agora.Store.Change
import Agora.Store.Database
import Agora.Store.Evaluation
import Agora.Store.Lexeme
import Agora.Store.Reading
import Agora.Store.Saved
import Agora.Store.Session
import Agora.Store.Statement
import Agora.Store.Value
import Agora.Synthesis.Error
import Agora.Synthesis.Instruction
import Agora.Synthesis.Synthesizer
import Agora.Task
import Agora.Text.Alphanumeric
import Agora.Text.Ascii
import Agora.Text.Blank
import Agora.Text.Invisible
import Agora.Text.Quoted
import Agora.Text.Ranges
import Agora.Text.Timestamp
import Agora.Toggle.Mode
import Agora.Toggle.Reaction
import Agora.Toggle.Vote
import Agora.Toml.Document
import Agora.Toml.Plain
import Agora.Toml.Text
import Agora.Toml.Value
import Agora.Proofs.Board.Request
import Agora.Proofs.Board.Independence
import Agora.Proofs.Board.Pool
import Agora.Proofs.Board.Freshness
import Agora.Proofs.Cache.History
import Agora.Proofs.Reply.Fence
import Agora.Proofs.Reply.Statement
import Agora.Proofs.Reply.Image
import Agora.Proofs.Reply.Marker
import Agora.Proofs.Reply.Fenced
import Agora.Proofs.Reply.Glued
import Agora.Proofs.Number.Digits
import Agora.Proofs.Intent.Quote
import Agora.Proofs.Connection
import Agora.Proofs.Intent.Distinct
import Agora.Proofs.Sql.Lookahead
import Agora.Proofs.Sql.Enclosed
import Agora.Proofs.Sql.Composition
import Agora.Proofs.Sql.SecondStatement
import Agora.Proofs.Board.Provenance
import Agora.Proofs.Store.Record
import Agora.Proofs.Store.Change
import Agora.Proofs.Store.Database
import Agora.Proofs.Store.Session
import Agora.Proofs.Store.Batch
import Agora.Proofs.Task.Ending
import Agora.Proofs.Board.Refusal
import Agora.Proofs.Toggle.VoteBatch
import Agora.Proofs.Toggle.Vote
import Agora.Proofs.Toggle.VoteRun
import Agora.Proofs.Toggle.Total
import Agora.Proofs.Board.VoteCount
import Agora.Proofs.Toggle.Batch
import Agora.Proofs.Toggle.Reaction
import Agora.Proofs.Toggle.ReactionRun
import Agora.Proofs.Toggle.Compiled
import Agora.Proofs.Toggle.Agreement
import Agora.Proofs.Toggle.Literal
import Agora.Proofs.Toggle.Anywhere
import Agora.Proofs.Toggle.Key
import Agora.Proofs.Toggle.Phase
import Agora.Proofs.Race.Run
import Agora.Proofs.Race.Failure
import Agora.Proofs.Race.Isolation
import Agora.Proofs.Race.Serial
import Agora.Proofs.Race.Safety
import Agora.Proofs.Toggle.CurrentVote
import Agora.Proofs.Reply.Offset
import Agora.Proofs.Reply.RecordedKind
import Agora.Proofs.Sql.MainStatement
import Agora.Proofs.Settings.Expansion
import Agora.Proofs.Settings.DatabasePath
import Agora.Proofs.Synthesis.Deferred
import Agora.Proofs.Json.Token
import Agora.Proofs.Json.RoundTrip
import Agora.Proofs.Completion.Chat
import Agora.Proofs.Sql.Trivia
import Agora.Proofs.Reply.Passes
import Agora.Proofs.Number.Numeral
import Agora.Proofs.Scalar.Literal
import Agora.Proofs.Json.Grammar
import Agora.Proofs.Json.Accepted
import Agora.Proofs.Json.Order
import Agora.Proofs.Board.Detail
