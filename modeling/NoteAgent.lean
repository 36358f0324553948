import NoteAgent.Agent.Loop
import NoteAgent.Agent.Prompt
import NoteAgent.Attempt
import NoteAgent.Calendar.Reading
import NoteAgent.Calendar.Stamp
import NoteAgent.Chat.Compaction
import NoteAgent.Chat.Deed
import NoteAgent.Chat.Event
import NoteAgent.Chat.Hall
import NoteAgent.Chat.Table
import NoteAgent.Chat.Title
import NoteAgent.Chat.Titling
import NoteAgent.Chat.Transaction
import NoteAgent.Chat.Turn
import NoteAgent.Chat.Use
import NoteAgent.Http.Identity
import NoteAgent.Http.Perform
import NoteAgent.Http.Route
import NoteAgent.Http.Schema
import NoteAgent.Http.Startup
import NoteAgent.Json.Reader
import NoteAgent.Json.Shown
import NoteAgent.Json.Writer
import NoteAgent.Lock
import NoteAgent.Machine
import NoteAgent.Main
import NoteAgent.Model.Client
import NoteAgent.Model.Connection
import NoteAgent.Model.Reply
import NoteAgent.Note.Indexing
import NoteAgent.Note.Use
import NoteAgent.Numeral.Real
import NoteAgent.Numeral.Shortest
import NoteAgent.Seed.Options
import NoteAgent.Seed.Run
import NoteAgent.Settings
import NoteAgent.Tag
import NoteAgent.Text.Cut
import NoteAgent.Text.Quoted
import NoteAgent.Tool.Arguments
import NoteAgent.Tool.Call
import NoteAgent.Tool.Declared
import NoteAgent.Tool.Dispatch
import NoteAgent.Tool.Edit
import NoteAgent.Tool.Listing
import NoteAgent.Tool.Registry
import NoteAgent.Vector.Filter
import NoteAgent.Vector.Hit
import NoteAgent.Vector.Index
import NoteAgent.Vector.Letters
import NoteAgent.Vector.Opening
import NoteAgent.Vector.Remote
import NoteAgent.Vector.Service
import NoteAgent.World
import NoteAgent.World.Chats
import NoteAgent.World.Notes
import NoteAgent.Proofs.NoteKeys
import NoteAgent.Proofs.IndexReach
import NoteAgent.Proofs.ToolReach
import NoteAgent.Proofs.ChatTable
import NoteAgent.Proofs.ChatStore
import NoteAgent.Proofs.ChatSteps
import NoteAgent.Proofs.TurnReach
import NoteAgent.Proofs.ChatLedger
import NoteAgent.Proofs.ChatOverlap
import NoteAgent.Proofs.ChatRace
import NoteAgent.Proofs.LockSafety
import NoteAgent.Proofs.IndexRows
import NoteAgent.Proofs.NoteWrites
import NoteAgent.Proofs.NoteMirror
import NoteAgent.Proofs.EditOverlap
import NoteAgent.Proofs.IndexRace
import NoteAgent.Proofs.TextRace
import NoteAgent.Proofs.AgentRounds
import NoteAgent.Proofs.AgentTranscript
import NoteAgent.Proofs.AgentBounds
import NoteAgent.Proofs.EventShape
import NoteAgent.Proofs.TurnSpeech
import NoteAgent.Proofs.TurnRecord
import NoteAgent.Proofs.SummaryTransaction
import NoteAgent.Proofs.CompactionFailure
import NoteAgent.Proofs.TwoRuns
import NoteAgent.Proofs.IndexIsolation
import NoteAgent.Proofs.NoteViews
import NoteAgent.Proofs.ToolSecrecy
import NoteAgent.Proofs.SessionSecrecy
import NoteAgent.Proofs.JsonRoundTrip
import NoteAgent.Proofs.EventFrames
import NoteAgent.Proofs.ChatRows
import NoteAgent.Proofs.TitleSteps
import NoteAgent.Proofs.TitleRace
import NoteAgent.Proofs.ToolAtomicity
import NoteAgent.Proofs.FilterMeaning
import NoteAgent.Proofs.TagLookup
import NoteAgent.Proofs.IndexDrift
import NoteAgent.Proofs.IndexRepair
import NoteAgent.Proofs.ArgumentPassing
import NoteAgent.Proofs.StepDown
import NoteAgent.Proofs.CompactionCut
import NoteAgent.Proofs.ReplyMembers
import NoteAgent.Proofs.Citations
import NoteAgent.Proofs.CivilDays
import NoteAgent.Proofs.NoteListing
import NoteAgent.Proofs.NoteHistory
import NoteAgent.Proofs.DayTexts
import NoteAgent.Proofs.NoteQuery
import NoteAgent.Proofs.BulkIndexing
import NoteAgent.Proofs.EmbeddingBatches
import NoteAgent.Proofs.NamelessCalls
import NoteAgent.Proofs.TitleOnce
import NoteAgent.Proofs.TagGrowth
import NoteAgent.Proofs.TitleText
import NoteAgent.Proofs.AcceptedUsers
import NoteAgent.Proofs.WatchedCalls
import NoteAgent.Proofs.CollectionShelf
