import VirtualPerson.Transition
import VirtualPerson.Stateful
import VirtualPerson.Retry
import VirtualPerson.ReadThrough
import VirtualPerson.Interleaving
import VirtualPerson.Program
import VirtualPerson.Machine
import VirtualPerson.CreditAccount
import VirtualPerson.Python.Str
import VirtualPerson.Python.Assoc
import VirtualPerson.Python.Best
import VirtualPerson.Python.Argsort
import VirtualPerson.Python.Slice
import VirtualPerson.Python.Words
import VirtualPerson.Python.Regex
import VirtualPerson.Python.Round
import VirtualPerson.Python.Value
import VirtualPerson.Python.Float
import VirtualPerson.Python.Json
import VirtualPerson.Python.JsonRoundTrip
import VirtualPerson.Python.Base64
import VirtualPerson.Infra.RateLimit
import VirtualPerson.Infra.RetryAfter
import VirtualPerson.Infra.Redis
import VirtualPerson.Queue.Delivery
import VirtualPerson.Queue.Policy
import VirtualPerson.Queue.Settlement
import VirtualPerson.Queue.Counters
import VirtualPerson.Queue.Broker
import VirtualPerson.Queue.NoLoss
import VirtualPerson.Queue.Ladder
import VirtualPerson.Queue.Connection
import VirtualPerson.Memory.Service
import VirtualPerson.Memory.Recall
import VirtualPerson.Memory.VectorIndex
import VirtualPerson.Memory.IndexMap
import VirtualPerson.Memory.Curation
import VirtualPerson.Memory.Ranking
import VirtualPerson.Proactivity.Service
import VirtualPerson.Proactivity.Nudge
import VirtualPerson.Memory.Processes
import VirtualPerson.Memory.Atomicity
import VirtualPerson.Memory.Semantic
import VirtualPerson.Memory.Restart
import VirtualPerson.Memory.Undo
import VirtualPerson.Memory.Duplicates
import VirtualPerson.Memory.Loading
import VirtualPerson.Memory.Backends
import VirtualPerson.Llm.Streaming
import VirtualPerson.Llm.Hoarding
import VirtualPerson.Avatar.StateMachine
import VirtualPerson.Ws.TtsWorker
import VirtualPerson.Ws.Turn
import VirtualPerson.Ws.ProtocolV2
import VirtualPerson.Voice.TtsCache
import VirtualPerson.Voice.CacheSharing
import VirtualPerson.Voice.LipSync
import VirtualPerson.Voice.TtsText
import VirtualPerson.Voice.CosyVoice
import VirtualPerson.Session.Service
import VirtualPerson.Session.RedisStore
import VirtualPerson.Session.Backends
import VirtualPerson.Session.Isolation
import VirtualPerson.Tools.Registry
import VirtualPerson.Tools.Confirmation
import VirtualPerson.Tools.Replay
import VirtualPerson.Chat.Services
import VirtualPerson.Chat.Names
import VirtualPerson.Chat.Pipeline
import VirtualPerson.Chat.Calls
import VirtualPerson.Chat.Keeping
import VirtualPerson.Chat.Answered
import VirtualPerson.Chat.Statements
import VirtualPerson.Chat.NewNames
import VirtualPerson.Chat.LastName
import VirtualPerson.Chat.OutputSafety
import VirtualPerson.Chat.Remembered
import VirtualPerson.Chat.Routes
import VirtualPerson.Chat.Agreement
import VirtualPerson.Tools.Builtins
import VirtualPerson.Chat.Consent
import VirtualPerson.Chat.Acknowledged
import VirtualPerson.Chat.ToolReport
import VirtualPerson.Session.Writers
import VirtualPerson.Ws.Handler
import VirtualPerson.Ws.Observed
import VirtualPerson.Ws.Admission
import VirtualPerson.Chat.Exchanges
import VirtualPerson.Ws.Filler
import VirtualPerson.Ws.Guards
import VirtualPerson.Client.Audio
import VirtualPerson.Sql.Like
import VirtualPerson.Memory.PostgresSearch
import VirtualPerson.Ws.EndOfTurn
import VirtualPerson.Ws.BargeIn
import VirtualPerson.Client.Socket
import VirtualPerson.Client.Visemes
import VirtualPerson.Client.ChatBox
import VirtualPerson.Client.Page
import VirtualPerson.Once
import VirtualPerson.Queue.Shared
import VirtualPerson.Voice.SpeechToText
import VirtualPerson.LineLog
import VirtualPerson.Logging.Audit
import VirtualPerson.Llm.Completions
import VirtualPerson.Avatar.Blend
import VirtualPerson.Python.JsonLayout
import VirtualPerson.Python.JsonPrefix
import VirtualPerson.Python.JsonUtf8
import VirtualPerson.Persona.Profile
import VirtualPerson.Memory.Embeddings
import VirtualPerson.Avatar.Emotion
import VirtualPerson.Sql.Transaction
import VirtualPerson.Memory.Postgres
import VirtualPerson.Memory.PgVector
import VirtualPerson.Memory.DailySummary
import VirtualPerson.Queue.WorkerProcess
import VirtualPerson.Voice.FillerAudio
import VirtualPerson.Memory.Neo4j
