import SyncBoard.Auth.RefreshToken
import SyncBoard.Auth.Revocation
import SyncBoard.Document.Hub
import SyncBoard.Document.HubEffect
import SyncBoard.Document.Durability
import SyncBoard.Document.StoredState
import SyncBoard.Document.Gateway
import SyncBoard.Document.WriteIsolation
import SyncBoard.Document.EditorSync
import SyncBoard.Document.SyncConvergence
import SyncBoard.Document.TextMerge
import SyncBoard.Messaging.Consumer
import SyncBoard.Messaging.Delivery
import SyncBoard.Messaging.NoLoss
import SyncBoard.Messaging.Retries
import SyncBoard.Board.Database
import SyncBoard.Lib.Action
import SyncBoard.Board.CardService
import SyncBoard.Board.Footprint
import SyncBoard.Board.TenantIsolation
import SyncBoard.Lib.Program
import SyncBoard.Workspace.Database
import SyncBoard.Workspace.Repositories
import SyncBoard.Workspace.Services
import SyncBoard.Workspace.Calls
import SyncBoard.Workspace.Effects
import SyncBoard.Workspace.LastOwner
import SyncBoard.Workspace.OwnerGate
import SyncBoard.Workspace.Escalation
import SyncBoard.Workspace.Ownership
import SyncBoard.Workspace.Invitations
import SyncBoard.Board.CardWrites
import SyncBoard.Board.ChecklistService
import SyncBoard.Board.ListService
import SyncBoard.Board.ListWrites
import SyncBoard.Board.Operations
import SyncBoard.Board.SubcardDepth
import SyncBoard.Board.CardPrograms
import SyncBoard.Lib.Links
import SyncBoard.Board.SubcardCycles
import SyncBoard.Board.RankOrder
import SyncBoard.Board.PermanentDelete
import SyncBoard.Board.ChecklistIsolation
import SyncBoard.Document.IdleUnload
import SyncBoard.Document.GhostEditors
import SyncBoard.Realtime.Gateway
import SyncBoard.Realtime.PresenceStores
import SyncBoard.Realtime.OneBoard
import SyncBoard.Realtime.OnlineMembers
import SyncBoard.Realtime.Viewing
import SyncBoard.Realtime.Departures
import SyncBoard.Realtime.ViewerRoster
import SyncBoard.Document.Rooms
import SyncBoard.Realtime.RoomMembers
import SyncBoard.Realtime.EphemeralFrames
import SyncBoard.Notification.Service
import SyncBoard.Notification.UnreadCount
import SyncBoard.Board.BoardContent
import SyncBoard.Client.BoardPage
import SyncBoard.Client.BoardConvergence
import SyncBoard.Auth.RefreshChain
import SyncBoard.Client.BoardCanvas
import SyncBoard.Messaging.AtMostOnce
import SyncBoard.Board.CardCalls
import SyncBoard.Board.CardTime
import SyncBoard.Board.LoggedTime
import SyncBoard.Board.StatusCompletion
import SyncBoard.Board.StatusEvents
import SyncBoard.Lib.Paging
import SyncBoard.Pagination
import SyncBoard.Board.CardViews
import SyncBoard.Board.ViewAgreement
import SyncBoard.Board.BoardPrograms
import SyncBoard.Board.CardsShown
import SyncBoard.Lib.Calendar
import SyncBoard.Lib.Decimal
import SyncBoard.Activity.Cursor
import SyncBoard.Activity.Feed
import SyncBoard.Notification.Inbox
import SyncBoard.Document.Listing
import SyncBoard.File.FileService
import SyncBoard.File.UploadStatus
import SyncBoard.Comment.CommentService
import SyncBoard.Comment.CommentThreads
import SyncBoard.Comment.Authorship
import SyncBoard.Board.MovedRank
import SyncBoard.Document.Shutdown
import SyncBoard.Board.RankWidth
import SyncBoard.Client.DropRank
import SyncBoard.Auth.Replay
import SyncBoard.Lib.KeyStore
import SyncBoard.Auth.Blacklist
import SyncBoard.Auth.OAuthState
import SyncBoard.Auth.SpentTokens
import SyncBoard.Workspace.ActiveInvitations
import SyncBoard.Lib.SortedSet
import SyncBoard.Realtime.RateLimiter
import SyncBoard.Workspace.OneInvitation
import SyncBoard.Comment.SanitizeText
import SyncBoard.Activity.Actors
import SyncBoard.Lib.Entries
import SyncBoard.Notification.Producer
import SyncBoard.CollaboratorColor
import SyncBoard.Document.EditorColors
import SyncBoard.Realtime.ViewerColors
import SyncBoard.Workspace.Updates
import SyncBoard.Workspace.Slugs
import SyncBoard.Board.Promotion
import SyncBoard.Document.Restore
import SyncBoard.Realtime.Staleness
import SyncBoard.CardField.CardFieldService
import SyncBoard.CardField.StoredValues
import SyncBoard.Lib.Backtracking
import SyncBoard.Client.MarkdownViewer
import SyncBoard.Client.MarkdownText
import SyncBoard.Client.ApiClient
import SyncBoard.Client.TokenRefresh
import SyncBoard.Client.AwaitedRefresh
import SyncBoard.Client.HeldTokens
import SyncBoard.Lib.Traces
import SyncBoard.Account.Store
import SyncBoard.Account.AuthService
import SyncBoard.Account.Evidence
import SyncBoard.Account.CallTraces
import SyncBoard.Account.Effects
import SyncBoard.Account.Recall
import SyncBoard.Account.Sessions
import SyncBoard.Account.OneTimeKeys
import SyncBoard.Account.Provenance
import SyncBoard.Account.EmailGate
import SyncBoard.Account.GoogleAccounts
import SyncBoard.Workspace.Warrants
import SyncBoard.Workspace.Provenance
import SyncBoard.SkippedRows
import SyncBoard.Board.ViewWalks
