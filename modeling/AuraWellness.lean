import AuraWellness.Lib.Transition
import AuraWellness.Lib.Calls
import AuraWellness.Lib.Ranked
import AuraWellness.Lib.Keyed
import AuraWellness.Lib.Reversal
import AuraWellness.Chat.Entities
import AuraWellness.Chat.Schema
import AuraWellness.Chat.Repositories
import AuraWellness.Chat.Growth
import AuraWellness.Chat.Placement
import AuraWellness.Chat.DirectMessages
import AuraWellness.Chat.OnePerPair
import AuraWellness.Backend.Entities
import AuraWellness.Backend.Schema
import AuraWellness.Chat.Handlers
import AuraWellness.Backend.Repositories
import AuraWellness.Backend.Services
import AuraWellness.Backend.Runs
import AuraWellness.Backend.Owners
import AuraWellness.Chat.Membership
import AuraWellness.Backend.Participants
import AuraWellness.Backend.Answers
import AuraWellness.Backend.Authorization
import AuraWellness.Chat.Views
import AuraWellness.Backend.Confidentiality
import AuraWellness.Chat.Live
import AuraWellness.Chat.LiveAccess
import AuraWellness.Chat.Paging
import AuraWellness.Frontend.Browser
import AuraWellness.Frontend.Pipeline
import AuraWellness.Frontend.NoGap
import AuraWellness.Chat.Publishing
import AuraWellness.Chat.DeliveryOrder
import AuraWellness.Backend.Tenants
import AuraWellness.Chat.Procedures
import AuraWellness.Backend.Provisioning
import AuraWellness.Backend.Orphans
import AuraWellness.Backend.StaffCreation
import AuraWellness.Backend.TenantRows
import AuraWellness.Lib.Relational
import AuraWellness.Lib.History
import AuraWellness.Backend.Noninterference
import AuraWellness.Backend.ChatPermissions
import AuraWellness.Backend.ChatAdmins
import AuraWellness.Backend.Login
import AuraWellness.Backend.TwoPhaseLogin
import AuraWellness.Lib.Issued
import AuraWellness.Chat.Identifiers
import AuraWellness.Backend.InboundFrames
import AuraWellness.Chat.Sessions
import AuraWellness.Chat.WindDown
import AuraWellness.Chat.Subscribed
import AuraWellness.Chat.SelfConversations
import AuraWellness.Frontend.Proxying
import AuraWellness.Frontend.Reconnecting
import AuraWellness.Frontend.Logout
import AuraWellness.Frontend.RoleChange
import AuraWellness.Chat.FailedCreation
import AuraWellness.Chat.LookupOutcomes
import AuraWellness.Chat.FirstAccess
import AuraWellness.Chat.Migration
import AuraWellness.Chat.ListedOnce
import AuraWellness.Chat.MemberHistory
import AuraWellness.Backend.Accepted
import AuraWellness.Backend.RoleTexts
import AuraWellness.Backend.AssignedRoles
import AuraWellness.Lib.Reservation
import AuraWellness.Backend.ProfilePairs
import AuraWellness.Backend.SignIn
import AuraWellness.Lib.Conduit
import AuraWellness.Chat.Queueing
import AuraWellness.Frontend.Sockets
import AuraWellness.Frontend.OneHook
import AuraWellness.Backend.SocketSession
import AuraWellness.Lib.Json
import AuraWellness.Lib.Stringify
import AuraWellness.Lib.CodePoints
import AuraWellness.Lib.Utf8
import AuraWellness.Lib.Delimited
import AuraWellness.Backend.Fragments
import AuraWellness.Lib.Statements
import AuraWellness.Backend.Resetting
import AuraWellness.Backend.Bootstrap
import AuraWellness.Lib.Arrival
import AuraWellness.Frontend.ChatWrites
import AuraWellness.Frontend.Convergence
import AuraWellness.Frontend.Encodings
import AuraWellness.Frontend.Serving
import AuraWellness.Frontend.AccessTable
import AuraWellness.Lib.Journal
import AuraWellness.Frontend.Errands
import AuraWellness.Frontend.LateResponses
import AuraWellness.Lib.Chains
import AuraWellness.Lib.SwapLoop
import AuraWellness.Chat.HistoryPage
import AuraWellness.Frontend.Redirects
import AuraWellness.Chat.Revocation
import AuraWellness.Chat.LiveFrames
import AuraWellness.Frontend.ShownMessages
import AuraWellness.Lib.Rest
import AuraWellness.Chat.Settling
import AuraWellness.Lib.Wire
import AuraWellness.Lib.Fields
import AuraWellness.Lib.Timestamps
import AuraWellness.Frontend.WireTexts
import AuraWellness.Lib.Results
import AuraWellness.Backend.Controllers
import AuraWellness.Backend.Tokens
import AuraWellness.Backend.ChatTenants
import AuraWellness.Backend.PasswordChanges
import AuraWellness.Lib.Screening
import AuraWellness.Backend.Fronting
import AuraWellness.Chat.Transport
import AuraWellness.Chat.Fitting
import AuraWellness.Backend.ChatClient
import AuraWellness.Backend.Authorship
