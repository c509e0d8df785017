import UniEventHttp.CallMachine
import UniEventHttp.History
import UniEventHttp.Errors
import UniEventHttp.ErasingLoop
import UniEventHttp.UriReference
import UniEventHttp.ServerMessage
import UniEventHttp.ServerConnection
import UniEventHttp.ServerState
import UniEventHttp.ServerReceiving
import UniEventHttp.ServerDeeds
import UniEventHttp.ServerEvents
import UniEventHttp.ServerSteady
import UniEventHttp.ServerDeferring
import UniEventHttp.ServerSuspension
import UniEventHttp.ServerData
import UniEventHttp.ServerStopping
import UniEventHttp.ServerPipeline
import UniEventHttp.ServerOrder
import UniEventHttp.ServerInert
import UniEventHttp.ServerUpgrade
import UniEventHttp.ServerCallees
import UniEventHttp.ServerProgress
import UniEventHttp.Server
import UniEventHttp.ServerLifecycle
import UniEventHttp.ClientMessage
import UniEventHttp.Client
import UniEventHttp.ClientSweep
import UniEventHttp.ClientForms
import UniEventHttp.ClientState
import UniEventHttp.ClientKeys
import UniEventHttp.ClientCapacity
import UniEventHttp.ClientActs
import UniEventHttp.ClientDeadline
import UniEventHttp.ClientDeeds
import UniEventHttp.ClientLists
import UniEventHttp.ClientRedirect
import UniEventHttp.ClientResolution
import UniEventHttp.ClientResending
import UniEventHttp.ClientErrors
import UniEventHttp.ClientWeak
import UniEventHttp.ClientFairness
import UniEventHttp.ClientCancelling
import UniEventHttp.ServerTimer
import UniEventHttp.ServerAdmission
import UniEventHttp.ServerPartial
import UniEventHttp.ServerQuota
import UniEventHttp.ServerListening
import UniEventHttp.ClientMoves
import UniEventHttp.ClientIsolation
import UniEventHttp.ClientLimit
import UniEventHttp.ClientUploads
import UniEventHttp.ClientUploadSteps
import UniEventHttp.ClientUploading
import UniEventHttp.ClientResentBodies
import UniEventHttp.DrivenRun
import UniEventHttp.ServerSegments
import UniEventHttp.ServerSerial
import UniEventHttp.ServerFragments
import UniEventHttp.ServerAccounts
import UniEventHttp.ServerDepartures
import UniEventHttp.ServerErrors
import UniEventHttp.ClientConnections
import UniEventHttp.ServerDate
import UniEventHttp.Ledger
import UniEventHttp.ClientNotices
import UniEventHttp.ClientAccounts
import UniEventHttp.ClientProvenance
import UniEventHttp.ClientReuse
import UniEventHttp.ClientStandalone
