import Idrm.Ilink.Reconnect
import Idrm.Ilink.VheaderRoundTrip
import Idrm.Ilink.VheaderBounds
import Idrm.Ilink.VheaderGrammar
import Idrm.Ilink.VheaderMap
import Idrm.Ilink.Bodies
import Idrm.Ilink.Decoder
import Idrm.Agent.MessageSplit
import Idrm.Devices.PostedResources
import Idrm.Devices.PostReports
import Idrm.Devices.RdQueries
import Idrm.Url.Query
import Idrm.Devices.LocalIds
import Idrm.Devices.Monitors
import Idrm.Devices.ReadClock
import Idrm.Devices.Calibration
import Idrm.Devices.Reload
import Idrm.Agent.GenericDevUrls
import Idrm.Agent.BusUrls
import Idrm.Agent.DataReports
import Idrm.Coap.RepeatedUploads
import Idrm.Trans.Timers
import Idrm.Trans.Waiting
import Idrm.Agent.EndpointForward
import Idrm.Agent.Retries
import Idrm.Coap.Download
import Idrm.Coap.Matching
import Idrm.Devices.Aliases
import Idrm.Devices.Identity
import Idrm.Devices.RdMonitor
import Idrm.Devices.Schedule
import Idrm.Agent.Routing
import Idrm.Agent.DpCache
import Idrm.Agent.Outgoing
import Idrm.Plugin.MessageCoder
import Idrm.Plugin.RequestService
import Idrm.Plugin.Dispatch
import Idrm.Plugin.InternalQueue
import Idrm.Shared.MessageQueue
import Idrm.Shared.MessageHandlers
import Idrm.Shared.TaskList
import Idrm.Url.Matchers
import Idrm.Lwm2m.Observations
import Idrm.Lwm2m.ObservationRuns
import Idrm.Devices.PublishFlow
import Idrm.Devices.PublishRetry
import Idrm.Devices.PublishFormat
import Idrm.Coap.PointerLists
import Idrm.Coap.LiveTransfers
import Idrm.Coap.Reassembly
import Idrm.Coap.GetPaths
import Idrm.Coap.NextExpiry
import Idrm.Coap.Freshness
import Idrm.Coap.TransferSteps
import Idrm.Coap.UploadBounds
import Idrm.Coap.Blocking
import Idrm.Coap.ParsedOptions
import Idrm.Coap.BlockingEnds
import Idrm.Coap.Transmissions
import Idrm.Coap.Budget
import Idrm.Coap.ExactTimers
import Idrm.Coap.OptionBytes
import Idrm.Coap.LargeMessages
import Idrm.Coap.Confined
import Idrm.Coap.OptionSpace
import Idrm.Coap.DownloadEnds
import Idrm.Agent.DpCacheServer
import Idrm.Agent.DpCacheDb
import Idrm.Devices.Connections
import Idrm.Devices.Associations
import Idrm.Devices.Cancelling
import Idrm.Lib.Promises
import Idrm.Coap.Waiters
import Idrm.Coap.Answering
import Idrm.Agent.SendRequest
import Idrm.Agent.AnswersOnce
import Idrm.Devices.LockedClients
import Idrm.Lwm2m.RequestUrls
import Idrm.Ini.Settings
import Idrm.Ini.LoadErrors
import Idrm.Rest.Overflow
import Idrm.Rest.BuiltIns
import Idrm.Agent.CloudBytes
