import MelonDMA.Lib.Runs
import MelonDMA.Lib.SlotTable
import MelonDMA.Core.FwAccountedRuns
import MelonDMA.Ib.QpCounters
import MelonDMA.Hw.WqeRoundTrip
import MelonDMA.Ib.RegMr
import MelonDMA.Shim.PostAlike
import MelonDMA.Ib.QpAttribution
import MelonDMA.Core.KeyIndexRuns
import MelonDMA.Core.CmdSlots
import MelonDMA.Core.CmdExec
import MelonDMA.Ib.Srq
import MelonDMA.UserClient.TokenRuns
import MelonDMA.Ib.MrDependents
import MelonDMA.Verbs.QpCopies
import MelonDMA.Verbs.MrCacheRuns
import MelonDMA.Core.EventQueue
import MelonDMA.Ib.PageRequests
import MelonDMA.Verbs.AsyncRuns
import MelonDMA.Shim.BlueFlame
import MelonDMA.Shim.StackBuffers
import MelonDMA.Shim.WqeTemplates
import MelonDMA.Core.RuntimeStatus
import MelonDMA.Ib.GidRuns
import MelonDMA.Metal.SlotRuns
import MelonDMA.Verbs.CompChannelRuns
import MelonDMA.Ib.QpRecords
import MelonDMA.Core.DmaRuns
import MelonDMA.Core.FwReclaim
import MelonDMA.Verbs.RegMrChildren
import MelonDMA.Ib.IndirectKeys
import MelonDMA.Ib.BindWindow
import MelonDMA.Ib.KeyedRegionRuns
import MelonDMA.Ib.MrSections
import MelonDMA.Ib.CqePoll
import MelonDMA.Ib.SrqCreate
import MelonDMA.Core.CmdDoorbell
import MelonDMA.Core.PinBooks
import MelonDMA.Ib.ValidateRange
import MelonDMA.Ib.ClientDbSlots
import MelonDMA.Verbs.PollCache
import MelonDMA.Verbs.SendBuilder
import MelonDMA.Hw.QpcEncoding
import MelonDMA.Ib.QpModify
import MelonDMA.Verbs.QpServes
import MelonDMA.Hw.IfcHelpers
import MelonDMA.Shim.CompletionTails
import MelonDMA.Core.FwMessages
import MelonDMA.Ib.QpCreate
import MelonDMA.UserClient.CreateQp
import MelonDMA.UserClient.References
import MelonDMA.UserClient.QuotaRuns
import MelonDMA.Verbs.RecvChain
import MelonDMA.Shim.ShadowPage
import MelonDMA.Shim.PollRuns
import MelonDMA.Shim.QpRegistry
import MelonDMA.Ib.PostBatches
import MelonDMA.Verbs.GidWalk
import MelonDMA.UserClient.DataPath
import MelonDMA.Core.CmdWait
import MelonDMA.Ib.RoceAddress
import MelonDMA.Shim.DecodersAgree
import MelonDMA.Core.EqPoller
import MelonDMA.Ib.AddressHandles
import MelonDMA.Verbs.Replies
import MelonDMA.Core.HealthLatch
import MelonDMA.Ib.CongestionControl
