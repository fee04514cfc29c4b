import WolkConnect.Transition.Machine
import WolkConnect.Transition.Simulation
import WolkConnect.Transition.Followed
import WolkConnect.Transition.Erasure
import WolkConnect.Transition.Segment
import WolkConnect.Transition.Component
import WolkConnect.Transition.Queue
import WolkConnect.Transition.Budget
import WolkConnect.Transition.Past
import WolkConnect.Chunk.Blocks
import WolkConnect.Chunk.Linked
import WolkConnect.Table.Rows
import WolkConnect.Table.SortUnique
import WolkConnect.Table.FirstMatch
import WolkConnect.File.Host
import WolkConnect.File.FileHandler
import WolkConnect.File.PacketChain
import WolkConnect.File.FileDownloader
import WolkConnect.File.PacketPlan
import WolkConnect.File.DownloaderEffects
import WolkConnect.File.DownloaderLife
import WolkConnect.File.HonestSender
import WolkConnect.File.LossyLink
import WolkConnect.File.Duplicates
import WolkConnect.File.RetryBudget
import WolkConnect.File.AnnouncedSize
import WolkConnect.File.LifeCycle
import WolkConnect.File.FileDownloadService
import WolkConnect.File.ServiceSteps
import WolkConnect.File.EntryRuns
import WolkConnect.File.Integrity
import WolkConnect.File.TransferBound
import WolkConnect.File.Routing
import WolkConnect.File.Contamination
import WolkConnect.File.AbortIsolation
import WolkConnect.File.CollectorLock
import WolkConnect.File.ThreadRuns
import WolkConnect.File.Outcome
import WolkConnect.File.CollectorWakeup
import WolkConnect.Repository.SQLiteFileRepository
import WolkConnect.File.FileList
import WolkConnect.File.ListedFiles
import WolkConnect.File.FileRemoval
import WolkConnect.File.PurgeFiles
import WolkConnect.Data.DataService
import WolkConnect.Data.Wolk
import WolkConnect.Data.Conservation
import WolkConnect.Data.Disconnect
import WolkConnect.Data.HandlerCalls
import WolkConnect.Data.Freshness
import WolkConnect.Data.Attempts
import WolkConnect.Data.BatchReference
import WolkConnect.Firmware.FirmwareUpdateService
import WolkConnect.Firmware.OneOutcome
import WolkConnect.Firmware.InstallCommand
import WolkConnect.Firmware.MarkerReport
import WolkConnect.Firmware.StatusCauses
import WolkConnect.Inbound.InboundPlatformMessageHandler
import WolkConnect.Inbound.Delivery
import WolkConnect.Builder.WolkBuilder
import WolkConnect.Builder.RefusedBuild
import WolkConnect.File.DeviceQueue
import WolkConnect.File.UrlDownloads
import WolkConnect.File.DeviceRuns
import WolkConnect.File.DeviceTables
import WolkConnect.File.DeviceWrites
import WolkConnect.File.Provenance
import WolkConnect.File.DeviceView
import WolkConnect.File.PlatformView
import WolkConnect.File.ReadyFiles
import WolkConnect.File.Restarts
import WolkConnect.File.Recovery
import WolkConnect.KeepAlive.KeepAliveService
import WolkConnect.Client.Messages
import WolkConnect.Client.Client
import WolkConnect.Client.Parts
import WolkConnect.Client.Commands
import WolkConnect.Client.Services
import WolkConnect.Client.Turns
import WolkConnect.Client.VerifiedInstall
import WolkConnect.Client.Reconnect
import WolkConnect.Client.Pings
