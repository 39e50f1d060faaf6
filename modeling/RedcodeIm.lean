import RedcodeIm.Rooms.CursorDelivery
import RedcodeIm.KeyPackages.Stock
import RedcodeIm.Messages.EncryptedMessages
import RedcodeIm.Coordinator.Rejoin
import RedcodeIm.Coordinator.PendingSend
import RedcodeIm.Coordinator.RekeyRecovery
import RedcodeIm.Coordinator.SyncTermination
import RedcodeIm.Coordinator.IdentityTrust
import RedcodeIm.Coordinator.SetupRecovery
import RedcodeIm.Core.CommandFraming
import RedcodeIm.Runtime.SendRules
import RedcodeIm.Runtime.RateLimit
import RedcodeIm.Runtime.ContentAgreement
import RedcodeIm.Runtime.HistoryPaging
import RedcodeIm.Runtime.UnreadCounts
import RedcodeIm.Payload.Agreement
import RedcodeIm.Attachments.Leases
import RedcodeIm.Attachments.ObjectDeletion
import RedcodeIm.Attachments.IssuedKeys
import RedcodeIm.Attachments.MultipartPlan
import RedcodeIm.Sessions.SmsCodes
import RedcodeIm.Sessions.ConfirmFailures
import RedcodeIm.Sessions.DeviceRevocation
import RedcodeIm.Groups.Mutes
import RedcodeIm.Groups.Capacity
import RedcodeIm.Rooms.PrivatePairs
import RedcodeIm.Friends.AnsweredOnce
import RedcodeIm.Admin.OneAdministrator
import RedcodeIm.Push.JobLeases
import RedcodeIm.Versions.HotUpdates
import RedcodeIm.H5.MergeMessages
import RedcodeIm.Websocket.RoomMembership
import RedcodeIm.Websocket.HubAgreement
import RedcodeIm.Attachments.MultipartAgreement
import RedcodeIm.H5.ChatCounting
import RedcodeIm.Ios.ChatIsolation
import RedcodeIm.Websocket.PushAgreement
import RedcodeIm.Ios.EventDeduplication
import RedcodeIm.Ios.OneCopy
import RedcodeIm.Android.ReactionCounts
import RedcodeIm.H5.SqlAgreement
import RedcodeIm.H5.KeysInMemory
import RedcodeIm.Android.Deletions
import RedcodeIm.Android.OlderHistory
import RedcodeIm.Realtime.Clients
import RedcodeIm.Desktop.Connections
import RedcodeIm.Desktop.Downloads
import RedcodeIm.Desktop.MessageSearch
import RedcodeIm.SecureState.Readable
import RedcodeIm.H5.RefreshChats
import RedcodeIm.Runtime.VersionOrder
import RedcodeIm.Runtime.LoadedSettings
import RedcodeIm.Devices.ApprovalPayload
import RedcodeIm.H5.OwnEvents
