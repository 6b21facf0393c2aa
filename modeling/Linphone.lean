import Linphone.Core.Vtables
import Linphone.Contacts.LdapProvider
import Linphone.Lime.Malformed
import Linphone.OfferAnswer.Avpf
import Linphone.OfferAnswer.Capabilities
import Linphone.Sal.RtcpFb
import Linphone.Sal.Offers
import Linphone.Sal.Answers
import Linphone.Sal.Teardown
import Linphone.Sal.Negotiation
import Linphone.Call.Profiles
import Linphone.Call.Bandwidth
import Linphone.Call.Orphans
import Linphone.Call.Reinvites
import Linphone.Call.OfferMapping
import Linphone.Call.CodecLists
import Linphone.Call.Retries
import Linphone.Upnp.Mappings
import Linphone.Upnp.Counting
import Linphone.Event.References
import Linphone.Core.Tones
import Linphone.Call.Dtmf
import Linphone.Call.ZrtpSuites
import Linphone.Call.QualityReporting
import Linphone.Config.LpFileParams
import Linphone.Config.LpFileSaved
import Linphone.Config.CodecsSaved
import Linphone.Config.LpcApplied
import Linphone.Config.ListsSaved
import Linphone.Sal.Challenges
import Linphone.Chat.HistoryRange
import Linphone.Chat.Duplicates
import Linphone.Chat.FileTransfer
import Linphone.Chat.IsComposing
import Linphone.Chat.Transient
import Linphone.Call.Ports
import Linphone.Call.CryptoKeys
import Linphone.Call.ConferenceMembers
import Linphone.Call.HoldDetection
import Linphone.Call.Refusal
import Linphone.Sal.SupportedTags
import Linphone.Sal.InfoLines
import Linphone.Core.HostPort
import Linphone.Core.LogCollection
import Linphone.Core.LogUpload
import Linphone.Core.TunnelManager
import Linphone.Config.TunnelSaved
import Linphone.Call.IceRemote
import Linphone.Presence.Activities
import Linphone.Presence.NoteLookup
import Linphone.Presence.RoundTrip
import Linphone.Presence.Subscriptions
import Linphone.Registration.Unregistered
import Linphone.Registration.CallingCodes
import Linphone.Registration.KnownProxy
import Linphone.Call.TransferReports
import Linphone.Call.Exchange
import Linphone.Config.CallHistory
import Linphone.Call.Bandwidth
