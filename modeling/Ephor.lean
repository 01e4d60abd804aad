import Ephor.Pubcache.PinInterleaving
import Ephor.Pubcache.PinCrash
import Ephor.Pubcache.ServiceSoundness
import Ephor.Autoscale.Autoscaler
import Ephor.Server.ExactlyOnce
import Ephor.Rendezvous.LongPoll
import Ephor.Economics.Descriptor
import Ephor.Gateway.SilentLoss
import Ephor.Gateway.SpfBounds
import Ephor.Server.Drain
import Ephor.Server.MeteredProxy
import Ephor.Agent.Handover
import Ephor.Agent.Lifecycle
import Ephor.Client.FirstKey
import Ephor.Client.FrameReplay
import Ephor.Client.RelayOnce
import Ephor.Client.JoinTrust
import Ephor.Client.RelayTransparent
import Ephor.Keyauth.Freshness
import Ephor.Pubcache.PinAtomic
import Ephor.Pubcache.PinCap
import Ephor.Pubcache.ManifestEncoding
import Ephor.Gateway.SmtpSubmission
import Ephor.Client.RendezvousLifecycle
import Ephor.Client.EndpointTrust
import Ephor.Client.ChunkCount
import Ephor.Client.ProofWire
import Ephor.Pubcache.StoreInvariant
import Ephor.Pubcache.CoalesceSoundness
import Ephor.Rendezvous.QueueBounds
import Ephor.Rendezvous.Ttl
import Ephor.Keyauth.SigningMessage
import Ephor.Billing.BilledAmount
import Ephor.Billing.Wire
import Ephor.Billing.ReceiptSequence
import Ephor.Billing.Pricing
import Ephor.Autoscale.NodeSelection
import Ephor.Billing.Simulation
import Ephor.Reachability.ClientHello
import Ephor.Reachability.TunnelNames
import Ephor.Reachability.NonceRuns
import Ephor.Reachability.RegistrationFrame
import Ephor.Gateway.SpfNone
import Ephor.Gateway.SpfPass
import Ephor.Gateway.SpfRecords
import Ephor.Gateway.DkimRelaxed
import Ephor.Gateway.DkimRefold
import Ephor.Gateway.Dmarc
import Ephor.Gateway.OutboundReputation
import Ephor.Gateway.SenderSpelling
import Ephor.Gateway.DnsDecoding
import Ephor.Gateway.EnvelopeIntent
import Ephor.Gateway.ForwardedAddr
import Ephor.Gateway.PeerReply
import Ephor.Gateway.SpfDns
import Ephor.Server.CpRevocation
import Ephor.Server.GrantOrder
import Ephor.Server.OverQuota
import Ephor.Server.RateKeys
import Ephor.Gateway.AliasNames
import Ephor.Client.Conversation
import Ephor.Gateway.Admission
import Ephor.Gateway.AliasTerms
import Ephor.Server.DirectProbe
import Ephor.Server.HopByHop
import Ephor.Rendezvous.Service
