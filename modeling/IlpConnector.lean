import IlpConnector.Main
import IlpConnector.Packet.Debug
import IlpConnector.Scenario.Exchange
import IlpConnector.Scenario.Naming
import IlpConnector.Proofs.Advertisement
import IlpConnector.Proofs.BroadcastLoops
import IlpConnector.Proofs.ChildNames
import IlpConnector.Proofs.Delivery
import IlpConnector.Proofs.Errands
import IlpConnector.Proofs.FieldSequence
import IlpConnector.Proofs.LinkEvents
import IlpConnector.Proofs.LinkReadiness
import IlpConnector.Proofs.LongestPrefix
import IlpConnector.Proofs.Looping
import IlpConnector.Proofs.MessageCodec
import IlpConnector.Proofs.NoTransit
import IlpConnector.Proofs.PrefixOrder
import IlpConnector.Proofs.RateLimiting
import IlpConnector.Proofs.ReadingEffort
import IlpConnector.Proofs.Reencoding
import IlpConnector.Proofs.Reporting
import IlpConnector.Proofs.Resync
import IlpConnector.Proofs.ShortestForms
import IlpConnector.Proofs.Switching
import IlpConnector.Proofs.TableHistory
import IlpConnector.Proofs.Tiling
import IlpConnector.Proofs.TokenLifetime
import IlpConnector.Proofs.Unreachable
