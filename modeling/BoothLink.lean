import BoothLink.Link.StateFeed
import BoothLink.Link.BeatFeed
import BoothLink.Main
import BoothLink.Net.Broadcast
import BoothLink.Proofs.Text.Utf16
import BoothLink.Proofs.Wire.RoundTrip
import BoothLink.Proofs.Message.RoundTrip
import BoothLink.Proofs.Wire.Settled
import BoothLink.Proofs.Catalog.Growing
import BoothLink.Proofs.Link.Pieces
import BoothLink.Proofs.Catalog.Recovery
import BoothLink.Proofs.Message.Frames
import BoothLink.Proofs.Link.Arrived
import BoothLink.Proofs.Decimal.Digits
import BoothLink.Proofs.Link.LastServices
import BoothLink.Proofs.Link.Agreement
import BoothLink.Proofs.Link.Scheduled
import BoothLink.Proofs.Message.Canonical
import BoothLink.Proofs.Message.Limits
import BoothLink.Proofs.Link.Delivered
import BoothLink.Proofs.Link.Reported
import BoothLink.Proofs.Link.FeedScheduled
import BoothLink.Proofs.Link.Outgoing
import BoothLink.Proofs.Discovery.Moves
import BoothLink.Proofs.Discovery.AnnounceState
import BoothLink.Proofs.Discovery.Closing
import BoothLink.Proofs.Discovery.Sighted
import BoothLink.Proofs.Discovery.ScanEvents
import BoothLink.Proofs.Link.Emitted
import BoothLink.Proofs.Settings.RoundTrip
import BoothLink.Proofs.Link.Written
import BoothLink.Proofs.Catalog.BeatFront
import BoothLink.Proofs.Catalog.MainFront
import BoothLink.Proofs.Catalog.Looks
import BoothLink.Proofs.Discovery.Classified
import BoothLink.Proofs.Discovery.History
import BoothLink.Proofs.Discovery.Heard
import BoothLink.Proofs.Discovery.Searched
import BoothLink.Proofs.Token
import BoothLink.Proofs.Net.Broadcast
import BoothLink.Proofs.Wire.Texts
import BoothLink.Proofs.Wire.InStep
