import VirtualPad.Main
import VirtualPad.Proofs.Address.Ipv6
import VirtualPad.Proofs.Agreement
import VirtualPad.Proofs.Calibration.History
import VirtualPad.Proofs.Calibration.Linear
import VirtualPad.Proofs.Calibration.Monotone
import VirtualPad.Proofs.Datagram.OfferTrip
import VirtualPad.Proofs.Device.Coherent
import VirtualPad.Proofs.Device.Sinks
import VirtualPad.Proofs.Device.Visit
import VirtualPad.Proofs.Layout.LastControl
import VirtualPad.Proofs.Quotient
import VirtualPad.Proofs.Session.Boundary
import VirtualPad.Proofs.Session.Cut
import VirtualPad.Proofs.Session.Followed
import VirtualPad.Proofs.Session.History
import VirtualPad.Proofs.Session.Image
import VirtualPad.Proofs.Session.LayoutHistory
import VirtualPad.Proofs.Session.Published
import VirtualPad.Proofs.Session.Repeat
import VirtualPad.Proofs.Session.Replay
import VirtualPad.Proofs.Session.Reported
import VirtualPad.Proofs.Session.Requests
import VirtualPad.Proofs.Session.Resume
import VirtualPad.Proofs.Session.Wake
import VirtualPad.Proofs.Transport.Shutdown
import VirtualPad.Severity
import VirtualPad.Proofs.Address.Socket
import VirtualPad.Proofs.Config.Line
import VirtualPad.Proofs.Config.Range
import VirtualPad.Proofs.Settings.RoundTrip
