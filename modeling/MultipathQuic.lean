import MultipathQuic.AckHandler.AckFloor
import MultipathQuic.AckHandler.Backoff
import MultipathQuic.AckHandler.ClosePath
import MultipathQuic.Astream.Downloads
import MultipathQuic.Astream.OuterZone
import MultipathQuic.Congestion.OliaOverflow
import MultipathQuic.FlowControl.WindowUpdates
import MultipathQuic.H2quic.Server
import MultipathQuic.PathScheduler.Accepted
import MultipathQuic.PathScheduler.Balance
import MultipathQuic.Scheduler.Reprioritise
import MultipathQuic.Scheduler.Shortcut
import MultipathQuic.Session.Client
import MultipathQuic.Session.PacketDelivery
import MultipathQuic.Session.QueuedFrames
import MultipathQuic.Stream.CryptoStream
import MultipathQuic.Stream.IdleStreams
import MultipathQuic.Stream.LoneFin
import MultipathQuic.Stream.ResetStreams
import MultipathQuic.Stream.RetransmissionQueue
import MultipathQuic.Stream.ReturnedCredit
import MultipathQuic.Stream.RoundRobinFairness
import MultipathQuic.Stream.UnopenedStreams
import MultipathQuic.Stream.WriteCount
import MultipathQuic.Wire.AckWritable
import MultipathQuic.Wire.Ufloat16
