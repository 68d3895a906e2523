import ChatToken.Guard
import ChatToken.Main
import ChatToken.Report.Statsd
import ChatToken.Scenario.Exchanges
import ChatToken.Scenario.Listening
import ChatToken.Scenario.Loads
import ChatToken.Scenario.Runs
import ChatToken.Scenario.Streams
import ChatToken.Scenario.Tokens
import ChatToken.Loader.Run
import ChatToken.Proofs.Loader.Invariant
import ChatToken.Proofs.Loader.SingleFlight
import ChatToken.Proofs.Loader.PerKey
import ChatToken.Proofs.Loader.Waiters
import ChatToken.Exchange.Run
import ChatToken.Proofs.Exchange.Schedule
import ChatToken.Proofs.Listeners
import ChatToken.Proofs.Exchange.Outcome
import ChatToken.Proofs.Network.Unsupported
import ChatToken.Proofs.Network.Tokens
import ChatToken.Proofs.Network.Outcomes
import ChatToken.Proofs.Network.Correlation
import ChatToken.Proofs.Message.RoundTrip
import ChatToken.Proofs.Network.Accounts
import ChatToken.Proofs.Network.Reassembly
import ChatToken.Proofs.Network.Timeouts
import ChatToken.Proofs.Network.Containment
import ChatToken.Proofs.Network.Seclusion
import ChatToken.Proofs.Network.Secrecy
import ChatToken.Proofs.Stream.Loop
import ChatToken.Proofs.Message.Readback
import ChatToken.Proofs.Stream.Ended
import ChatToken.Proofs.Network.Abandoned
import ChatToken.Proofs.Stream.Advertisement
import ChatToken.Proofs.Stream.Handshake
import ChatToken.Proofs.Upload.Partition
import ChatToken.Proofs.Upload.Once
import ChatToken.Listeners.Run
import ChatToken.Proofs.Listeners.Runs
import ChatToken.Network.Metering
import ChatToken.Proofs.Loader.Counts
import ChatToken.Proofs.Network.Metering
import ChatToken.Scenario.Gets
import ChatToken.Proofs.Network.Gets
import ChatToken.Network.Renewal
import ChatToken.Proofs.Network.Forgetting
import ChatToken.Proofs.Loader.Refusal
import ChatToken.Proofs.Network.Written
import ChatToken.Network.Quotes
import ChatToken.Proofs.Network.Quotes
import ChatToken.Proofs.Config.Contentless
import ChatToken.Token.Marking
import ChatToken.Tool.Run
import ChatToken.Proofs.Manager.Marking
import ChatToken.Proofs.Tool.Fetching
