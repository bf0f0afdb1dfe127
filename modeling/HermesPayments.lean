import HermesPayments.Policy.Correctness.Authorisation
import HermesPayments.Policy.Correctness.Execution
import HermesPayments.Policy.Correctness.QuoteBinding
import HermesPayments.Policy.Correctness.Settlement
import HermesPayments.Policy.Correctness.Submission
import HermesPayments.Process
import HermesPayments.Lib.Run
import HermesPayments.Lib.Crash
import HermesPayments.Process.Node
import HermesPayments.Process.Recovery
import HermesPayments.Process.Commands
import HermesPayments.Process.Correctness.Dispatch
import HermesPayments.Process.Restart
import HermesPayments.Process.Returns
import HermesPayments.Process.Correctness.Retry
import HermesPayments.Lib.Json.Loads
import HermesPayments.Lib.Json.RoundTrip
import HermesPayments.Lib.Json.Access
import HermesPayments.Lib.Utf8
import HermesPayments.Models.Canonical
import HermesPayments.Policy.Correctness.Identity
import HermesPayments.Policy.Correctness.HashReuse
import HermesPayments.Policy.Correctness.AuditTrail
import HermesPayments.Envelope
import HermesPayments.Lib.Quota
import HermesPayments.Transport
import HermesPayments.Transport.Receive
import HermesPayments.Envelope.Decode
import HermesPayments.Envelope.RoundTrip
import HermesPayments.Transport.Correctness.ClaimedId
import HermesPayments.Transport.Correctness.Delivery
import HermesPayments.Transport.Correctness.Recipient
import HermesPayments.Process.Mail
import HermesPayments.Transport.Endpoint
import HermesPayments.Transport.Correctness.CrashDelivery
import HermesPayments.Process.Frame
import HermesPayments.Process.Faults
import HermesPayments.Process.Correctness.WriteOnce
import HermesPayments.Wavelength
import HermesPayments.Wavelength.Results
import HermesPayments.Wavelength.Runs
import HermesPayments.Wavelength.Correctness.FeeCap
import HermesPayments.Wavelength.Correctness.OwnPayment
import HermesPayments.Wavelength.Correctness.Failures
import HermesPayments.Wavelength.Correctness.Agreement
import HermesPayments.Wavelength.Correctness.Search
import HermesPayments.Transport.Correctness.Validation
import HermesPayments.Policy.Correctness.FlowSelection
import HermesPayments.Store.File
import HermesPayments.Store.Correctness.Persistence
import HermesPayments.Wavelength.Correctness.ExactPreview
import HermesPayments.Lib.Json.WellRead
import HermesPayments.Wavelength.Correctness.BoundSend
import HermesPayments.Lib.Base64
import HermesPayments.Process.Snapshot
import HermesPayments.Process.Snapshot.RoundTrip
import HermesPayments.Process.Correctness.Reproduction
import HermesPayments.Policy.Correctness.ApprovalKeys
import HermesPayments.Models.Injective
import HermesPayments.Process.Correctness.DisplayIds
import HermesPayments.Redact.Scan
import HermesPayments.Redact.Patterns
import HermesPayments.Redact.Clean
import HermesPayments.Redact.Correctness.Leaks
import HermesPayments.Policy.Correctness.QuotedFee
import HermesPayments.Wavelength.Correctness.Envelopes
import HermesPayments.Transport.Correctness.Reopening
import HermesPayments.Lib.Mailbox
import HermesPayments.Hub
import HermesPayments.Hub.Correctness.ExactlyOnce
import HermesPayments.AuditLog
import HermesPayments.Lib.Json.Prefix
import HermesPayments.AuditLog.Correctness.TornWrites
import HermesPayments.Process.AuditText
import HermesPayments.Lib.Polling
import HermesPayments.Process.Correctness.BoundedRecovery
import HermesPayments.Wavelength.Correctness.Statuses
import HermesPayments.Lib.Trace
import HermesPayments.Lib.Simulation
import HermesPayments.Process.Handlers
import HermesPayments.Process.Contents
import HermesPayments.Exchange
import HermesPayments.Exchange.Provenance
import HermesPayments.Exchange.Hub
import HermesPayments.Exchange.Relay
import HermesPayments.Exchange.Correctness.Payments
import HermesPayments.Exchange.Correctness.Transports
import HermesPayments.Lib.Pipes
import HermesPayments.Process.Jsonl
import HermesPayments.Process.Jsonl.RoundTrip
import HermesPayments.Session
import HermesPayments.Session.Lockstep
import HermesPayments.Session.Provenance
import HermesPayments.Session.Progress
import HermesPayments.Session.Correctness.Operator
import HermesPayments.Wavelength.Executor
import HermesPayments.Process.Answers
import HermesPayments.Exchange.Payload
import HermesPayments.Exchange.Wallet
import HermesPayments.Exchange.Correctness.Wallets
import HermesPayments.Lib.Resumed
import HermesPayments.Process.Correctness.AuditFile
import HermesPayments.Lib.Worklist
import HermesPayments.StateMachine.Reachable
import HermesPayments.Process.Correctness.Coverage
