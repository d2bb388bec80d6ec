import LedgerClient.Bytes
import LedgerClient.Calendar.Basic
import LedgerClient.Calendar.Reader
import LedgerClient.Client
import LedgerClient.CommandLine
import LedgerClient.Crypto.Ed25519
import LedgerClient.Crypto.Edwards
import LedgerClient.Crypto.Key
import LedgerClient.Crypto.Sha2
import LedgerClient.Error
import LedgerClient.Json.Basic
import LedgerClient.Json.Binary64
import LedgerClient.Json.Form
import LedgerClient.Json.Lookup
import LedgerClient.Json.Number
import LedgerClient.Json.Parser
import LedgerClient.Json.Printer
import LedgerClient.Ledger.Entity
import LedgerClient.Ledger.EntityReader
import LedgerClient.Ledger.Status
import LedgerClient.Ledger.Timestamp
import LedgerClient.Ledger.TimestampDate
import LedgerClient.Ledger.TimestampReader
import LedgerClient.Ledger.TimestampSource
import LedgerClient.Ledger.TransactionId
import LedgerClient.Main
import LedgerClient.Network.AddressBook
import LedgerClient.Network.Fault
import LedgerClient.Network.Frame
import LedgerClient.Network.Node
import LedgerClient.Network.Registry
import LedgerClient.Network.Selection
import LedgerClient.Proofs.Splits
import LedgerClient.Proofs.Network.Selection
import LedgerClient.Proofs.Network.Rounds
import LedgerClient.Request.Query
import LedgerClient.Request.Submission
import LedgerClient.Retry.Backoff
import LedgerClient.Retry.Cancellation
import LedgerClient.Retry.Config
import LedgerClient.Retry.Engine
import LedgerClient.Retry.Verdict
import LedgerClient.Rpc.Envelope
import LedgerClient.Rpc.ErrorObject
import LedgerClient.Rpc.Http
import LedgerClient.Rpc.Metrics
import LedgerClient.Rpc.Service
import LedgerClient.Rpc.TransferParams
import LedgerClient.Simulation.Script
import LedgerClient.Simulation.ScriptedLedger
import LedgerClient.Simulation.Session
import LedgerClient.Table
import LedgerClient.Text.Blank
import LedgerClient.Text.Decimal
import LedgerClient.Text.Quoted
import LedgerClient.Text.Split
import LedgerClient.Text.Unprintable
import LedgerClient.Transfer.Draft
import LedgerClient.Transfer.Entries
import LedgerClient.Transfer.Frozen
import LedgerClient.Transfer.Operation
import LedgerClient.Transfer.Signatures
import LedgerClient.Wire.Binary
import LedgerClient.Wire.Codec
import LedgerClient.Wire.Form
import LedgerClient.Wire.Message
import LedgerClient.Wire.Stored
import LedgerClient.Proofs.Retry.Run
import LedgerClient.Proofs.Retry.Turns
import LedgerClient.Proofs.Retry.Trace
import LedgerClient.Proofs.Retry.Interruption
import LedgerClient.Proofs.Wire.Binary
import LedgerClient.Proofs.Wire.Exact
import LedgerClient.Proofs.Request.Submission
import LedgerClient.Proofs.Transfer.Accumulation
import LedgerClient.Proofs.Transfer.Bodies
import LedgerClient.Proofs.Transfer.Collection
import LedgerClient.Proofs.Network.Health
import LedgerClient.Proofs.Network.Framing
import LedgerClient.Proofs.Retry.Marks
import LedgerClient.Proofs.Retry.Schedule
import LedgerClient.Proofs.Json.Fields
import LedgerClient.Proofs.Json.Size
import LedgerClient.Proofs.Transfer.Grouping
import LedgerClient.Proofs.Transfer.Extent
import LedgerClient.Proofs.Retry.Uninterrupted
import LedgerClient.Proofs.Request.Receipt
import LedgerClient.Proofs.Request.Sending
import LedgerClient.Proofs.Rpc.TransferParams
import LedgerClient.Proofs.Rpc.Bodies
import LedgerClient.Proofs.Rpc.Sessions
import LedgerClient.Proofs.Rpc.Transfer
import LedgerClient.Proofs.Rpc.Handling
import LedgerClient.Proofs.Rpc.Serving
import LedgerClient.Proofs.Rpc.Faults
import LedgerClient.Proofs.Rpc.Refusals
import LedgerClient.Proofs.Rpc.Overlap
import LedgerClient.Proofs.Rpc.Isolation
import LedgerClient.Proofs.Transfer.Lists
import LedgerClient.Proofs.Transfer.Decimals
import LedgerClient.Proofs.Network.Passes
import LedgerClient.Proofs.Network.RoundRobin
import LedgerClient.Proofs.Request.Primary
import LedgerClient.Proofs.Transfer.Seeding
import LedgerClient.Proofs.Json.Kept
import LedgerClient.Proofs.Rpc.Envelopes
import LedgerClient.Proofs.Text.Cuts
import LedgerClient.Proofs.Text.Numerals
import LedgerClient.Proofs.Text.FixedPoint
import LedgerClient.Proofs.Ledger.Instants
import LedgerClient.Proofs.Ledger.AddedTime
import LedgerClient.Proofs.Ledger.SharedSource
import LedgerClient.Proofs.Ledger.TimestampText
import LedgerClient.Proofs.Ledger.IssuedInstants
import LedgerClient.Proofs.Ledger.IdentifierText
import LedgerClient.Proofs.Request.Polling
import LedgerClient.Proofs.Retry.Doubling
import LedgerClient.Proofs.Transfer.Settings
import LedgerClient.Proofs.Crypto.KeyText
import LedgerClient.Proofs.Text.Hexadecimal
