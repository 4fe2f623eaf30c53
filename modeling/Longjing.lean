import Longjing.Lib.Merkle
import Longjing.Credits.Lemmas.Ledger
import Longjing.Credits.Lemmas.Admin
import Longjing.Credits.Lemmas.Exit
import Longjing.Credits.Lemmas.Pause
import Longjing.Credits.Lemmas.Tree
import Longjing.Credits.Lemmas.Roots
import Longjing.Lib.Edwards
import Longjing.Accumulator.Group
import Longjing.Accumulator.Sqrt
import Longjing.Accumulator.Order
import Longjing.Accumulator.HashToCurve
import Longjing.Blockchain.Watch
import Longjing.Blockchain.Connect
import Longjing.Attestation.EventLog
import Longjing.Js.BigInt
import Longjing.Server.Encoding
import Longjing.Js.Map
import Longjing.Server.Store
import Longjing.Server.Slashing
import Longjing.Server.Request
import Longjing.Server.Padding
import Longjing.Server.Lemmas.RateLimit
import Longjing.Server.Migration
import Longjing.Server.Lemmas.Basic
import Longjing.Server.Lemmas.Once
import Longjing.Server.Lemmas.Slash
import Longjing.Server.Handle
import Longjing.Circuit.Circomlib
import Longjing.Circuit.Templates
import Longjing.Circuit.Request
import Longjing.Accumulator.Homomorphism
import Longjing.Server.Readers
import Longjing.Server.Lemmas.Retry
import Longjing.Server.Lemmas.Issued
import Longjing.Pricing.Coherence
import Longjing.Pricing.Update
import Longjing.Pricing.Tiers
import Longjing.Pricing.Claude
import Longjing.Pricing.Estimate
import Longjing.Pricing.Eviction
import Longjing.Pricing.EthRate
import Longjing.Attestation.KeyBinding
import Longjing.Attestation.Governance
import Longjing.Circuit.Membership
import Longjing.Client.Note
import Longjing.Client.Failure
import Longjing.Client.Owner
import Longjing.Client.Signals
import Longjing.System.Basic
import Longjing.System.Pending
import Longjing.Client.Sound
import Longjing.System.Books
import Longjing.System.Exit
import Longjing.System.Agreement
import Longjing.System.Issuance
import Longjing.System.Delivery
import Longjing.System.Refunds
import Longjing.System.Understated
import Longjing.Blockchain.Shutdown
import Longjing.Governance.Releases
import Longjing.Credits.Lemmas.Settle
import Longjing.Credits.SettlementVerifier
import Longjing.Credits.Bn254
import Longjing.Credits.Lemmas.Verified
import Longjing.System.Slashed
import Longjing.Server.Lemmas.Accuse
import Longjing.Credits.Lemmas.Payout
import Longjing.System.Ownership
import Longjing.Server.Lemmas.Serve
import Longjing.System.Exchange
import Longjing.Server.Verifier
import Longjing.Server.Service
import Longjing.Governance.AppOwner
import Longjing.Attestation.Enclave
import Longjing.Server.Wire
import Longjing.Client.File
