import WalletRouting.Draws.Call
import WalletRouting.Policy.Moment
import WalletRouting.RecordKind
import WalletRouting.Ruling.Given
import WalletRouting.Run.Given
import WalletRouting.Score.Short
import WalletRouting.Service.Basic
import WalletRouting.Service.Call
import WalletRouting.Proofs.Keyed
import WalletRouting.Proofs.Ordered
import WalletRouting.Proofs.Policy.Active
import WalletRouting.Proofs.Policy.Validity
import WalletRouting.Proofs.Ruling.Encounters
import WalletRouting.Proofs.Ruling.Decision
import WalletRouting.Proofs.Number.Order
import WalletRouting.Proofs.Score.Ranking
import WalletRouting.Proofs.Run.Findings
import WalletRouting.Proofs.Run.Selection
import WalletRouting.Proofs.Registry.Signing
import WalletRouting.Proofs.Run.World
import WalletRouting.Proofs.Run.Operation
import WalletRouting.Proofs.Run.Signing
import WalletRouting.Proofs.Registry.Editing
import WalletRouting.Proofs.Run.Editing
import WalletRouting.Proofs.Draws
import WalletRouting.Proofs.Run.Degradation
import WalletRouting.Proofs.Run.Isolation
import WalletRouting.Proofs.Resolution.Choice
import WalletRouting.Proofs.Run.Destination
import WalletRouting.Proofs.Run.Payment
import WalletRouting.Proofs.Score.Exclusion
import WalletRouting.Proofs.Policy.Precedence
import WalletRouting.Proofs.Policy.Signature
import WalletRouting.Proofs.Registry.Scope
import WalletRouting.Proofs.Run.Scope
import WalletRouting.Proofs.Run.Pinning
import WalletRouting.Proofs.Registry.Independence
import WalletRouting.Proofs.Run.Restart
import WalletRouting.Proofs.Run.Independence
import WalletRouting.Proofs.Ruling.Parts
import WalletRouting.Proofs.Ruling.Storage
import WalletRouting.Proofs.Ruling.Wallet
import WalletRouting.Proofs.Number.Scientific
import WalletRouting.Proofs.Score.Contest
import WalletRouting.Proofs.Run.Shadow
import WalletRouting.Proofs.Text.Mending
import WalletRouting.Proofs.Schema.Writing
import WalletRouting.Proofs.Audit.Writing
import WalletRouting.Proofs.Schema.Ensuring
import WalletRouting.Proofs.Audit.Reading
import WalletRouting.Proofs.Run.Record
import WalletRouting.Proofs.Number.Nearness
import WalletRouting.Proofs.Number.Reading
import WalletRouting.Proofs.Json.Scanning
import WalletRouting.Proofs.Json.Reading
import WalletRouting.Proofs.Service.Request
import WalletRouting.Proofs.Service.Record
import WalletRouting.Proofs.Ruling.Wording
import WalletRouting.Proofs.Run.Wording
import WalletRouting.Proofs.Resolution.Spending
import WalletRouting.Proofs.Run.Spending
import WalletRouting.Proofs.Access.Denial
import WalletRouting.Proofs.Service.Guarding
import WalletRouting.Proofs.Service.Failing
import WalletRouting.Proofs.Audit.Publishing
import WalletRouting.Proofs.Access.Rotation
import WalletRouting.Proofs.Score.Placing
import WalletRouting.Proofs.Service.Refusing
import WalletRouting.Proofs.Draws.Position
import WalletRouting.Proofs.Resolution.Exclusion
import WalletRouting.Proofs.Resolution.Outcome
import WalletRouting.Proofs.Policy.Reading
import WalletRouting.Proofs.Registry.Revising
import WalletRouting.Proofs.Registry.Reordering
import WalletRouting.Proofs.Policy.Naming
import WalletRouting.Proofs.Policy.Loss
import WalletRouting.Proofs.Ruling.Gates
import WalletRouting.Proofs.Score.Sensitivity
import WalletRouting.Proofs.Number.Exact
import WalletRouting.Proofs.Policy.Comparing
import WalletRouting.Proofs.Ruling.Placeholder
import WalletRouting.Proofs.Number.Signed
import WalletRouting.Proofs.Score.Scale
import WalletRouting.Proofs.Score.Rates
import WalletRouting.Proofs.Draws.Cycle
import WalletRouting.Proofs.Number.Opposite
import WalletRouting.Proofs.Risk.Independence
import WalletRouting.Proofs.Number.Monotone
import WalletRouting.Proofs.Risk.Monotone
import WalletRouting.Proofs.Audit.Difference
import WalletRouting.Proofs.Draws.Shuffle
import WalletRouting.Proofs.Draws.Correlation
