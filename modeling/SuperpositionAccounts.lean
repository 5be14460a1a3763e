import SuperpositionAccounts.Borsh.Format
import SuperpositionAccounts.Wire.Types
import SuperpositionAccounts.Wire.Canonical
import SuperpositionAccounts.Wire.Go
import SuperpositionAccounts.Wire.Signing
import SuperpositionAccounts.Wire.Separation
import SuperpositionAccounts.CallTree.Program
import SuperpositionAccounts.CallTree.Rely
import SuperpositionAccounts.CallTree.Effects
import SuperpositionAccounts.Account.Storage
import SuperpositionAccounts.Account.Entry
import SuperpositionAccounts.Account.Effects
import SuperpositionAccounts.Account.Nonces
import SuperpositionAccounts.CallTree.Cooperation
import SuperpositionAccounts.Account.Gas
import SuperpositionAccounts.Account.Success
import SuperpositionAccounts.Account.Exclusion
import SuperpositionAccounts.Account.Lifecycle
import SuperpositionAccounts.Account.Replay
import SuperpositionAccounts.CallTree.Relocation
import SuperpositionAccounts.Factory.Beacon
import SuperpositionAccounts.Evm.Assembly
import SuperpositionAccounts.Evm.Memory
import SuperpositionAccounts.Evm.Machine
import SuperpositionAccounts.Lite.Bytecode
import SuperpositionAccounts.Lite.Account
import SuperpositionAccounts.Lite.Execution
import SuperpositionAccounts.Lite.Forwarding
import SuperpositionAccounts.Account.Authority
import SuperpositionAccounts.Factory.ProxyCode
import SuperpositionAccounts.Server.Text
import SuperpositionAccounts.Server.Convertor
import SuperpositionAccounts.Server.ClientNonce
import SuperpositionAccounts.Threads.Pool
import SuperpositionAccounts.Server.Operations
import SuperpositionAccounts.Server.Resolvers
import SuperpositionAccounts.Server.Protocol
import SuperpositionAccounts.Server.Sessions
import SuperpositionAccounts.Server.Accepted
import SuperpositionAccounts.Server.MintPolicy
import SuperpositionAccounts.Server.Senders
import SuperpositionAccounts.Router.Code
import SuperpositionAccounts.Router.Routing
import SuperpositionAccounts.CallTree.Embedding
import SuperpositionAccounts.Factory.Accounts
import SuperpositionAccounts.Factory.Creation
import SuperpositionAccounts.Server.HexTexts
import SuperpositionAccounts.Server.MintCalldata
import SuperpositionAccounts.Server.SecretSignature
import SuperpositionAccounts.Scheduling.LeastRecent
import SuperpositionAccounts.Server.RateLimit
import SuperpositionAccounts.Server.Rotation
import SuperpositionAccounts.Server.Spelling
import SuperpositionAccounts.Lite.Cli
import SuperpositionAccounts.CallTree.Surroundings
import SuperpositionAccounts.Tokens.Ledger
import SuperpositionAccounts.Account.Approval
import SuperpositionAccounts.Server.Outbox
import SuperpositionAccounts.Server.Carried
import SuperpositionAccounts.Server.Records
import SuperpositionAccounts.Account.Transcripts
import SuperpositionAccounts.Factory.Onboarding
import SuperpositionAccounts.Factory.Enrolment
import SuperpositionAccounts.Server.Answers
import SuperpositionAccounts.Account.Spending
