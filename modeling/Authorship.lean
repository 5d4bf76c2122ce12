import Authorship.Consensus.Observed
import Authorship.Consensus.OnDemand
import Authorship.Consensus.Verification
import Authorship.Docs.Catalogue
import Authorship.Docs.ImplementationTable
import Authorship.Docs.Site
import Authorship.Ed25519
import Authorship.Execution
import Authorship.Lottery.Migration
import Authorship.Lottery.Text
import Authorship.Settings
import Authorship.Slot.Loop
import Authorship.StorageHandle
import Authorship.Proofs.ForkTree.Branch
import Authorship.Proofs.ForkTree.Shape
import Authorship.Proofs.ForkTree.Run
import Authorship.Proofs.ForkTree.Pool
import Authorship.Proofs.ForkTree.Inclusion
import Authorship.Proofs.ForkTree.Best
import Authorship.Proofs.ForkTree.Longest
import Authorship.Proofs.ForkTree.Conservation
import Authorship.Proofs.ForkTree.Arrival
import Authorship.Proofs.ForkTree.Heights
import Authorship.Proofs.Codec
import Authorship.Proofs.Block.BinaryForm
import Authorship.Proofs.CanonicalForm
import Authorship.Proofs.Acceptance
import Authorship.Proofs.Block.Payload
import Authorship.Proofs.Block.Seal
import Authorship.Proofs.Inherent
import Authorship.Proofs.KeyStore
import Authorship.Proofs.Percent
import Authorship.Proofs.RoundRobin
import Authorship.Proofs.Settings
import Authorship.Proofs.Storage
import Authorship.Proofs.StorageHandle
import Authorship.Proofs.Execution
import Authorship.Proofs.Node.Keeps
import Authorship.Proofs.Node.Round
import Authorship.Proofs.Node.Sealing
import Authorship.Proofs.Node.Turns
import Authorship.Proofs.Node.Traffic
import Authorship.Proofs.Node.Executable
import Authorship.Proofs.Node.Eligibility
import Authorship.Proofs.Commitment
import Authorship.Proofs.ForkTree.History
import Authorship.Proofs.Node.Judged
import Authorship.Proofs.Node.Moments
import Authorship.Proofs.Node.Commands
import Authorship.Proofs.Node.Vetting
import Authorship.Proofs.Node.Receipt
import Authorship.Proofs.Node.Batch
import Authorship.Proofs.Node.Replay
import Authorship.Proofs.Node.Still
import Authorship.Proofs.Node.SlotBlock
import Authorship.Proofs.Lottery.Draw
import Authorship.Proofs.Lottery.Split
import Authorship.Proofs.Lottery.Reach
import Authorship.Proofs.Lottery.Subject
import Authorship.Proofs.Lottery.Odds
import Authorship.Proofs.Lottery.Migration
import Authorship.Proofs.Lottery.Run
import Authorship.Proofs.Validation
import Authorship.Proofs.Slot.Loop
import Authorship.Proofs.Node.Proposal
import Authorship.Proofs.Slot.Clock
import Authorship.Proofs.Docs.ImplementationTable
