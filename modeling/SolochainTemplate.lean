import SolochainTemplate.Framework.Runs
import SolochainTemplate.Framework.SlotGrid
import SolochainTemplate.Framework.PhaseGrid
import SolochainTemplate.Framework.ResetCounter
import SolochainTemplate.Framework.RoundRobin
import SolochainTemplate.Framework.Gossip
import SolochainTemplate.Framework.Growth
import SolochainTemplate.Sdk.FrameSystem
import SolochainTemplate.Sdk.Consensus
import SolochainTemplate.Pallet.TemplateRuns
import SolochainTemplate.Pallet.TemplateOrder
import SolochainTemplate.Pallet.Weights
import SolochainTemplate.Runtime.Blocks
import SolochainTemplate.Runtime.BlockRate
import SolochainTemplate.Runtime.Authorities
import SolochainTemplate.Runtime.Transactions
import SolochainTemplate.Runtime.Replay
import SolochainTemplate.Runtime.Genesis
import SolochainTemplate.Node.Rounds
import SolochainTemplate.Node.SlotDurationChange
import SolochainTemplate.Node.Tolerance
import SolochainTemplate.Node.Network
import SolochainTemplate.Node.NetworkProgress
import SolochainTemplate.Node.Forks
import SolochainTemplate.Node.ChainSpec
import SolochainTemplate.Node.BenchmarkEra
import SolochainTemplate.Node.BenchmarkBlock
