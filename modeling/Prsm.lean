import Prsm.AtomicFtns.LogAgreement
import Prsm.Bridge.Minting
import Prsm.Bridge.Supply
import Prsm.BridgeSecurity.Validators
import Prsm.ChainRpc.ActivationCodec
import Prsm.ChainRpc.DraftHistory
import Prsm.ChainRpc.RoundTrip
import Prsm.ChainRpc.Signatures
import Prsm.Compensation.Payouts
import Prsm.ConsensusQueue.Draining
import Prsm.ConsensusQueue.Lifecycle
import Prsm.CreatorStake.Lock
import Prsm.DagLedger.RegisteredKey
import Prsm.DagLedger.Weights
import Prsm.EmbeddingDht.CreatorSigned
import Prsm.Epochs.Claims
import Prsm.Epochs.DryRun
import Prsm.Epochs.ProRata
import Prsm.EscrowPool.Accounting
import Prsm.Gossip.OnceOnly
import Prsm.Gossip.Origin
import Prsm.Inference.Binding
import Prsm.Inference.MultiStage
import Prsm.Inference.StageSessions
import Prsm.Inference.TopologyRotation
import Prsm.LedgerSync.Handler
import Prsm.LocalLedger.Overdraft
import Prsm.Marketplace.Budget
import Prsm.NoEscrow.Scan
import Prsm.NodeProofs.Soundness
import Prsm.PaidKeys.PaidRelease
import Prsm.PaymentAuth.Budget
import Prsm.PaymentAuth.Interference
import Prsm.PaymentAuth.NonceReplay
import Prsm.PerStage.Cap
import Prsm.Pipeline.OneShot
import Prsm.Pipeline.WholeModel
import Prsm.PrivacyBudget.CrashSafety
import Prsm.PrivacyBudget.TamperEvidence
import Prsm.Registry.ChallengeLimits
import Prsm.Registry.Window
import Prsm.Royalty.Entitlements
import Prsm.RoyaltyBatches.PaidOnce
import Prsm.ReceiptSets.Decoding
import Prsm.Settlement.DetectorSoundness
import Prsm.Settlement.DoubleSpendChallenge
import Prsm.Settlement.ReceiptSet
import Prsm.Settlement.SlashEvasion
import Prsm.SettlementClient.AtMostOnce
import Prsm.SettlementClient.Conservation
import Prsm.SettlementClient.Homogeneous
import Prsm.SettlementClient.StateFile
import Prsm.ShardDispatch.PaidReceipts
import Prsm.Speculation.Sampling
import Prsm.StakeBond.StorageSlashing
import Prsm.StakeBond.TierExposure
import Prsm.Storage.Deletion
import Prsm.Storage.Descriptors
import Prsm.Storage.Durability
import Prsm.Storage.Placement
import Prsm.Storage.ProofSoundness
import Prsm.Storage.StreamingCiphertext
