import Prsm.LocalLedger.Operations

/-!
# The entries of `PaymentEscrow`

What a caller of `PaymentEscrow` is handed: the entry of an escrow, and the exceptions of
its methods.
-/

namespace Prsm.PaymentEscrow

inductive EscrowStatus
  | pending
  | released
  | refunded
  | disputed

structure EscrowEntry where
  escrowId : String
  jobId : String
  requesterId : String
  amount : ℚ
  status : EscrowStatus
  providerWinner : Option String
  txLock : Option String
  txRelease : Option String
  createdAt : ℚ
  completedAt : Option ℚ

inductive Error
  | ledger (e : LocalLedger.Error)
  | alreadyFinalized (jobId : String) (status : EscrowStatus)
  | partialAmountNotPositive (partialAmount : ℚ)
  | emptyRecipient
  | splitAmountNotPositive (recipientId : String) (amount : ℚ)
  | splitsExceedEscrow (totalSplit amount : ℚ) (jobId : String)

end Prsm.PaymentEscrow
