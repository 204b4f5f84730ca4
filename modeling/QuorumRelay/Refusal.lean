/-!
# Reasons to refuse a request

The program numbers its own reasons consecutively from 6000, in the order of
this list.
-/

namespace QuorumRelay

/-- Why the program refuses a request. -/
inductive Refusal where
  | messageTooLarge
  | computeBudgetExceeded
  | senderTooLong
  | emptySender
  | invalidChainConfig
  | invalidBridgeParams
  | digestMismatch
  | invalidMessageHash
  | alreadyProcessed
  | outOfOrder
  | missingSenderCursor
  | senderCursorMismatch
  | quorumNotMet
  | duplicateSigner
  | tooManyAttestations
  | invalidEd25519Instruction
  | chainPaused
  | rateLimited
  | insufficientLiquidity
  | insufficientFee
  | targetNotSponsored
  | insufficientSponsorBalance
  | tooManySponsoredTargets
  | insufficientEarnings
  | insufficientPoolBalance
  | invalidAmount
  | insufficientStake
  | relayerAlreadyRegistered
  | relayerSetFull
  | unknownRelayer
  | notRelayerOwner
  | invalidThreshold
  | thresholdTooHigh
  | invalidStatusTransition
  | reclaimTooEarly
  | notMessageSender
  | invalidBatchSize
  | mixedBatch
  | strictOrderingRequiresSingle
  | duplicateBatchMember
  | missingBatchAccounts
  | destinationMismatch
  | destinationNotExecutable
  | invalidValueInbox
  | unauthorizedAuthority
  | chainMismatch
  | arithmeticOverflow
  deriving DecidableEq

namespace Refusal

/-- All reasons, in the order of their numbers. -/
def all : List Refusal :=
  [messageTooLarge, computeBudgetExceeded, senderTooLong, emptySender, invalidChainConfig,
   invalidBridgeParams, digestMismatch, invalidMessageHash, alreadyProcessed, outOfOrder,
   missingSenderCursor, senderCursorMismatch, quorumNotMet, duplicateSigner,
   tooManyAttestations, invalidEd25519Instruction, chainPaused, rateLimited,
   insufficientLiquidity, insufficientFee, targetNotSponsored, insufficientSponsorBalance,
   tooManySponsoredTargets, insufficientEarnings, insufficientPoolBalance, invalidAmount,
   insufficientStake, relayerAlreadyRegistered, relayerSetFull, unknownRelayer,
   notRelayerOwner, invalidThreshold, thresholdTooHigh, invalidStatusTransition,
   reclaimTooEarly, notMessageSender, invalidBatchSize, mixedBatch,
   strictOrderingRequiresSingle, duplicateBatchMember, missingBatchAccounts,
   destinationMismatch, destinationNotExecutable, invalidValueInbox, unauthorizedAuthority,
   chainMismatch, arithmeticOverflow]

theorem mem_all (r : Refusal) : r ∈ all := by
  cases r <;> decide

/-- The number under which the reason is reported. -/
def code (r : Refusal) : Nat := 6000 + all.idxOf r

/-- The name under which the reason is reported. -/
def name : Refusal → String
  | messageTooLarge => "MessageTooLarge"
  | computeBudgetExceeded => "ComputeBudgetExceeded"
  | senderTooLong => "SenderTooLong"
  | emptySender => "EmptySender"
  | invalidChainConfig => "InvalidChainConfig"
  | invalidBridgeParams => "InvalidBridgeParams"
  | digestMismatch => "DigestMismatch"
  | invalidMessageHash => "InvalidMessageHash"
  | alreadyProcessed => "AlreadyProcessed"
  | outOfOrder => "OutOfOrder"
  | missingSenderCursor => "MissingSenderCursor"
  | senderCursorMismatch => "SenderCursorMismatch"
  | quorumNotMet => "QuorumNotMet"
  | duplicateSigner => "DuplicateSigner"
  | tooManyAttestations => "TooManyAttestations"
  | invalidEd25519Instruction => "InvalidEd25519Instruction"
  | chainPaused => "ChainPaused"
  | rateLimited => "RateLimited"
  | insufficientLiquidity => "InsufficientLiquidity"
  | insufficientFee => "InsufficientFee"
  | targetNotSponsored => "TargetNotSponsored"
  | insufficientSponsorBalance => "InsufficientSponsorBalance"
  | tooManySponsoredTargets => "TooManySponsoredTargets"
  | insufficientEarnings => "InsufficientEarnings"
  | insufficientPoolBalance => "InsufficientPoolBalance"
  | invalidAmount => "InvalidAmount"
  | insufficientStake => "InsufficientStake"
  | relayerAlreadyRegistered => "RelayerAlreadyRegistered"
  | relayerSetFull => "RelayerSetFull"
  | unknownRelayer => "UnknownRelayer"
  | notRelayerOwner => "NotRelayerOwner"
  | invalidThreshold => "InvalidThreshold"
  | thresholdTooHigh => "ThresholdTooHigh"
  | invalidStatusTransition => "InvalidStatusTransition"
  | reclaimTooEarly => "ReclaimTooEarly"
  | notMessageSender => "NotMessageSender"
  | invalidBatchSize => "InvalidBatchSize"
  | mixedBatch => "MixedBatch"
  | strictOrderingRequiresSingle => "StrictOrderingRequiresSingle"
  | duplicateBatchMember => "DuplicateBatchMember"
  | missingBatchAccounts => "MissingBatchAccounts"
  | destinationMismatch => "DestinationMismatch"
  | destinationNotExecutable => "DestinationNotExecutable"
  | invalidValueInbox => "InvalidValueInbox"
  | unauthorizedAuthority => "UnauthorizedAuthority"
  | chainMismatch => "ChainMismatch"
  | arithmeticOverflow => "ArithmeticOverflow"

/-- The sentence that explains the reason. -/
def message : Refusal → String
  | messageTooLarge => "Payload exceeds the chain's maximum message size"
  | computeBudgetExceeded => "Compute budget exceeds the chain's maximum"
  | senderTooLong => "Source sender address too long"
  | emptySender => "Empty source sender address"
  | invalidChainConfig => "Invalid chain configuration"
  | invalidBridgeParams => "Invalid bridge parameters"
  | digestMismatch => "Supplied digest does not match the message"
  | invalidMessageHash => "Invalid message hash"
  | alreadyProcessed => "Message already processed"
  | outOfOrder =>
    "Source nonce is not greater than the last processed nonce for this sender"
  | missingSenderCursor => "Strict-ordering chains require a sender cursor"
  | senderCursorMismatch => "Sender cursor does not belong to this message"
  | quorumNotMet => "Quorum of relayer signatures not met"
  | duplicateSigner => "Duplicate relayer index in attestations"
  | tooManyAttestations => "Too many attestations"
  | invalidEd25519Instruction => "Invalid Ed25519 instruction data"
  | chainPaused => "Chain is paused"
  | rateLimited => "Rate limit exceeded for this epoch"
  | insufficientLiquidity => "Bridge vault cannot cover the transfer"
  | insufficientFee => "Fee paid is below the required fee"
  | targetNotSponsored => "Destination is not sponsored"
  | insufficientSponsorBalance => "Sponsor balance too low"
  | tooManySponsoredTargets => "Sponsor allow-list is full"
  | insufficientEarnings => "Claim exceeds earned compensation"
  | insufficientPoolBalance => "Claim exceeds relayer pool balance"
  | invalidAmount => "Amount must be greater than zero"
  | insufficientStake => "Stake below the minimum"
  | relayerAlreadyRegistered => "Relayer public key already registered"
  | relayerSetFull => "Relayer set is full"
  | unknownRelayer => "Unknown relayer index"
  | notRelayerOwner => "Caller does not own this relayer slot"
  | invalidThreshold => "Invalid signature threshold"
  | thresholdTooHigh => "Signature threshold exceeds relayer count"
  | invalidStatusTransition => "Illegal outbound status transition"
  | reclaimTooEarly => "Message is not old enough to reclaim"
  | notMessageSender => "Only the original sender may reclaim"
  | invalidBatchSize => "Batch is empty or too large"
  | mixedBatch => "Batch members must share one source chain"
  | strictOrderingRequiresSingle =>
    "Strict-ordering chains must be processed one message at a time"
  | duplicateBatchMember => "Batch contains the same message twice"
  | missingBatchAccounts => "Missing accounts for batch member"
  | destinationMismatch => "Destination program does not match destination address"
  | destinationNotExecutable => "Destination is not an executable program"
  | invalidValueInbox => "Value inbox is not the destination program's inbox"
  | unauthorizedAuthority => "Unauthorized authority"
  | chainMismatch => "Chain identifier does not match account"
  | arithmeticOverflow => "Arithmetic overflow"

end Refusal

end QuorumRelay
