import QuorumRelay.Base58
import QuorumRelay.Fault
import QuorumRelay.Outbound.Message

/-!
# Log lines

What the program writes to the log, for people to read.  A line is a value first;
`Notice.text` alone decides how it reads.
-/

namespace QuorumRelay

/-- What a log line says. -/
inductive Notice where
  | initialized (hostChain : ChainId) (identity : Address)
  | chainConfigured (id : ChainId) (maxBytes rateLimit : UInt32) (strict : Bool)
  | chainPauseUpdated (id : ChainId) (active : Bool)
  | thresholdSet (required active : UInt8)
  | feeScheduleUpdated
  | authorityTransferred (previous newAuthority : Key)
  | messageSent (nonce : Nonce) (destinationChain : ChainId) (fee : Amount) (payer : FeePayer)
  | sponsorPaid (owner : Key) (fee balance : Amount)
  | statusChanged (nonce : Nonce) (status : MessageStatus)
  | refunded (value : Amount) (nonce : Nonce)
  | quorumNotMet (tally : Tally)
  | memberSkipped (nonce : Nonce)
  | executionFailed (sourceChain : ChainId) (nonce : Nonce) (cause : Fault)
  | messageProcessed (sourceChain : ChainId) (nonce : Nonce) (succeeded : Bool) (reward : Amount)
  | batchProcessed (size : Nat) (chain : ChainId) (executed : Nat)
  | cursorOpened (chain : ChainId)
  | relayerRegistered (owner : Key) (index active required : UInt8)
  | relayerLeft (owner : Key) (index : UInt8) (payout : Amount)
  | compensationClaimed (index : UInt8) (amount : Amount)
  | sponsorOpened (owner : Key)
  | sponsorBalance (owner : Key) (balance : Amount)
  | sponsorTarget (owner : Key) (allowed : Bool) (chain : ChainId) (count : Nat)
  deriving DecidableEq

namespace Notice

/-- Bytes as decimal numbers in brackets. -/
def byteList (bytes : List UInt8) : String :=
  "[" ++ ", ".intercalate (bytes.map fun b => toString b.toNat) ++ "]"

/-- A truth value as a word. -/
def word (b : Bool) : String :=
  if b then "true" else "false"

/-- How a line reads. -/
def text : Notice → String
  | initialized hostChain identity =>
    s!"Bridge initialized for host chain {hostChain.toNat} with identity " ++
      byteList identity.toList
  | chainConfigured id maxBytes rateLimit strict =>
    s!"Chain {id.toNat} configured: max_bytes={maxBytes.toNat}, rate_limit={rateLimit.toNat}, strict={word strict}"
  | chainPauseUpdated id active =>
    s!"Chain {id.toNat} " ++ if active then "resumed" else "paused"
  | thresholdSet required active => s!"Threshold set to {required.toNat} of {active.toNat}"
  | feeScheduleUpdated => "Fee schedule updated"
  | authorityTransferred previous newAuthority =>
    s!"Authority transferred from {previous.toBase58} to {newAuthority.toBase58}"
  | messageSent nonce destinationChain fee payer =>
    s!"Message sent: nonce={nonce.toNat}, dest_chain={destinationChain.toNat}, fee={fee.toNat}, payer=" ++
      match payer with
      | .sender => "sender"
      | .sponsor _ => "sponsor"
  | sponsorPaid owner fee balance =>
    s!"Sponsor {owner.toBase58} paid {fee.toNat} lamports, balance {balance.toNat}"
  | statusChanged nonce status => s!"Outbound nonce={nonce.toNat} is now {status.name}"
  | refunded value nonce => s!"Refunded {value.toNat} lamports for nonce {nonce.toNat}"
  | quorumNotMet t =>
    s!"Quorum not met: valid={t.valid.toNat}, inactive={t.inactive.toNat}, invalid={t.invalid.toNat}, required={t.required.toNat}"
  | memberSkipped nonce => s!"Skipping already processed message nonce={nonce.toNat}"
  | executionFailed sourceChain nonce cause =>
    s!"Execution failed for source_chain={sourceChain.toNat} nonce={nonce.toNat}: {cause.inLog}"
  | messageProcessed sourceChain nonce succeeded reward =>
    s!"Processed message from chain {sourceChain.toNat} nonce {nonce.toNat} (succeeded={word succeeded}, reward={reward.toNat})"
  | batchProcessed size chain executed =>
    s!"Processed batch of {size} from chain {chain.toNat} ({executed} new)"
  | cursorOpened chain => s!"Opened sender cursor on chain {chain.toNat}"
  | relayerRegistered owner index active required =>
    s!"Relayer {owner.toBase58} registered at index {index.toNat} (N={active.toNat}, M={required.toNat})"
  | relayerLeft owner index payout =>
    s!"Relayer {owner.toBase58} left index {index.toNat}, paid out {payout.toNat} lamports"
  | compensationClaimed index amount =>
    s!"Relayer {index.toNat} claimed {amount.toNat} lamports"
  | sponsorOpened owner => s!"Sponsor account opened for {owner.toBase58}"
  | sponsorBalance owner balance => s!"Sponsor {owner.toBase58} balance: {balance.toNat}"
  | sponsorTarget owner allowed chain count =>
    s!"Sponsor {owner.toBase58} " ++ (if allowed then "allowed" else "removed") ++
      s!" chain {chain.toNat} target, {count} targets"

end Notice

end QuorumRelay
