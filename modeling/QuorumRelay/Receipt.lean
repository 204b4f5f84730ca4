import QuorumRelay.Bytes
import QuorumRelay.Amount

/-!
# Receipts

A receipt is the mark that the message with one digest has been executed, and
the record of how that went.  The mark is never taken back.
-/

namespace QuorumRelay

/-- The receipt of one digest; the zero digest marks one not yet bound. -/
structure Receipt where
  digest : Digest := .zero
  processed : Bool := false
  sourceChain : ChainId := 0
  sourceNonce : Nonce := 0
  /-- Whether the destination call completed. -/
  succeeded : Bool := false
  /-- Who submitted the message. -/
  submitter : Key := .zero
  processedAt : Slot := 0
  bump : UInt8 := 0
  deriving DecidableEq

namespace Receipt

/-- Bind a fresh receipt to a digest; a bound one stays as it is. -/
def bind (digest : Digest) (bump : UInt8) (r : Receipt) : Receipt :=
  if r.digest = .zero then { r with digest, bump } else r

/-- Whether the receipt marks a digest as executed. -/
def contains (r : Receipt) (digest : Digest) : Bool :=
  r.processed && r.digest = digest

/-- The receipt with the mark of a digest. -/
def marked (digest : Digest) (r : Receipt) : Receipt := { r with digest, processed := true }

/-- Mark a digest as executed. -/
def insert (digest : Digest) : Action Receipt Unit := do
  let r ← get
  require (r.processed = false) .alreadyProcessed
  require (r.digest = .zero ∨ r.digest = digest) .digestMismatch
  set (r.marked digest)

/-- Note how the execution went. -/
def note (sourceChain : ChainId) (sourceNonce : Nonce) (succeeded : Bool) (submitter : Key)
    (now : Slot) (r : Receipt) : Receipt :=
  { r with sourceChain, sourceNonce, succeeded, submitter, processedAt := now }

end Receipt

end QuorumRelay
