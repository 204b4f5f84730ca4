/-!
# The count of a quorum check
-/

namespace QuorumRelay

/-- How the attestations over one digest were counted. -/
structure Tally where
  /-- Signatures that verify under the key of an occupied slot. -/
  valid : UInt8 := 0
  /-- Attestations that name an empty or unknown slot. -/
  inactive : UInt8 := 0
  /-- Attestations of registered relayers whose signature does not verify. -/
  invalid : UInt8 := 0
  /-- Valid signatures that the relayer set asks for. -/
  required : UInt8 := 0
  deriving DecidableEq

/-- Enough valid signatures, of a set that asks for at least one. -/
def Tally.isMet (t : Tally) : Bool :=
  1 ≤ t.required && t.required ≤ t.valid

end QuorumRelay
