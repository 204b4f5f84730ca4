import QuorumRelay.Quorum.Tally
import QuorumRelay.Refusal

/-!
# What can go wrong

A request fails because the program refuses it, because the accounts or the
bytes it was handed are not what the instruction asks for, because the host
could not do what the program asked of it, or because a counter of an
inconsistent record would leave its range, which aborts the program.
-/

namespace QuorumRelay

/-- The accounts or the data of an instruction are not what it asks for. -/
inductive AccessFault where
  | unknownInstruction
  | unreadableInstruction
  | eventInstruction
  | notWritable
  | wrongRelation
  | notRentExempt
  | wrongSeeds
  | wrongAddress
  | wrongSpace
  | noDiscriminator
  | wrongDiscriminator
  | unreadableRecord
  | unwritableRecord
  | missingAccount
  | wrongOwner
  | wrongProgram
  | notSigner
  | notInitialized
  | payerIsTarget
  deriving DecidableEq

namespace AccessFault

/-- The number under which the fault is reported. -/
def code : AccessFault → Nat
  | unknownInstruction => 101
  | unreadableInstruction => 102
  | eventInstruction => 1500
  | notWritable => 2000
  | wrongRelation => 2001
  | notRentExempt => 2005
  | wrongSeeds => 2006
  | wrongAddress => 2012
  | wrongSpace => 2019
  | noDiscriminator => 3001
  | wrongDiscriminator => 3002
  | unreadableRecord => 3003
  | unwritableRecord => 3004
  | missingAccount => 3005
  | wrongOwner => 3007
  | wrongProgram => 3008
  | notSigner => 3010
  | notInitialized => 3012
  | payerIsTarget => 4101

/-- The name under which the fault is reported. -/
def name : AccessFault → String
  | unknownInstruction => "InstructionFallbackNotFound"
  | unreadableInstruction => "InstructionDidNotDeserialize"
  | eventInstruction => "EventInstructionStub"
  | notWritable => "ConstraintMut"
  | wrongRelation => "ConstraintHasOne"
  | notRentExempt => "ConstraintRentExempt"
  | wrongSeeds => "ConstraintSeeds"
  | wrongAddress => "ConstraintAddress"
  | wrongSpace => "ConstraintSpace"
  | noDiscriminator => "AccountDiscriminatorNotFound"
  | wrongDiscriminator => "AccountDiscriminatorMismatch"
  | unreadableRecord => "AccountDidNotDeserialize"
  | unwritableRecord => "AccountDidNotSerialize"
  | missingAccount => "AccountNotEnoughKeys"
  | wrongOwner => "AccountOwnedByWrongProgram"
  | wrongProgram => "InvalidProgramId"
  | notSigner => "AccountNotSigner"
  | notInitialized => "AccountNotInitialized"
  | payerIsTarget => "TryingToInitPayerAsProgramAccount"

/-- The sentence that explains the fault. -/
def message : AccessFault → String
  | unknownInstruction => "Fallback functions are not supported"
  | unreadableInstruction => "The program could not deserialize the given instruction"
  | eventInstruction => "The program was compiled without \x60event-cpi\x60 feature"
  | notWritable => "A mut constraint was violated"
  | wrongRelation => "A has one constraint was violated"
  | notRentExempt => "A rent exemption constraint was violated"
  | wrongSeeds => "A seeds constraint was violated"
  | wrongAddress => "An address constraint was violated"
  | wrongSpace => "A space constraint was violated"
  | noDiscriminator => "No discriminator was found on the account"
  | wrongDiscriminator => "Account discriminator did not match what was expected"
  | unreadableRecord => "Failed to deserialize the account"
  | unwritableRecord => "Failed to serialize the account"
  | missingAccount => "Not enough account keys given to the instruction"
  | wrongOwner => "The given account is owned by a different program than expected"
  | wrongProgram => "Program ID was not as expected"
  | notSigner => "The given account did not sign"
  | notInitialized => "The program expected this account to be already initialized"
  | payerIsTarget => "You cannot/should not initialize the payer account as a program account"

end AccessFault

/-- The host could not do what was asked of it. -/
inductive HostFault where
  /-- A program that was called reports an error of its own. -/
  | custom (code : UInt32)
  | invalidArgument
  | arithmeticOverflow
  /-- An account would grow by more than one instruction may add to it. -/
  | invalidResize
  deriving DecidableEq

namespace HostFault

/-- The name under which the fault is reported. -/
def name : HostFault → String
  | custom code => s!"Custom({code.toNat})"
  | invalidArgument => "InvalidArgument"
  | arithmeticOverflow => "ArithmeticOverflow"
  | invalidResize => "InvalidRealloc"

/-- The sentence that explains the fault; a program's own code stands in base 16. -/
def message : HostFault → String
  | custom code => "Custom program error: 0x" ++ String.ofList (Nat.toDigits 16 code.toNat)
  | invalidArgument => "The arguments provided to a program instruction were invalid"
  | arithmeticOverflow => "Program arithmetic overflowed"
  | invalidResize => "Account data reallocation was invalid"

end HostFault

/-- Why a request failed. -/
inductive Fault where
  | refused (reason : Refusal)
  /-- The attestations fall short; the count tells how. -/
  | quorumNotMet (tally : Tally)
  | access (reason : AccessFault)
  | host (reason : HostFault)
  /-- A counter would leave its range. -/
  | aborted
  deriving DecidableEq

namespace Fault

/-- The program's own reason, if it is one. -/
def refusal? : Fault → Option Refusal
  | refused reason => some reason
  | quorumNotMet _ => some .quorumNotMet
  | _ => none

/-- The name under which the fault is reported. -/
def name : Fault → String
  | refused reason => reason.name
  | quorumNotMet _ => Refusal.quorumNotMet.name
  | access reason => reason.name
  | host reason => reason.name
  | aborted => "Panic"

/-- The number under which the fault is reported, if it has one. -/
def code? : Fault → Option Nat
  | refused reason => some reason.code
  | quorumNotMet _ => some Refusal.quorumNotMet.code
  | access reason => some reason.code
  | host _ => none
  | aborted => none

/-- The sentence that explains the fault, if it has one. -/
def message? : Fault → Option String
  | refused reason => some reason.message
  | quorumNotMet _ => some Refusal.quorumNotMet.message
  | access reason => some reason.message
  | host reason => some reason.message
  | aborted => none

/-- How the fault reads inside a log line: a called program's error by its
sentence, every other fault by its name. -/
def inLog : Fault → String
  | host reason => reason.message
  | fault => fault.name

end Fault

end QuorumRelay
