import DigIdentity.ByteStrings
import DigIdentity.Fallible

namespace DigIdentity.Errors

inductive Error
  | truncatedValue (reason : String)
  | lengthMismatch (declared actual : Nat)
  | unknownTag (tag : UInt8)
  | wrongWidth (tag : UInt8) (expected actual : Nat)
  | smt (message : String)
  | notAuthoritativeProfile
  | fieldProofRejected
  | mintNotYetImplemented
deriving DecidableEq

end DigIdentity.Errors
