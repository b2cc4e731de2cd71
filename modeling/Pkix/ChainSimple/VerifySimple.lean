import Pkix.Path.ErrorBlame

/-! The verifier of simple chains: a gate on the structure of every certificate, before the path
validator under its default policy. -/

namespace Pkix.ChainSimple

open Pkix.Path

inductive Error
  | emptyChain
  | chainTooLong (len : Nat)
  | noTrustAnchors
  | algorithmNotAllowed (index : Nat)
  | unhandledCriticalExtension (index : Nat)
  | unexpectedExtension (index : Nat)
  | missingRequiredExtension (index : Nat)
  | leafIsCA
  | path (error : Path.Error)
  deriving DecidableEq, Repr

abbrev Result (α : Type) := Except Error α

section Gate

variable (der : DerCodec) (derFailure : Bytes → DerError)

end Gate

section Policies

variable {der : DerCodec} {verifier : SignatureVerifier} {chain : List Certificate}
variable {anchors : List TrustAnchor} {nowUnix : Nat}

end Policies

section Exactness

variable {der : DerCodec} {derFailure : Bytes → DerError} {cert : Certificate} {index : Nat}
variable {extensions : List Extension} {isLeaf : Bool}

end Exactness

/-- The content of an extension that the gate decodes is something else. -/
def Undecodable (der : DerCodec) (cert : Certificate) (content : Bytes) : Prop :=
  ∃ ext, ext.extnValue = content ∧
    (findExtension cert oidBasicConstraints = some ext ∧ der.basicConstraints content = none ∨
      findExtension cert oidKeyUsage = some ext ∧ der.keyUsage content = none)

section Failures

variable {der : DerCodec} {derFailure : Bytes → DerError} {cert : Certificate} {index : Nat}
variable {extensions : List Extension} {isLeaf : Bool}

end Failures

section Verdict

variable {der : DerCodec} {derFailure : Bytes → DerError} {verifier : SignatureVerifier}
variable {chain : List Certificate} {anchors : List TrustAnchor} {nowUnix : Nat}

end Verdict

end Pkix.ChainSimple
