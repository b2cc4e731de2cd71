import Pkix.Revocation.Types

/-! The search of a bundle for the certificate that signed a CRL. A slot is a certificate
with its place in the bundle, which stands for its address: the search tells two slots
apart by their places. -/

namespace Pkix.Revocation

open Pkix.Path

abbrev Slot := Certificate × Nat

def slots (bundle : List Certificate) : List Slot := bundle.zipIdx

section Discovery

variable (der : CrlCodec)

def crlAuthorityKeyId (crl : CertificateList) : Option Bytes :=
  (findIn crl.extensions oidAuthorityKeyIdentifier).bind (fun extension =>
    (der.authorityKeyIdentifier extension.extnValue).bind (·.keyIdentifier))

def certAuthorityKeyId (cert : Certificate) : Option Bytes :=
  (findIn cert.extensions oidAuthorityKeyIdentifier).bind (fun extension =>
    (der.authorityKeyIdentifier extension.extnValue).bind (·.keyIdentifier))

def certSubjectKeyId (cert : Certificate) : Option Bytes :=
  (findIn cert.extensions oidSubjectKeyIdentifier).bind (fun extension =>
    der.subjectKeyIdentifier extension.extnValue)

def hasSubjectKeyId (keyId : Bytes) (cert : Certificate) : Bool :=
  certSubjectKeyId der cert == some keyId

/-- With a key identifier on the CRL the issuer name is never tried. -/
def discoverCrlSigner (bundle : List Slot) (crl : CertificateList) : Option Slot :=
  match crlAuthorityKeyId der crl with
  | some keyId => bundle.find? (fun slot => hasSubjectKeyId der keyId slot.1)
  | none =>
      bundle.find? (fun slot =>
        namesMatch slot.1.tbsCertificate.subject crl.tbsCertList.issuer)

def isOther (slot candidate : Slot) : Bool := candidate.2 != slot.2

def findParentByName (bundle : List Slot) (slot : Slot) : Option Slot :=
  bundle.find? (fun candidate => isOther slot candidate &&
    namesMatch candidate.1.tbsCertificate.subject slot.1.tbsCertificate.issuer)

def findParent (bundle : List Slot) (slot : Slot) : Option Slot :=
  match certAuthorityKeyId der slot.1 with
  | some keyId =>
      match bundle.find? (fun candidate =>
        isOther slot candidate && hasSubjectKeyId der keyId candidate.1) with
      | some parent => some parent
      | none => findParentByName bundle slot
  | none => findParentByName bundle slot

def isSelfSigned (cert : Certificate) : Bool :=
  namesMatch cert.tbsCertificate.subject cert.tbsCertificate.issuer

/-- The loop, with the steps still allowed. -/
def walkUp (bundle : List Slot) : (steps : Nat) → (current : Slot) → Bool
  | steps, current =>
      if isSelfSigned current.1 then true
      else
        match steps with
        | 0 => false
        | steps + 1 =>
            match findParent der bundle current with
            | none => false
            | some parent => walkUp bundle steps parent

def reachesSelfSigned (bundle : List Slot) (signer : Slot) : Bool :=
  walkUp der bundle (bundle.length + 1) signer

variable {der} {bundle : List Slot} {slot : Slot}

theorem walkUp_selfSigned (steps : Nat) (selfSigned : isSelfSigned slot.1 = true) :
    walkUp der bundle steps slot = true := by
  unfold walkUp
  exact if_pos selfSigned

theorem walkUp_zero (issued : isSelfSigned slot.1 = false) :
    walkUp der bundle 0 slot = false := by
  unfold walkUp
  simp [issued]

theorem walkUp_succ (steps : Nat) (issued : isSelfSigned slot.1 = false) :
    walkUp der bundle (steps + 1) slot =
      (findParent der bundle slot).any (walkUp der bundle steps) := by
  rw [walkUp, if_neg (by simp [issued])]
  cases findParent der bundle slot <;> rfl

end Discovery

end Pkix.Revocation
