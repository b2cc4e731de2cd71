import Pkix.Chain.VerifySoundness
import Pkix.Identity.DnsMatching
import Pkix.Path.Requirements
import Pkix.Profiles.ProfilePolicies

/-! The entry points for a purpose: a chain is verified under the policy of a profile, and then
its leaf is asked what the purpose needs. -/

namespace Pkix.Chain

open Pkix.Path
open Pkix.Identity (ServerName MailboxName IdentityError Text findSan verifyDnsName verifyMailbox)
open Pkix.Profiles (idKpTimeStamping)

inductive PurposeError
  | chain (failure : Error)
  | identity (failure : IdentityError)
  | profileViolation (reason : String)
  deriving DecidableEq, Repr

abbrev PurposeResult (α : Type) := Except PurposeError α

/-- All the bits of a key usage. -/
structure KeyUsageBits where
  digitalSignature : Bool
  nonRepudiation : Bool
  keyEncipherment : Bool
  dataEncipherment : Bool
  keyAgreement : Bool
  keyCertSign : Bool
  crlSign : Bool
  encipherOnly : Bool
  decipherOnly : Bool
  deriving DecidableEq, Repr

/-- The bits that the path validator reads. -/
def KeyUsageBits.ofIssuer (bits : KeyUsageBits) : KeyUsage := ⟨bits.keyCertSign, bits.crlSign⟩

/-- What the entry points call besides. One decoder reads the key usage for them and for the
path validator. -/
structure PurposeCodec extends ChainCodec where
  keyUsageBits : Bytes → Option KeyUsageBits
  keyUsage_eq : ∀ content, keyUsage content = (keyUsageBits content).map KeyUsageBits.ofIssuer
  domainToAscii : Text → Option Text

section Timestamping

variable (der : PurposeCodec) (leaf : Certificate)

def enforceTimestampingEkuCriticalAndSole : PurposeResult Unit :=
  match leaf.tbsCertificate.extensions with
  | none => .error (.profileViolation "TSA certificate has no ExtendedKeyUsage extension")
  | some exts =>
      match exts.find? (fun ext => ext.extnId == oidExtendedKeyUsage) with
      | none => .error (.profileViolation "TSA certificate has no ExtendedKeyUsage extension")
      | some ext =>
          if !ext.critical then
            .error (.profileViolation
              "TSA ExtendedKeyUsage extension must be marked critical (RFC 3161 §2.3)")
          else
            match der.extendedKeyUsage ext.extnValue with
            | none => .error (.profileViolation "TSA ExtendedKeyUsage extension is malformed")
            | some [oid] =>
                if oid = idKpTimeStamping then .ok ()
                else
                  .error (.profileViolation
                    "TSA ExtendedKeyUsage must contain only id-kp-timeStamping (RFC 3161 §2.3)")
            | some _ =>
                .error (.profileViolation
                  "TSA ExtendedKeyUsage must contain only id-kp-timeStamping (RFC 3161 §2.3)")

/-- A leaf without a key usage passes. -/
def enforceTimestampingKuShape : PurposeResult Unit :=
  match leaf.tbsCertificate.extensions with
  | none => .ok ()
  | some exts =>
      match exts.find? (fun ext => ext.extnId == oidKeyUsage) with
      | none => .ok ()
      | some ext =>
          match der.keyUsageBits ext.extnValue with
          | none => .error (.profileViolation "TSA KeyUsage extension is malformed")
          | some ku =>
              if ku.keyEncipherment || ku.dataEncipherment || ku.keyAgreement || ku.keyCertSign ||
                  ku.crlSign || ku.encipherOnly || ku.decipherOnly then
                .error (.profileViolation
                  ("TSA KeyUsage must contain only digitalSignature and/or nonRepudiation " ++
                    "(RFC 3161 §2.1 #10; matches OpenSSL `-purpose timestampsign`)"))
              else .ok ()

end Timestamping

theorem verifyChain_nonempty {der : ChainCodec} {chain : List Certificate}
    {anchors : List TrustAnchor} {policy : ValidationPolicy} {verifier : SignatureVerifier}
    {revocation : RevocationChecker} {aia : AiaFetcher} {validated : ValidatedPath}
    (accepted : verifyChain der chain anchors policy verifier revocation aia = .ok validated) :
    chain ≠ [] := by
  rcases Verifier.upheld_of_verifyOne accepted with ⟨built, same, upheld⟩
  rcases Verifier.validate_nonempty upheld.validates with ⟨leaf, first⟩
  rw [first] at same
  intro empty
  simp [empty] at same

section EntryPoints

variable (der : PurposeCodec) (chain : List Certificate) (anchors : List TrustAnchor)
variable (profile : (nowUnix : Nat) → ValidationPolicy) (nowUnix : Nat)
variable (verifier : SignatureVerifier) (revocation : RevocationChecker) (aia : AiaFetcher)

/-- The chain first, then the check of its first certificate. -/
def verifyThen (check : Certificate → PurposeResult Unit) : PurposeResult ValidatedPath :=
  match accepted : verifyChain der.toChainCodec chain anchors (profile nowUnix) verifier revocation
      aia with
  | .error failure => .error (.chain failure)
  | .ok validated => do
      check (chain.head (verifyChain_nonempty accepted))
      pure validated

def orIdentity : Identity.Result Unit → PurposeResult Unit
  | .ok _ => .ok ()
  | .error failure => .error (.identity failure)

def verifyTlsServer (name : ServerName) : PurposeResult ValidatedPath :=
  verifyThen der chain anchors profile nowUnix verifier revocation aia
    (fun leaf => orIdentity (verifyDnsName der.toDerCodec leaf name))

def verifyTlsClientDns (identity : Option ServerName) : PurposeResult ValidatedPath :=
  verifyThen der chain anchors profile nowUnix verifier revocation aia (fun leaf =>
    match identity with
    | some name => orIdentity (verifyDnsName der.toDerCodec leaf name)
    | none => .ok ())

def verifyTlsClientMailbox (identity : Option MailboxName) : PurposeResult ValidatedPath :=
  verifyThen der chain anchors profile nowUnix verifier revocation aia (fun leaf =>
    match identity with
    | some mailbox => orIdentity (verifyMailbox der.domainToAscii der.toDerCodec leaf mailbox)
    | none => .ok ())

def verifySmimeSigner (mailbox : MailboxName) : PurposeResult ValidatedPath :=
  verifyThen der chain anchors profile nowUnix verifier revocation aia
    (fun leaf => orIdentity (verifyMailbox der.domainToAscii der.toDerCodec leaf mailbox))

def verifySmimeRecipient (mailbox : MailboxName) : PurposeResult ValidatedPath :=
  verifyThen der chain anchors profile nowUnix verifier revocation aia
    (fun leaf => orIdentity (verifyMailbox der.domainToAscii der.toDerCodec leaf mailbox))

def verifyCodeSigner : PurposeResult ValidatedPath :=
  verifyThen der chain anchors profile nowUnix verifier revocation aia (fun _ => .ok ())

def verifyTimeStamper : PurposeResult ValidatedPath :=
  verifyThen der chain anchors profile nowUnix verifier revocation aia (fun leaf => do
    enforceTimestampingEkuCriticalAndSole der leaf
    enforceTimestampingKuShape der leaf)

inductive Purpose
  | tlsServer (name : ServerName)
  | tlsClientDns (identity : Option ServerName)
  | tlsClientMailbox (identity : Option MailboxName)
  | smimeSigner (mailbox : MailboxName)
  | smimeRecipient (mailbox : MailboxName)
  | codeSigner
  | timeStamper
  deriving DecidableEq, Repr

def Purpose.verify : Purpose → PurposeResult ValidatedPath
  | .tlsServer name => verifyTlsServer der chain anchors profile nowUnix verifier revocation aia name
  | .tlsClientDns identity =>
      verifyTlsClientDns der chain anchors profile nowUnix verifier revocation aia identity
  | .tlsClientMailbox identity =>
      verifyTlsClientMailbox der chain anchors profile nowUnix verifier revocation aia identity
  | .smimeSigner mailbox =>
      verifySmimeSigner der chain anchors profile nowUnix verifier revocation aia mailbox
  | .smimeRecipient mailbox =>
      verifySmimeRecipient der chain anchors profile nowUnix verifier revocation aia mailbox
  | .codeSigner => verifyCodeSigner der chain anchors profile nowUnix verifier revocation aia
  | .timeStamper => verifyTimeStamper der chain anchors profile nowUnix verifier revocation aia

end EntryPoints

end Pkix.Chain
