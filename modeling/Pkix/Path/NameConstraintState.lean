import Pkix.Path.Subtrees

/-! The permitted and excluded subtrees carried down the chain: how one CA's
extension narrows them and how a certificate's names are checked. -/

namespace Pkix.Path

structure NameConstraintState where
  ncPermitted : Option GeneralSubtrees
  ncExcluded : GeneralSubtrees
  ncConstrainedTypes : NcTypeMask
  deriving DecidableEq, Repr

def constrainTypes (types : NcTypeMask) (entries : GeneralSubtrees) : NcTypeMask :=
  entries.foldl (fun types entry => types.union (nameTypeBit entry.base)) types

def initialNameConstraints (anchor : Option NameConstraints) : NameConstraintState :=
  let permitted := anchor.bind (·.permittedSubtrees)
  { ncPermitted := permitted
    ncExcluded := (anchor.bind (·.excludedSubtrees)).getD []
    ncConstrainedTypes := constrainTypes .empty (permitted.getD []) }

def sameVariantIn (entries : GeneralSubtrees) (base : GeneralName) : GeneralSubtrees :=
  entries.filter (fun entry => sameNcVariant entry.base base)

/-- Both loops of the intersection keep an entry when the other list has none of
its form, or has one that contains it. -/
def keptAgainst (other : GeneralSubtrees) (entry : GeneralSubtree) : Bool :=
  (sameVariantIn other entry.base).isEmpty ||
    (sameVariantIn other entry.base).any (nameMatchesSubtree entry.base)

def equivalentSubtrees (a b : GeneralSubtree) : Bool :=
  sameNcVariant a.base b.base && nameMatchesSubtree a.base b && nameMatchesSubtree b.base a

/-- The second loop adds a current entry without the equivalence test when the
new list does not constrain its form. -/
def addCurrent (newPermitted result : GeneralSubtrees) (entry : GeneralSubtree) :
    GeneralSubtrees :=
  if (sameVariantIn newPermitted entry.base).isEmpty then result ++ [entry]
  else if (sameVariantIn newPermitted entry.base).any (nameMatchesSubtree entry.base) then
    if result.any (fun kept => equivalentSubtrees kept entry) then result
    else result ++ [entry]
  else result

def intersectPermitted (current newPermitted : GeneralSubtrees) : GeneralSubtrees :=
  current.foldl (addCurrent newPermitted) (newPermitted.filter (keptAgainst current))

def addExcluded (excluded : GeneralSubtrees) (entry : GeneralSubtree) : GeneralSubtrees :=
  if excluded.any (fun existing => equivalentSubtrees existing entry) then excluded
  else excluded ++ [entry]

def narrowPermitted (state : NameConstraintState) (newPermitted : GeneralSubtrees) :
    NameConstraintState :=
  { state with
    ncConstrainedTypes := constrainTypes state.ncConstrainedTypes newPermitted
    ncPermitted :=
      match state.ncPermitted with
      | none => some newPermitted
      | some current => some (intersectPermitted current newPermitted) }

def updateNameConstraints (state : NameConstraintState) (nc : NameConstraints) :
    NameConstraintState :=
  let narrowed :=
    match nc.permittedSubtrees with
    | none => state
    | some newPermitted => narrowPermitted state newPermitted
  { narrowed with
    ncExcluded := (nc.excludedSubtrees.getD []).foldl addExcluded narrowed.ncExcluded }

def certSubjectAltNames (der : DerCodec) (cert : Certificate) (index : Nat) :
    Result (Option SubjectAltName) :=
  tryFindCertExt der.subjectAltName cert oidSubjectAltName index

/-- A subtree with a nonzero minimum or any maximum makes the certificate malformed. -/
def certNameConstraints (der : DerCodec) (cert : Certificate) (index : Nat) :
    Result (Option NameConstraints) :=
  match tryFindCertExt der.nameConstraints cert oidNameConstraints index with
  | .error failure => .error failure
  | .ok none => .ok none
  | .ok (some nc) =>
      if (nc.permittedSubtrees.getD [] ++ nc.excludedSubtrees.getD []).any
          (fun subtree => subtree.minimum != 0 || subtree.maximum.isSome) then
        .error (.malformedCertificate index)
      else .ok (some nc)

inductive CheckMode
  | excluded
  | permitted
  deriving DecidableEq, Repr

def dnMatchesAny (subject : Name) (subtrees : GeneralSubtrees) : Bool :=
  subtrees.any (fun subtree =>
    match subtree.base with
    | .directoryName constraint => dnWithinSubtree subject constraint
    | _ => false)

def checkSubjectDnAgainstSubtrees (subject : Name) (subtrees : GeneralSubtrees)
    (mode : CheckMode) (types : NcTypeMask) (index : Nat) : Result Unit :=
  if subject.isEmpty then .ok ()
  else
    match mode with
    | .excluded =>
        if dnMatchesAny subject subtrees then .error (.nameConstraintViolation index) else .ok ()
    | .permitted =>
        if types.intersects .directoryName && !dnMatchesAny subject subtrees then
          .error (.nameConstraintViolation index)
        else .ok ()

def sanEntryViolates (subtrees : GeneralSubtrees) (mode : CheckMode) (types : NcTypeMask)
    (name : GeneralName) : Bool :=
  match mode with
  | .excluded => subtrees.any (nameMatchesSubtree name)
  | .permitted =>
      types.intersects (nameTypeBit name) && !subtrees.any (nameMatchesSubtree name)

def checkSanAgainstSubtrees (san : Option SubjectAltName) (subtrees : GeneralSubtrees)
    (mode : CheckMode) (types : NcTypeMask) (index : Nat) : Result Unit :=
  if (san.getD []).any (sanEntryViolates subtrees mode types) then
    .error (.nameConstraintViolation index)
  else .ok ()

def checkNames (subject : Name) (san : Option SubjectAltName) (subtrees : GeneralSubtrees)
    (mode : CheckMode) (types : NcTypeMask) (index : Nat) : Result Unit := do
  checkSubjectDnAgainstSubtrees subject subtrees mode types index
  checkSanAgainstSubtrees san subtrees mode types index

def rfc822MatchesAny (email : Bytes) (subtrees : GeneralSubtrees) : Bool :=
  subtrees.any (fun subtree =>
    match subtree.base with
    | .rfc822Name constraint => matchesRfc822Name email constraint.bytes
    | _ => false)

def isRfc822Subtree (subtree : GeneralSubtree) : Bool :=
  match subtree.base with
  | .rfc822Name _ => true
  | _ => false

/-- An emailAddress attribute that is not an IA5String is skipped. -/
def emailViolates (der : DerCodec) (state : NameConstraintState)
    (ava : AttributeTypeAndValue) : Bool :=
  if ava.oid != oidEmailAddress then false
  else
    match der.ia5String ava.value with
    | none => false
    | some email =>
        rfc822MatchesAny email.bytes state.ncExcluded ||
          (state.ncConstrainedTypes.intersects .rfc822 &&
            !rfc822MatchesAny email.bytes
              ((state.ncPermitted.getD []).filter isRfc822Subtree))

def checkSubjectEmails (der : DerCodec) (subject : Name) (state : NameConstraintState)
    (index : Nat) : Result Unit :=
  if (state.ncConstrainedTypes.intersects .rfc822 || state.ncExcluded.any isRfc822Subtree) &&
      !subject.isEmpty && subject.flatten.any (emailViolates der state) then
    .error (.nameConstraintViolation index)
  else .ok ()

def checkPermittedNames (subject : Name) (san : Option SubjectAltName)
    (state : NameConstraintState) (index : Nat) : Result Unit :=
  match state.ncPermitted with
  | none => .ok ()
  | some permitted => checkNames subject san permitted .permitted state.ncConstrainedTypes index

def checkNameConstraints (der : DerCodec) (cert : Certificate) (san : Option SubjectAltName)
    (state : NameConstraintState) (index : Nat) : Result Unit := do
  let subject := cert.tbsCertificate.subject
  checkNames subject san state.ncExcluded .excluded state.ncConstrainedTypes index
  checkPermittedNames subject san state index
  checkSubjectEmails der subject state index

end Pkix.Path
