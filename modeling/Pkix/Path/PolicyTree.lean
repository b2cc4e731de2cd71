import Pkix.Path.Asn1

/-! The policy tree, a flat list of nodes, and the operations of the walk on it. -/

namespace Pkix.Path

structure PolicyNode where
  depth : Nat
  validPolicy : ObjectIdentifier
  expectedPolicySet : List ObjectIdentifier
  qualifiers : List PolicyQualifierInfo
  deriving DecidableEq, Repr

abbrev PolicyTree := List PolicyNode

def certAnyPolicyQualifiers (policies : CertificatePolicies) : List PolicyQualifierInfo :=
  match policies.find? (fun information => information.policyIdentifier == oidAnyPolicy) with
  | none => []
  | some information => information.policyQualifiers.getD []

def rootNode : PolicyNode :=
  { depth := 0
    validPolicy := oidAnyPolicy
    expectedPolicySet := [oidAnyPolicy]
    qualifiers := [] }

def initPolicyTree : PolicyTree := [rootNode]

theorem mem_initPolicyTree {node : PolicyNode} : node ∈ initPolicyTree ↔ node = rootNode :=
  List.mem_singleton

def freshNode (depth : Nat) (policy : ObjectIdentifier)
    (qualifiers : List PolicyQualifierInfo) : PolicyNode :=
  { depth, validPolicy := policy, expectedPolicySet := [policy], qualifiers }

def isAnyAt (depth : Nat) (node : PolicyNode) : Bool :=
  node.depth == depth && node.validPolicy == oidAnyPolicy

/-- Children for one specific policy entry: one for each parent that expects the
policy, or, when none does, one below an anyPolicy parent. -/
def specificChildren (tree : PolicyTree) (depth : Nat) (information : PolicyInformation) :
    PolicyTree :=
  if information.policyIdentifier = oidAnyPolicy then []
  else
    let child := freshNode depth information.policyIdentifier
      (information.policyQualifiers.getD [])
    let parents := tree.filter (fun parent =>
      parent.depth == depth - 1 && parent.expectedPolicySet.contains information.policyIdentifier)
    if parents.isEmpty then
      if tree.any (isAnyAt (depth - 1)) then [child] else []
    else parents.map (fun _ => child)

/-- Children of an anyPolicy entry: every policy a parent expects that no
specific entry has covered. -/
def expandedChildren (tree : PolicyTree) (depth : Nat) (covered : List ObjectIdentifier)
    (qualifiers : List PolicyQualifierInfo) : PolicyTree :=
  (tree.filter (fun parent => parent.depth == depth - 1)).flatMap (fun parent =>
    (parent.expectedPolicySet.filter (fun policy => !covered.contains policy)).map
      (fun policy => freshNode depth policy qualifiers))

def assertsAnyPolicy (policies : CertificatePolicies) : Bool :=
  policies.any (fun information => information.policyIdentifier == oidAnyPolicy)

def newNodes (tree : PolicyTree) (depth : Nat) (mayExpand : Bool)
    (policies : CertificatePolicies) : PolicyTree :=
  let specific := policies.flatMap (specificChildren tree depth)
  if assertsAnyPolicy policies && mayExpand then
    specific ++ expandedChildren tree depth (specific.map (·.validPolicy))
      (certAnyPolicyQualifiers policies)
  else specific

/-- A node counts as having a child when its expected set names one: here an
anyPolicy node is no parent of the specific policies created below it. -/
def hasExpectedChild (tree : PolicyTree) (childDepth : Nat) (node : PolicyNode) : Bool :=
  let childPolicies := (tree.filter (fun child => child.depth == childDepth)).map (·.validPolicy)
  childPolicies.any (fun policy => node.expectedPolicySet.contains policy)

def prunePolicyTree : Nat → PolicyTree → PolicyTree
  | 0, tree => tree
  | pruneDepth + 1, tree =>
      if pruneDepth = 0 then tree
      else
        prunePolicyTree pruneDepth (tree.filter (fun node =>
          node.depth != pruneDepth || hasExpectedChild tree (pruneDepth + 1) node))

def policyTreeIsNull (tree : PolicyTree) : Bool :=
  !tree.any (fun node => decide (1 ≤ node.depth))

/-- The tree after the prune, `none` when only the root is left. A prune depth of
zero skips the prune and keeps the test. -/
def policyTreePostOpPrune (tree : PolicyTree) (pruneDepth : Nat) : Option PolicyTree :=
  let pruned := if 0 < pruneDepth then prunePolicyTree pruneDepth tree else tree
  if policyTreeIsNull pruned then none else some pruned

def processPolicies (tree : PolicyTree) (depth : Nat) (mayExpand : Bool)
    (policies : Option CertificatePolicies) : Option PolicyTree :=
  match policies with
  | none => none
  | some policies =>
      policyTreePostOpPrune (tree ++ newNodes tree depth mayExpand policies) depth

def mapsAnyPolicy (mappings : PolicyMappings) : Bool :=
  mappings.any (fun mapping =>
    mapping.issuerDomainPolicy == oidAnyPolicy || mapping.subjectDomainPolicy == oidAnyPolicy)

def expectMapped (depth : Nat) (mapping : PolicyMapping) (node : PolicyNode) : PolicyNode :=
  if node.depth = depth ∧ node.validPolicy = mapping.issuerDomainPolicy then
    let kept := node.expectedPolicySet.filter (fun policy => policy != mapping.issuerDomainPolicy)
    { node with
      expectedPolicySet :=
        if kept.contains mapping.subjectDomainPolicy then kept
        else kept ++ [mapping.subjectDomainPolicy] }
  else node

def applyMapping (depth : Nat) (qualifiers : List PolicyQualifierInfo) (tree : PolicyTree)
    (mapping : PolicyMapping) : PolicyTree :=
  if tree.any (fun node =>
      node.depth == depth && node.validPolicy == mapping.issuerDomainPolicy) then
    tree.map (expectMapped depth mapping)
  else if tree.any (isAnyAt depth) then
    tree ++ [{ depth
               validPolicy := mapping.issuerDomainPolicy
               expectedPolicySet := [mapping.subjectDomainPolicy]
               qualifiers }]
  else tree

def deleteMapped (depth : Nat) (mappings : PolicyMappings) (tree : PolicyTree) : PolicyTree :=
  tree.filter (fun node =>
    node.depth != depth || !(mappings.map (·.issuerDomainPolicy)).contains node.validPolicy)

/-- The deletion branch prunes and discards the helper's verdict; the test for a
NULL tree follows once for both branches. -/
def applyPolicyMappings (depth policyMapping : Nat) (policies : Option CertificatePolicies)
    (mappings : PolicyMappings) (tree : PolicyTree) : PolicyTree :=
  if 0 < policyMapping then
    mappings.foldl (applyMapping depth ((policies.map certAnyPolicyQualifiers).getD [])) tree
  else
    let deleted := deleteMapped depth mappings tree
    if 0 < depth then prunePolicyTree depth deleted else deleted

/-- Nodes with an anyPolicy parent, the valid policy node set of the wrap-up. -/
def validPolicyNodeSet (tree : PolicyTree) : PolicyTree :=
  tree.filter (fun node => decide (1 ≤ node.depth) && tree.any (isAnyAt (node.depth - 1)))

def nodesToDelete (tree : PolicyTree) (initialPolicySet : List ObjectIdentifier) :
    List (Nat × ObjectIdentifier) :=
  ((validPolicyNodeSet tree).filter (fun node =>
    node.validPolicy != oidAnyPolicy && !initialPolicySet.contains node.validPolicy)).map
      (fun node => (node.depth, node.validPolicy))

def hasReachableParent (tree : PolicyTree) (parentDepth : Nat) (node : PolicyNode) : Bool :=
  ((tree.filter (fun parent => parent.depth == parentDepth)).flatMap
      (·.expectedPolicySet)).contains node.validPolicy || tree.any (isAnyAt parentDepth)

/-- The downward cascade, shallowest depth first: `count` depths from `depth` on. -/
def cascadeDelete : (depth count : Nat) → PolicyTree → PolicyTree
  | _, 0, tree => tree
  | depth, count + 1, tree =>
      cascadeDelete (depth + 1) count (tree.filter (fun node =>
        node.depth != depth || hasReachableParent tree (depth - 1) node))

def deleteOutOfSet (tree : PolicyTree) (initialPolicySet : List ObjectIdentifier)
    (leafDepth : Nat) : PolicyTree :=
  let doomed := nodesToDelete tree initialPolicySet
  if doomed.isEmpty then tree
  else
    cascadeDelete 2 (leafDepth - 1)
      (tree.filter (fun node => !doomed.contains (node.depth, node.validPolicy)))

def materialiseLeaves (tree : PolicyTree) (initialPolicySet : List ObjectIdentifier)
    (leafDepth : Nat) : PolicyTree :=
  match tree.find? (isAnyAt leafDepth) with
  | none => tree
  | some leafAny =>
      let leafPolicies :=
        (tree.filter (fun node => node.depth == leafDepth)).map (·.validPolicy)
      let additions := (initialPolicySet.filter (fun policy => !leafPolicies.contains policy)).map
        (fun policy => freshNode leafDepth policy leafAny.qualifiers)
      (tree ++ additions).filter (fun node => !isAnyAt leafDepth node)

def intersectInitialPolicySet (tree : PolicyTree) (initialPolicySet : List ObjectIdentifier)
    (leafDepth : Nat) : Option PolicyTree :=
  policyTreePostOpPrune
    (materialiseLeaves (deleteOutOfSet tree initialPolicySet leafDepth) initialPolicySet leafDepth)
    leafDepth

end Pkix.Path
