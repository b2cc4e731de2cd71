import Mathlib.Data.List.Sort
import Pkix.Path.ChainWalk
import Pkix.Revocation.Types

/-! The search of a pool for certification paths: an iterator that keeps its own stack of
frames, one for each certificate of the path under construction. -/

namespace Pkix.PathBuilder

open Pkix.Path
open Pkix.Revocation (AuthorityKeyIdentifier oidAuthorityKeyIdentifier oidSubjectKeyIdentifier)

inductive Error
  | noPathFound
  | depthExceeded
  | budgetExceeded
  | noValidPath (tried : Nat) (lastError : String)
  deriving DecidableEq, Repr

abbrev Result (α : Type) := Except Error α

/-- What the path builder calls of the DER crates besides. -/
structure BuilderCodec extends DerCodec where
  authorityKeyIdentifier : Bytes → Option AuthorityKeyIdentifier
  subjectKeyIdentifier : Bytes → Option Bytes

section Ranking

variable (der : BuilderCodec)

def certIsCa (cert : Certificate) : Bool :=
  match findExtension cert oidBasicConstraints with
  | none => false
  | some extension =>
      match der.basicConstraints extension.extnValue with
      | none => false
      | some constraints => constraints.ca

def certAkiKeyId (cert : Certificate) : Option Bytes :=
  (findExtension cert oidAuthorityKeyIdentifier).bind (fun extension =>
    (der.authorityKeyIdentifier extension.extnValue).bind (·.keyIdentifier))

def certSkiKeyId (cert : Certificate) : Option Bytes :=
  (findExtension cert oidSubjectKeyIdentifier).bind (fun extension =>
    der.subjectKeyIdentifier extension.extnValue)

def tierOf (targetAkiKid : Option Bytes) (candidate : Certificate) : Nat :=
  match targetAkiKid, certSkiKeyId der candidate with
  | some aki, some ski => if aki = ski then 0 else 1
  | _, _ => 1

/-- The tier and the pool index of every certificate whose subject is the issuer of `cur`,
the matching key identifiers first and each tier in pool order. -/
def rankCandidates (cur : Certificate) (pool : List Certificate) : List (Nat × Nat) :=
  (pool.zipIdx.filterMap (fun entry =>
    if namesMatch entry.1.tbsCertificate.subject cur.tbsCertificate.issuer then
      some (tierOf der (certAkiKeyId der cur) entry.1, entry.2)
    else none)).insertionSort (fun a b => a.1 ≤ b.1)

end Ranking

/-- The algorithm parameters are left out of the comparison. -/
def sameKey (a b : Certificate) : Bool :=
  a.tbsCertificate.subjectPublicKeyInfo.algorithm.oid ==
      b.tbsCertificate.subjectPublicKeyInfo.algorithm.oid &&
    a.tbsCertificate.subjectPublicKeyInfo.subjectPublicKey ==
      b.tbsCertificate.subjectPublicKeyInfo.subjectPublicKey

def spkiAlreadyInPath (candidate : Certificate) (path : List Certificate) : Bool :=
  path.any (fun inPath => sameKey inPath candidate)

def defaultDfsBudget : Nat := 10000
def defaultMaxDepth : Nat := 10

structure PathBuilderConfig where
  maxDepth : Nat
  dfsBudget : Nat
  deriving DecidableEq, Repr

def PathBuilderConfig.new : PathBuilderConfig :=
  { maxDepth := defaultMaxDepth, dfsBudget := defaultDfsBudget }

structure Frame where
  ranked : Option (List (Nat × Nat))
  cursor : Nat
  anchorChecked : Bool
  anchorYielded : Bool
  deriving DecidableEq, Repr

def Frame.new : Frame :=
  { ranked := none, cursor := 0, anchorChecked := false, anchorYielded := false }

/-- `path` runs from the target to its last issuer found so far, `frames` from the frame of
the target to the top of the stack. -/
structure PathCandidates where
  pool : List Certificate
  anchors : List TrustAnchor
  maxDepth : Nat
  path : List Certificate
  frames : List Frame
  budget : Nat
  started : Bool
  done : Bool
  deriving DecidableEq, Repr

def PathCandidates.new (target : Certificate) (pool : List Certificate)
    (anchors : List TrustAnchor) (config : PathBuilderConfig) : PathCandidates :=
  { pool
    anchors
    maxDepth := config.maxDepth
    path := [target]
    frames := [Frame.new]
    budget := config.dfsBudget
    started := false
    done := false }

abbrev Item := Option (Result (List Certificate))

/-- What one turn of the loop in `next` does: go round again, return, or fail an `expect`
or an index that is out of range. -/
inductive Turn
  | again (state : PathCandidates)
  | answer (item : Item) (state : PathCandidates)
  | panicked
  deriving DecidableEq, Repr

def issuerIsAnchor (anchors : List TrustAnchor) (cert : Certificate) : Bool :=
  anchors.any (fun anchor => namesMatch anchor.subject cert.tbsCertificate.issuer)

namespace PathCandidates

def setTop (state : PathCandidates) (top : Frame) : PathCandidates :=
  { state with frames := state.frames.dropLast ++ [top] }

def pop (state : PathCandidates) : PathCandidates :=
  { state with frames := state.frames.dropLast, path := state.path.dropLast }

def push (state : PathCandidates) (candidate : Certificate) : PathCandidates :=
  { state with path := state.path ++ [candidate], frames := state.frames ++ [Frame.new] }

section Loop

variable (der : BuilderCodec) (state : PathCandidates)

/-- The ranking of the top frame, computed at its first use. -/
def topRanking (top : Frame) : Option (List (Nat × Nat)) :=
  match top.ranked with
  | some ranked => some ranked
  | none => state.path.getLast?.map (fun cur => rankCandidates der cur state.pool)

/-- The candidate at the cursor of the top frame, the cursor already moved past it. -/
def consider (candidate : Certificate) : PathCandidates :=
  if !certIsCa der candidate then state
  else if spkiAlreadyInPath candidate state.path then state
  else state.push candidate

/-- The part of the loop body below the anchor check. -/
def explore : Turn :=
  if state.maxDepth < state.frames.length then .again state.pop
  else
    match state.frames.getLast? with
    | none => .panicked
    | some top =>
        match topRanking der state top with
        | none => .panicked
        | some ranked =>
            if ranked.length ≤ top.cursor then .again state.pop
            else
              match ranked[top.cursor]? with
              | none => .panicked
              | some (_, idx) =>
                  match state.pool[idx]? with
                  | none => .panicked
                  | some candidate =>
                      .again (consider der
                        (state.setTop { top with ranked := some ranked, cursor := top.cursor + 1 })
                        candidate)

/-- The anchor check of a frame entered for the first time. -/
def enter (top : Frame) : Turn :=
  if state.budget = 0 then
    .answer (some (.error .budgetExceeded)) { state with done := true }
  else
    match state.path.getLast? with
    | none => .panicked
    | some cur =>
        if issuerIsAnchor state.anchors cur then
          .answer (some (.ok state.path))
            ({ state with budget := state.budget - 1 }.setTop
              { top with anchorChecked := true, anchorYielded := true })
        else
          explore der
            ({ state with budget := state.budget - 1 }.setTop { top with anchorChecked := true })

def turn : Turn :=
  if state.frames.isEmpty then .answer none { state with done := true }
  else
    match state.frames.getLast? with
    | none => .panicked
    | some top =>
        if top.anchorYielded then .again state.pop
        else if top.anchorChecked then explore der state
        else enter der state top

end Loop

inductive Outcome
  | returned (item : Item) (state : PathCandidates)
  | panicked
  deriving DecidableEq, Repr

/-- The loop of `next`, `none` when it has not ended within the given number of turns. -/
def loopWithin (der : BuilderCodec) : (turns : Nat) → PathCandidates → Option Outcome
  | 0, _ => none
  | turns + 1, state =>
      match turn der state with
      | .again state => loopWithin der turns state
      | .answer item state => some (.returned item state)
      | .panicked => some .panicked

def nextWithin (der : BuilderCodec) (turns : Nat) (state : PathCandidates) : Option Outcome :=
  if state.done then some (.returned none state)
  else loopWithin der turns { state with started := true }

theorem nextWithin_done {der : BuilderCodec} {state : PathCandidates} (turns : Nat)
    (done : state.done = true) : nextWithin der turns state = some (.returned none state) := by
  simp [nextWithin, done]

theorem nextWithin_busy {der : BuilderCodec} {state : PathCandidates} (turns : Nat)
    (busy : state.done = false) :
    nextWithin der turns state = loopWithin der turns { state with started := true } := by
  simp [nextWithin, busy]

end PathCandidates

end Pkix.PathBuilder
