import Mathlib.Data.List.Forall2
import Pkix.Path.Asn1

/-! Distinguished-name comparison after string preparation. -/

namespace Pkix.Path

def space : UInt8 := 32

def toAsciiLowercase (octet : UInt8) : UInt8 :=
  if 65 ≤ octet ∧ octet ≤ 90 then octet + 32 else octet

/-- One UTF-8 character of the Basic Multilingual Plane, `none` for a surrogate. -/
def encodeUtf8 (codePoint : Nat) : Option Bytes :=
  if 0xD800 ≤ codePoint ∧ codePoint ≤ 0xDFFF then none
  else if codePoint < 0x80 then some [UInt8.ofNat codePoint]
  else if codePoint < 0x800 then
    some [UInt8.ofNat (0xC0 + codePoint / 64), UInt8.ofNat (0x80 + codePoint % 64)]
  else
    some [UInt8.ofNat (0xE0 + codePoint / 4096), UInt8.ofNat (0x80 + codePoint / 64 % 64),
      UInt8.ofNat (0x80 + codePoint % 64)]

/-- An odd trailing octet and a surrogate unit are both malformed. -/
def bmpStringToUtf8 : Bytes → Option Bytes
  | [] => some []
  | [_] => none
  | high :: low :: rest =>
      match encodeUtf8 (high.toNat * 256 + low.toNat), bmpStringToUtf8 rest with
      | some character, some tail => some (character ++ tail)
      | _, _ => none

def anyToStrBytes (any : Any) : Option Bytes :=
  match any.tag with
  | .utf8String | .printableString | .ia5String | .visibleString => some any.value
  | .bmpString => bmpStringToUtf8 any.value
  | .other _ => none

def trimSpaces (bytes : Bytes) : Bytes :=
  ((bytes.dropWhile (· == space)).reverse.dropWhile (· == space)).reverse

/-- The iterator over trimmed bytes; `pendingSpace` is set after a space was
emitted, and swallows the rest of its run. -/
def normalizedIter : Bool → Bytes → Bytes
  | _, [] => []
  | pendingSpace, octet :: rest =>
      if octet = space then
        if pendingSpace then normalizedIter true rest else space :: normalizedIter true rest
      else toAsciiLowercase octet :: normalizedIter false rest

def normalizedEq (a b : Bytes) : Bool :=
  normalizedIter false (trimSpaces a) == normalizedIter false (trimSpaces b)

def avaValuesMatch (a b : Any) : Bool :=
  match anyToStrBytes a, anyToStrBytes b with
  | some aBytes, some bBytes => normalizedEq aBytes bBytes
  | none, none => a.tag == b.tag && a.value == b.value
  | _, _ => false

def avaMatches (a b : AttributeTypeAndValue) : Bool :=
  a.oid == b.oid && avaValuesMatch a.value b.value

def rdnsMatch (a b : RelativeDistinguishedName) : Bool :=
  a.length == b.length && a.all (fun aAva => b.any (avaMatches aAva)) &&
    b.all (fun bAva => a.any (fun aAva => avaMatches aAva bAva))

def namesMatch (a b : Name) : Bool :=
  a.length == b.length && (a.zip b).all (fun rdns => rdnsMatch rdns.1 rdns.2)

/-- What the comparison of attribute values looks at: the prepared text of a
string type, the tag and raw content of anything else. -/
def comparisonKey (any : Any) : Bytes ⊕ (Tag × Bytes) :=
  match anyToStrBytes any with
  | some bytes => .inl (normalizedIter false (trimSpaces bytes))
  | none => .inr (any.tag, any.value)

theorem avaValuesMatch_iff (a b : Any) :
    avaValuesMatch a b = true ↔ comparisonKey a = comparisonKey b := by
  unfold avaValuesMatch comparisonKey
  cases anyToStrBytes a <;> cases anyToStrBytes b <;> simp [normalizedEq]

theorem avaMatches_iff (a b : AttributeTypeAndValue) :
    avaMatches a b = true ↔ a.oid = b.oid ∧ comparisonKey a.value = comparisonKey b.value := by
  simp [avaMatches, avaValuesMatch_iff]

theorem avaMatches_comm (a b : AttributeTypeAndValue) : avaMatches a b = avaMatches b a := by
  rw [Bool.eq_iff_iff, avaMatches_iff, avaMatches_iff]
  constructor <;> rintro ⟨oid, key⟩ <;> exact ⟨oid.symm, key.symm⟩

theorem avaMatches_trans {a b c : AttributeTypeAndValue}
    (first : avaMatches a b = true) (second : avaMatches b c = true) :
    avaMatches a c = true := by
  rw [avaMatches_iff] at first second ⊢
  exact ⟨first.1.trans second.1, first.2.trans second.2⟩

/-- Every attribute on the left has a match on the right: one half of `rdnsMatch`,
and the whole of the test inside a directoryName subtree. -/
def rdnCovers (a b : RelativeDistinguishedName) : Bool :=
  a.all (fun aAva => b.any (avaMatches aAva))

theorem rdnCovers_iff (a b : RelativeDistinguishedName) :
    rdnCovers a b = true ↔ ∀ left ∈ a, ∃ right ∈ b, avaMatches left right = true := by
  simp [rdnCovers]

theorem rdnCovers_trans {a b c : RelativeDistinguishedName}
    (first : rdnCovers a b = true) (second : rdnCovers b c = true) :
    rdnCovers a c = true := by
  rw [rdnCovers_iff] at first second ⊢
  intro left present
  obtain ⟨middle, inside, leftMatch⟩ := first left present
  obtain ⟨right, last, rightMatch⟩ := second middle inside
  exact ⟨right, last, avaMatches_trans leftMatch rightMatch⟩

theorem rdnsMatch_eq (a b : RelativeDistinguishedName) :
    rdnsMatch a b = (a.length == b.length && rdnCovers a b && rdnCovers b a) := by
  simp only [rdnsMatch, rdnCovers]
  congr 3
  funext bAva
  congr 1
  funext aAva
  exact avaMatches_comm aAva bAva

theorem rdnsMatch_comm (a b : RelativeDistinguishedName) : rdnsMatch a b = rdnsMatch b a := by
  rw [rdnsMatch_eq, rdnsMatch_eq, BEq.comm (a := a.length), Bool.and_assoc, Bool.and_assoc,
    Bool.and_comm (rdnCovers a b)]

theorem rdnsMatch_trans {a b c : RelativeDistinguishedName} (first : rdnsMatch a b = true)
    (second : rdnsMatch b c = true) : rdnsMatch a c = true := by
  simp only [rdnsMatch_eq, Bool.and_eq_true, beq_iff_eq] at first second ⊢
  exact ⟨⟨first.1.1.trans second.1.1, rdnCovers_trans first.1.2 second.1.2⟩,
    rdnCovers_trans second.2 first.2⟩

theorem namesMatch_cons (rdnA : RelativeDistinguishedName) (a : Name)
    (rdnB : RelativeDistinguishedName) (b : Name) :
    namesMatch (rdnA :: a) (rdnB :: b) = (rdnsMatch rdnA rdnB && namesMatch a b) := by
  simp only [namesMatch, List.length_cons, List.zip_cons_cons, List.all_cons]
  rw [Bool.eq_iff_iff]
  simp only [Bool.and_eq_true, beq_iff_eq, Nat.add_right_cancel_iff]
  tauto

/-- Names match RDN by RDN. -/
theorem namesMatch_iff (a b : Name) : namesMatch a b = true ↔
    List.Forall₂ (fun rdnA rdnB => rdnsMatch rdnA rdnB = true) a b := by
  induction a generalizing b with
  | nil => cases b <;> simp [namesMatch]
  | cons rdnA a ih =>
      cases b with
      | nil => simp [namesMatch]
      | cons rdnB b => rw [namesMatch_cons, Bool.and_eq_true, List.forall₂_cons, ih]

theorem namesMatch_symm {a b : Name} (matched : namesMatch a b = true) :
    namesMatch b a = true := by
  rw [namesMatch_iff] at matched ⊢
  apply List.Forall₂.flip
  apply matched.imp
  intro rdnA rdnB same
  rw [flip, rdnsMatch_comm]
  exact same

theorem namesMatch_comm (a b : Name) : namesMatch a b = namesMatch b a :=
  Bool.eq_iff_iff.mpr ⟨namesMatch_symm, namesMatch_symm⟩

theorem namesMatch_trans {a b c : Name} (first : namesMatch a b = true)
    (second : namesMatch b c = true) : namesMatch a c = true := by
  rw [namesMatch_iff] at first second ⊢
  induction first generalizing c with
  | nil => exact second
  | cons head _ ih =>
      cases second with
      | cons head' tail' => exact .cons (rdnsMatch_trans head head') (ih tail')

theorem rdnCovers_refl (a : RelativeDistinguishedName) : rdnCovers a a = true := by
  rw [rdnCovers_iff]
  intro ava present
  exact ⟨ava, present, (avaMatches_iff ava ava).mpr ⟨rfl, rfl⟩⟩

theorem rdnsMatch_refl (a : RelativeDistinguishedName) : rdnsMatch a a = true := by
  rw [rdnsMatch_eq, rdnCovers_refl, beq_self_eq_true]
  rfl

theorem namesMatch_refl (a : Name) : namesMatch a a = true :=
  (namesMatch_iff a a).mpr (List.forall₂_same.mpr fun rdn _ => rdnsMatch_refl rdn)

/-- Matching is an equivalence of names, and which of the two names comes first makes no
difference to the answer. -/
theorem namesMatch_equivalence :
    Equivalence (fun a b : Name => namesMatch a b = true) ∧
      ∀ a b : Name, namesMatch a b = namesMatch b a :=
  ⟨⟨namesMatch_refl, namesMatch_symm, namesMatch_trans⟩, namesMatch_comm⟩

theorem namesMatch_append {a b : Name} (matched : namesMatch a b = true)
    (rdn : RelativeDistinguishedName) : namesMatch (a ++ [rdn]) (b ++ [rdn]) = true := by
  rw [namesMatch_iff] at matched ⊢
  exact List.rel_append matched (.cons (rdnsMatch_refl rdn) .nil)

/-- Names that match match the same names. -/
theorem namesMatch_congr {a b : Name} (matched : namesMatch a b = true) (c : Name) :
    namesMatch a c = namesMatch b c :=
  Bool.eq_iff_iff.mpr ⟨namesMatch_trans (namesMatch_symm matched), namesMatch_trans matched⟩

end Pkix.Path
