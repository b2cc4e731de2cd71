import Mathlib.Data.List.AList
import Pkix.Lib.Walk

/-! Taking items out of a table by their keys: each item once, in the order of the keys, and an
unknown key is an error. -/

namespace Pkix.KeyedSlots

open Walk

variable {κ α : Type} [DecidableEq κ] {key : α → κ}

/-- A slot for each key, empty after its item is taken. -/
abbrev Slots (κ α : Type) := AList fun _ : κ => Option α

def fillFrom (key : α → κ) (slots : Slots κ α) (items : List α) : Slots κ α :=
  items.foldl (fun slots item => slots.insert (key item) (some item)) slots

/-- Of items with one key the last is kept. -/
def fill (key : α → κ) (items : List α) : Slots κ α := fillFrom key ∅ items

def take : Slots κ α → List κ → Except κ (List α)
  | _, [] => .ok []
  | slots, wanted :: rest =>
      match slots.lookup wanted with
      | none => .error wanted
      | some slot => do
          let taken ← take (slots.insert wanted none) rest
          .ok (slot.toList ++ taken)

theorem eraseDups_filter (keep : κ → Bool) (keys : List κ) :
    (keys.filter keep).eraseDups = keys.eraseDups.filter keep := by
  induction size : keys.length using Nat.strong_induction_on generalizing keys with
  | _ count ih =>
      cases keys with
      | nil => rfl
      | cons first rest =>
          have shorter : (rest.filter fun other => !other == first).length < count := by
            have atMost := List.length_filter_le (fun other => !other == first) rest
            rw [List.length_cons] at size
            omega
          have later := ih _ shorter _ rfl
          rw [List.filter_filter] at later
          rw [List.eraseDups_cons, List.filter_cons, List.filter_cons]
          split
          · rw [List.eraseDups_cons, List.filter_filter, ← later]
            simp only [Bool.and_comm]
          · rename_i dropped
            rw [← later]
            congr 1
            apply List.filter_congr
            intro other _
            by_cases same : other = first
            · rw [same]
              simpa using dropped
            · simp [same]

theorem lookup_fillFrom {items : List α} (unique : (items.map key).Nodup) (slots : Slots κ α)
    (wanted : κ) :
    (fillFrom key slots items).lookup wanted =
      match items.find? (fun item => key item = wanted) with
      | some item => some (some item)
      | none => slots.lookup wanted := by
  induction items generalizing slots with
  | nil => rfl
  | cons item rest ih =>
      rw [List.map_cons, List.nodup_cons] at unique
      have later := ih unique.2 (slots.insert (key item) (some item))
      rw [fillFrom, List.foldl_cons, ← fillFrom, later, List.find?_cons]
      by_cases same : key item = wanted
      · have absent : rest.find? (fun other => key other = wanted) = none := by
          rw [List.find?_eq_none]
          intro other member
          simp only [decide_eq_true_eq]
          intro again
          exact unique.1 (List.mem_map.mpr ⟨other, member, again.trans same.symm⟩)
        rw [absent]
        simp [same, AList.lookup_insert]
      · simp only [same, decide_false]
        rw [AList.lookup_insert_ne (Ne.symm same)]

/-- With one item for each key the table gives that item back. -/
theorem lookup_fill {items : List α} (unique : (items.map key).Nodup) (wanted : κ) :
    (fill key items).lookup wanted =
      (items.find? (fun item => key item = wanted)).map some := by
  rw [fill, lookup_fillFrom unique]
  cases items.find? (fun item => key item = wanted) with
  | none => simp
  | some item => rfl

theorem lookup_emptied (slots : Slots κ α) (first wanted : κ) :
    (slots.insert first none).lookup wanted =
      if wanted = first then some none else slots.lookup wanted := by
  split
  · rename_i same
    rw [same, AList.lookup_insert]
  · rename_i different
    rw [AList.lookup_insert_ne different]

theorem known_emptied {slots : Slots κ α} {first : κ} {slot : Option α}
    (found : slots.lookup first = some slot) (wanted : κ) :
    (slots.insert first none).lookup wanted ≠ none ↔ slots.lookup wanted ≠ none := by
  rw [lookup_emptied]
  split
  · rename_i same
    rw [same, found]
    simp
  · rfl

/-- A key once asked for is passed over later. -/
theorem filterMap_emptied (slots : Slots κ α) (first : κ) (keys : List κ) :
    (keys.filterMap fun wanted => ((slots.insert first none).lookup wanted).join) =
      (keys.filter fun wanted => !wanted == first).filterMap fun wanted =>
        (slots.lookup wanted).join := by
  rw [List.filterMap_filter]
  apply List.filterMap_congr
  intro wanted _
  rw [lookup_emptied]
  by_cases same : wanted = first <;> simp [same]

/-- The items are those of the keys, each at the first place where its key stands. -/
theorem take_ok_iff {slots : Slots κ α} {wanted : List κ} {taken : List α} :
    take slots wanted = .ok taken ↔ (∀ item ∈ wanted, slots.lookup item ≠ none) ∧
      taken = wanted.eraseDups.filterMap fun item => (slots.lookup item).join := by
  induction wanted generalizing slots taken with
  | nil => simp [take, eq_comm]
  | cons first rest ih =>
      rw [take, List.forall_mem_cons, List.eraseDups_cons, eraseDups_filter]
      cases found : slots.lookup first with
      | none => simp
      | some slot =>
          have front (keys : List κ) :
              ((first :: keys).filterMap fun item => (slots.lookup item).join) =
                slot.toList ++ keys.filterMap fun item => (slots.lookup item).join := by
            cases slot <;> simp [found]
          simp only [bind_ok, ih, filterMap_emptied, known_emptied found, front, ne_eq,
            reduceCtorEq, not_false_eq_true, true_and]
          constructor
          · rintro ⟨later, ⟨present, rfl⟩, same⟩
            exact ⟨present, (Except.ok.inj same).symm⟩
          · rintro ⟨present, rfl⟩
            exact ⟨_, ⟨present, rfl⟩, rfl⟩

/-- The first key without a slot is the error. -/
theorem take_error {slots : Slots κ α} {wanted : List κ} {unknown : κ}
    (failed : take slots wanted = .error unknown) :
    ∃ before after, wanted = before ++ unknown :: after ∧ slots.lookup unknown = none ∧
      ∀ item ∈ before, slots.lookup item ≠ none := by
  induction wanted generalizing slots with
  | nil => cases failed
  | cons first rest ih =>
      rw [take] at failed
      cases found : slots.lookup first with
      | none =>
          simp only [found, Except.error.injEq] at failed
          exact ⟨[], rest, by rw [failed, List.nil_append], failed ▸ found, by simp⟩
      | some slot =>
          simp only [found] at failed
          rcases bind_error.mp failed with later | ⟨_, _, never⟩
          · rcases ih later with ⟨before, after, rfl, absent, present⟩
            rw [lookup_emptied] at absent
            split at absent
            · cases absent
            · refine ⟨first :: before, after, rfl, absent, List.forall_mem_cons.mpr ⟨?_, ?_⟩⟩
              · simp [found]
              · intro item member
                exact (known_emptied found item).mp (present item member)
          · cases never

theorem eraseDups_of_nodup {keys : List κ} (distinct : keys.Nodup) : keys.eraseDups = keys := by
  induction keys with
  | nil => rfl
  | cons first rest ih =>
      rw [List.nodup_cons] at distinct
      have others : (rest.filter fun other => !other == first) = rest := by
        rw [List.filter_eq_self]
        intro other member
        simpa using ne_of_mem_of_not_mem member distinct.1
      rw [List.eraseDups_cons, others, ih distinct.2]

theorem lookup_of_mem {items : List α} (unique : (items.map key).Nodup) {item : α}
    (member : item ∈ items) : (fill key items).lookup (key item) = some (some item) := by
  rw [lookup_fill unique]
  cases located : items.find? (fun other => key other = key item) with
  | none =>
      rw [List.find?_eq_none] at located
      exact absurd (decide_eq_true rfl) (located item member)
  | some other =>
      have same : key other = key item := by simpa using List.find?_some located
      have equal := List.inj_on_of_nodup_map unique (List.mem_of_find?_eq_some located) member same
      rw [equal]
      rfl

/-- Keys of items are never unknown, and each gives its item at its first place. -/
theorem take_registered {items : List α} (unique : (items.map key).Nodup) {wanted : List κ}
    (registered : wanted ⊆ items.map key) :
    ∃ chosen, take (fill key items) wanted = .ok chosen ∧ chosen ⊆ items ∧
      chosen.map key = wanted.eraseDups := by
  have kept : wanted.eraseDups ⊆ items.map key := fun item member =>
    registered (List.mem_eraseDups.mp member)
  refine ⟨_, take_ok_iff.mpr ⟨?_, rfl⟩, ?_, ?_⟩
  · intro wanted listed
    rcases List.mem_map.mp (registered listed) with ⟨item, member, rfl⟩
    simp [lookup_of_mem unique member]
  · intro item member
    rcases List.mem_filterMap.mp member with ⟨wanted, listed, found⟩
    rcases List.mem_map.mp (kept listed) with ⟨other, present, rfl⟩
    rw [lookup_of_mem unique present, Option.join_some, Option.some.injEq] at found
    exact found ▸ present
  · generalize wanted.eraseDups = keys at kept
    induction keys with
    | nil => rfl
    | cons first rest ih =>
        rw [List.cons_subset] at kept
        rcases List.mem_map.mp kept.1 with ⟨item, member, rfl⟩
        rw [List.filterMap_cons, lookup_of_mem unique member, Option.join_some, List.map_cons,
          ih kept.2]

theorem nodup_eraseDups (keys : List κ) : keys.eraseDups.Nodup := by
  induction keys with
  | nil => exact .nil
  | cons first rest ih =>
      rw [List.eraseDups_cons, eraseDups_filter, List.nodup_cons]
      exact ⟨by simp, ih.filter _⟩

/-- From items with different keys, some of them are taken back by their keys as they stand. -/
theorem take_fill {items chosen : List α} (unique : (items.map key).Nodup)
    (within : chosen ⊆ items) (distinct : (chosen.map key).Nodup) :
    take (fill key items) (chosen.map key) = .ok chosen := by
  rw [take_ok_iff, eraseDups_of_nodup distinct]
  constructor
  · intro wanted listed
    rcases List.mem_map.mp listed with ⟨item, member, rfl⟩
    simp [lookup_of_mem unique (within member)]
  · clear distinct
    induction chosen with
    | nil => rfl
    | cons first rest ih =>
        rw [List.cons_subset] at within
        rw [List.map_cons, List.filterMap_cons, lookup_of_mem unique within.1, Option.join_some,
          ← ih within.2]

end Pkix.KeyedSlots
