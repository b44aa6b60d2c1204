import Mathlib.Data.List.Basic
import Mathlib.Data.List.Nodup

/-!
# Slot maps

A slot map stores values under keys that it hands out itself.  A key is never
handed out twice, so a key that outlives its value names nothing, for good.
Keys are counted upwards here, which is what versioned slot keys amount to.
-/

namespace Interleave

/-- A finite map whose keys are below `next` and stored once each. -/
structure Slots (α : Type) where
  next : Nat
  entries : List (Nat × α)
  bounded : forall entry, entry ∈ entries -> entry.1 < next
  distinct : (entries.map Prod.fst).Nodup

namespace Slots

variable {α : Type}

def empty : Slots α where
  next := 0
  entries := []
  bounded := by simp
  distinct := by simp

def get? (slots : Slots α) (key : Nat) : Option α :=
  slots.entries.lookup key

def keys (slots : Slots α) : List Nat :=
  slots.entries.map Prod.fst

def length (slots : Slots α) : Nat :=
  slots.entries.length

def isEmpty (slots : Slots α) : Bool :=
  slots.entries.isEmpty

/-- Hands out a key whose value does not exist yet. -/
def reserve (slots : Slots α) : Slots α where
  next := slots.next + 1
  entries := slots.entries
  bounded := fun entry h => Nat.lt_succ_of_lt (slots.bounded entry h)
  distinct := slots.distinct

/-- Stores a value under a key that was handed out and is not in use. -/
def place (slots : Slots α) (key : Nat) (a : α) : Slots α :=
  if h : key < slots.next ∧ key ∉ slots.keys then
    { next := slots.next
      entries := (key, a) :: slots.entries
      bounded := by
        intro entry hentry
        cases hentry with
        | head => exact h.left
        | tail _ hmem => exact slots.bounded entry hmem
      distinct := List.nodup_cons.mpr ⟨h.right, slots.distinct⟩ }
  else
    slots

def modify (slots : Slots α) (key : Nat) (f : α -> α) : Slots α where
  next := slots.next
  entries := slots.entries.map fun entry =>
    if entry.1 = key then (entry.1, f entry.2) else entry
  bounded := by
    intro entry h
    rcases List.mem_map.mp h with ⟨entry', hmem, hentry⟩
    have hbound := slots.bounded entry' hmem
    by_cases hkey : entry'.1 = key
    · rw [if_pos hkey] at hentry
      rw [← hentry]
      exact hbound
    · rw [if_neg hkey] at hentry
      rw [← hentry]
      exact hbound
  distinct := by
    have hkeys : (slots.entries.map fun entry =>
        if entry.1 = key then (entry.1, f entry.2) else entry).map Prod.fst =
        slots.entries.map Prod.fst := by
      rw [List.map_map]
      apply List.map_congr_left
      intro entry _
      by_cases hkey : entry.1 = key <;> simp [hkey]
    rw [hkeys]
    exact slots.distinct

def remove (slots : Slots α) (key : Nat) : Slots α where
  next := slots.next
  entries := slots.entries.filter fun entry => entry.1 ≠ key
  bounded := fun entry h => slots.bounded entry (List.mem_of_mem_filter h)
  distinct := slots.distinct.sublist (List.filter_sublist.map _)

/-!
## Lookup
-/

theorem get?_eq_some_iff {slots : Slots α} {key : Nat} {a : α} :
    slots.get? key = some a <-> (key, a) ∈ slots.entries := by
  rcases slots with ⟨next, entries, bounded, distinct⟩
  show entries.lookup key = some a <-> (key, a) ∈ entries
  clear bounded
  induction entries with
  | nil => simp
  | cons entry rest ih =>
      rcases entry with ⟨key', a'⟩
      rw [List.map_cons, List.nodup_cons] at distinct
      rw [List.lookup_cons]
      by_cases hkey : key = key'
      · subst key'
        simp only [beq_self_eq_true]
        constructor
        · intro h
          cases h
          exact List.mem_cons_self ..
        · intro h
          cases h with
          | head => rfl
          | tail _ hmem =>
              exact absurd (List.mem_map_of_mem hmem) distinct.left
      · rw [beq_false_of_ne hkey]
        simp [ih distinct.right, hkey]

theorem get?_eq_none_iff {slots : Slots α} {key : Nat} :
    slots.get? key = none <-> key ∉ slots.keys := by
  unfold get? keys
  rw [List.lookup_eq_none_iff, List.mem_map]
  constructor
  · intro h hkey
    rcases hkey with ⟨entry, hmem, hentry⟩
    have hne := h entry hmem
    rw [hentry] at hne
    simp at hne
  · intro h entry hmem
    by_contra heq
    simp only [bne_iff_ne, ne_eq, not_not] at heq
    exact h ⟨entry, hmem, heq.symm⟩

theorem mem_keys_iff {slots : Slots α} {key : Nat} :
    key ∈ slots.keys <-> exists a, slots.get? key = some a := by
  cases h : slots.get? key with
  | none => simp [get?_eq_none_iff.mp h]
  | some a =>
      simp only [Option.some.injEq, exists_eq', iff_true]
      exact List.mem_map_of_mem (get?_eq_some_iff.mp h)

theorem lt_next {slots : Slots α} {key : Nat} {a : α}
    (h : slots.get? key = some a) : key < slots.next :=
  slots.bounded _ (get?_eq_some_iff.mp h)

theorem get?_of_next_le {slots : Slots α} {key : Nat}
    (h : slots.next <= key) : slots.get? key = none := by
  cases hget : slots.get? key with
  | none => rfl
  | some a => exact absurd (lt_next hget) (Nat.not_lt.mpr h)

theorem isEmpty_iff {slots : Slots α} :
    slots.isEmpty = true <-> forall key, slots.get? key = none := by
  unfold isEmpty
  rw [List.isEmpty_iff]
  constructor
  · intro h key
    unfold get?
    rw [h]
    rfl
  · intro h
    apply List.eq_nil_iff_forall_not_mem.mpr
    intro entry hmem
    have hnone := h entry.1
    have hsome : slots.get? entry.1 = some entry.2 := get?_eq_some_iff.mpr hmem
    rw [hnone] at hsome
    cases hsome

theorem isEmpty_eq_false_iff {slots : Slots α} :
    slots.isEmpty = false <-> exists key a, slots.get? key = some a := by
  rw [← Bool.not_eq_true, isEmpty_iff]
  constructor
  · intro h
    by_contra hnone
    apply h
    intro key
    cases hget : slots.get? key with
    | none => rfl
    | some a => exact absurd ⟨key, a, hget⟩ hnone
  · intro h hall
    rcases h with ⟨key, a, hget⟩
    rw [hall key] at hget
    cases hget

@[simp] theorem get?_reserve (slots : Slots α) (key : Nat) :
    slots.reserve.get? key = slots.get? key := rfl

@[simp] theorem next_place (slots : Slots α) (key : Nat) (a : α) :
    (slots.place key a).next = slots.next := by
  unfold place
  by_cases h : key < slots.next ∧ key ∉ slots.keys
  · rw [dif_pos h]
  · rw [dif_neg h]

@[simp] theorem next_modify (slots : Slots α) (key : Nat) (f : α -> α) :
    (slots.modify key f).next = slots.next := rfl

@[simp] theorem next_remove (slots : Slots α) (key : Nat) :
    (slots.remove key).next = slots.next := rfl

theorem get?_place_of_free {slots : Slots α} {key : Nat} {a : α}
    (hkey : key < slots.next) (hfree : slots.get? key = none) (key' : Nat) :
    (slots.place key a).get? key' =
      if key' = key then some a else slots.get? key' := by
  have h : key < slots.next ∧ key ∉ slots.keys :=
    ⟨hkey, get?_eq_none_iff.mp hfree⟩
  unfold place
  rw [dif_pos h]
  unfold get?
  rw [List.lookup_cons]
  by_cases heq : key' = key
  · simp [heq]
  · simp [heq, beq_false_of_ne heq]

theorem get?_place_some {slots : Slots α} {key key' : Nat} {a a' : α}
    (h : (slots.place key a).get? key' = some a') :
    slots.get? key' = some a' ∨ (key' = key ∧ a' = a) := by
  unfold place at h
  by_cases hcond : key < slots.next ∧ key ∉ slots.keys
  · rw [dif_pos hcond] at h
    cases get?_eq_some_iff.mp h with
    | head => exact Or.inr ⟨rfl, rfl⟩
    | tail _ hmem => exact Or.inl (get?_eq_some_iff.mpr hmem)
  · rw [dif_neg hcond] at h
    exact Or.inl h

theorem get?_modify (slots : Slots α) (key key' : Nat) (f : α -> α) :
    (slots.modify key f).get? key' =
      if key' = key then (slots.get? key').map f else slots.get? key' := by
  rcases slots with ⟨next, entries, bounded, distinct⟩
  show (entries.map _).lookup key' =
    if key' = key then (entries.lookup key').map f else entries.lookup key'
  clear bounded distinct
  induction entries with
  | nil => simp
  | cons entry rest ih =>
      rcases entry with ⟨key'', a⟩
      rw [List.map_cons, List.lookup_cons, List.lookup_cons, ih]
      by_cases hkey : key'' = key
      · subst key''
        by_cases hkey' : key' = key
        · simp [hkey']
        · simp [hkey', beq_false_of_ne hkey']
      · by_cases hkey' : key' = key''
        · subst key''
          simp [hkey]
        · simp [hkey, beq_false_of_ne hkey']

theorem get?_remove (slots : Slots α) (key key' : Nat) :
    (slots.remove key).get? key' =
      if key' = key then none else slots.get? key' := by
  by_cases h : key' = key
  · rw [if_pos h, get?_eq_none_iff]
    intro hmem
    rcases List.mem_map.mp hmem with ⟨entry, hentry, hfst⟩
    have hne := (List.mem_filter.mp hentry).right
    simp only [ne_eq, decide_not, Bool.not_eq_true',
      decide_eq_false_iff_not] at hne
    exact hne (hfst.trans h)
  · rw [if_neg h]
    cases hget : slots.get? key' with
    | none =>
        rw [get?_eq_none_iff] at hget ⊢
        intro hmem
        rcases List.mem_map.mp hmem with ⟨entry, hentry, hfst⟩
        apply hget
        exact List.mem_map.mpr ⟨entry, List.mem_of_mem_filter hentry, hfst⟩
    | some a =>
        rw [get?_eq_some_iff] at hget ⊢
        apply List.mem_filter.mpr
        exact ⟨hget, by simpa using h⟩

@[simp] theorem isEmpty_modify (slots : Slots α) (key : Nat) (f : α -> α) :
    (slots.modify key f).isEmpty = slots.isEmpty :=
  List.isEmpty_map

theorem isEmpty_remove {slots : Slots α} {key : Nat}
    (h : slots.isEmpty = true) : (slots.remove key).isEmpty = true := by
  rw [isEmpty_iff] at h ⊢
  intro key'
  rw [get?_remove, h key']
  simp

theorem length_eq_zero_iff {slots : Slots α} :
    slots.length = 0 <-> slots.isEmpty = true := by
  unfold length isEmpty
  rw [List.length_eq_zero_iff, List.isEmpty_iff]

@[simp] theorem length_modify (slots : Slots α) (key : Nat) (f : α -> α) :
    (slots.modify key f).length = slots.length :=
  List.length_map ..

end Slots

end Interleave
