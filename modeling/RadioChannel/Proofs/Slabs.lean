import RadioChannel.Slab
import Mathlib.Tactic

/-!
# A slab is a map from handles to items

A ledger is written from calls and replies alone: how often each slot was filled, what it holds, and
whether a closure has failed on it. A slab keeps its ledger through every history. Its free list names
the empty slots, and a handle reaches what its slot holds if it was made for a filling with the same
generation, counted modulo `2 ^ 32`, and no closure has failed on that filling. A slot on which one has
failed stays filled for good.
-/

namespace RadioChannel

namespace Slab

variable {ε α β : Type}

/-! ## Handles -/

theorem toNat_handle {index : Nat} (h : index < 2 ^ 32) (generation : UInt32) :
    (handle index generation).toNat = generation.toNat * 2 ^ 32 + index := by
  have hg : generation.toNat < 2 ^ 32 := generation.toNat_lt
  have hword : generation.toNat * 2 ^ 32 < 2 ^ 64 := by omega
  have hindex : index < 2 ^ 64 := by omega
  unfold handle
  rw [UInt64.toNat_or, UInt64.toNat_shiftLeft, UInt32.toNat_toUInt64, Nat.toUInt64_eq,
    UInt64.toNat_ofNat_of_lt' hindex]
  change (generation.toNat <<< 32 % 2 ^ 64) ||| index = _
  rw [Nat.shiftLeft_eq, Nat.mod_eq_of_lt hword, ← Nat.shiftLeft_eq,
    Nat.shiftLeft_add_eq_or_of_lt h]

theorem indexOf_eq (h : UInt64) : indexOf h = h.toNat % 2 ^ 32 := by
  unfold indexOf
  rw [UInt64.toNat_and]
  exact Nat.and_two_pow_sub_one_eq_mod h.toNat 32

theorem toNat_generationOf (h : UInt64) : (generationOf h).toNat = h.toNat / 2 ^ 32 := by
  have hlt : h.toNat < 2 ^ 64 := h.toNat_lt
  have hhigh : h.toNat / 2 ^ 32 < 2 ^ 32 := by omega
  unfold generationOf
  rw [UInt64.toNat_toUInt32, UInt64.toNat_shiftRight]
  change (h.toNat >>> 32) % 2 ^ 32 = _
  rw [Nat.shiftRight_eq_div_pow, Nat.mod_eq_of_lt hhigh]

theorem indexOf_lt (h : UInt64) : indexOf h < 2 ^ 32 := by
  rw [indexOf_eq]
  exact Nat.mod_lt _ (by decide)

theorem indexOf_handle {index : Nat} (h : index < 2 ^ 32) (generation : UInt32) :
    indexOf (handle index generation) = index := by
  rw [indexOf_eq, toNat_handle h]
  omega

theorem generationOf_handle {index : Nat} (h : index < 2 ^ 32) (generation : UInt32) :
    generationOf (handle index generation) = generation := by
  rw [← UInt32.toNat_inj, toNat_generationOf, toNat_handle h]
  omega

/-- Every word is the handle of some filling. -/
theorem handle_indexOf (h : UInt64) : handle (indexOf h) (generationOf h) = h := by
  rw [← UInt64.toNat_inj, toNat_handle (indexOf_lt h), toNat_generationOf, indexOf_eq]
  omega

theorem ofNat_eq_iff {m : Nat} {generation : UInt32} :
    UInt32.ofNat m = generation ↔ m ≡ generation.toNat [MOD 2 ^ 32] := by
  rw [← UInt32.toNat_inj, UInt32.toNat_ofNat', Nat.ModEq,
    Nat.mod_eq_of_lt (b := 2 ^ 32) generation.toNat_lt]

/-! ## Histories -/

/-- What a host does with a slab. The closures are arbitrary, and each may fail. -/
inductive Call (ε α β : Type) where
  | insert (item : α)
  | look (h : UInt64) (f : α → Except ε β)
  | change (h : UInt64) (f : α → Except ε β × α)
  | remove (h : UInt64)

/-- What a call comes to. -/
inductive Reply (ε α β : Type) where
  | inserted (h : Option UInt64)
  | answered (answer : Except ε (Option β))
  | removed (item : Option α)

/-- One call. -/
def serve (s : Slab α) : Call ε α β → Reply ε α β × Slab α
  | .insert item => (.inserted (s.insert item).1, (s.insert item).2)
  | .look h f => (.answered (s.look h f).1, (s.look h f).2)
  | .change h f => (.answered (s.modify h f).1, (s.modify h f).2)
  | .remove h => (.removed (s.remove h).1, (s.remove h).2)

/-- What the calls and replies of a history tell about a slab. -/
structure Ledger (α : Type) where
  /-- How often a slot was filled. -/
  filled : Nat → Nat
  /-- What a slot holds. -/
  held : Nat → Option α
  /-- Whether a closure has failed on what a slot holds. -/
  broken : Nat → Bool

namespace Ledger

/-- Nothing was filled. -/
def blank : Ledger α := ⟨fun _ => 0, fun _ => none, fun _ => false⟩

/-- One more filling of a slot. -/
def fill (l : Ledger α) (i : Nat) (item : α) : Ledger α :=
  { l with
    filled := Function.update l.filled i (l.filled i + 1)
    held := Function.update l.held i (some item) }

/-- Other content of a slot, and whether a closure has failed on it. -/
def put (l : Ledger α) (i : Nat) (content : Option α) (broken : Bool) : Ledger α :=
  { l with
    held := Function.update l.held i content
    broken := Function.update l.broken i broken }

/-- Enters a call and its reply. What a closure has made of an item counts also where it failed. -/
def record (l : Ledger α) : Call ε α β → Reply ε α β → Ledger α
  | .insert item, .inserted (some h) => l.fill (indexOf h) item
  | .look h _, .answered (.error _) => l.put (indexOf h) (l.held (indexOf h)) true
  | .change h f, .answered (.ok (some _)) =>
    l.put (indexOf h) ((l.held (indexOf h)).map fun item => (f item).2) false
  | .change h f, .answered (.error _) =>
    l.put (indexOf h) ((l.held (indexOf h)).map fun item => (f item).2) true
  | .remove h, .removed (some _) => l.put (indexOf h) none false
  | _, _ => l

/-- What a handle ought to reach: what its slot holds, if no closure has failed on it, and if the
slot's last filling and the one the handle was made for are a multiple of `2 ^ 32` apart. -/
def reached (l : Ledger α) (h : UInt64) : Option α :=
  if l.broken (indexOf h) = false ∧ l.filled (indexOf h) ≡ (generationOf h).toNat [MOD 2 ^ 32] then
    l.held (indexOf h)
  else none

end Ledger

/-- A slab and its ledger after some more calls. -/
def follow (s : Slab α) (l : Ledger α) : List (Call ε α β) → Slab α × Ledger α
  | [] => (s, l)
  | call :: calls => (s.serve call).2.follow (l.record call (s.serve call).1) calls

/-! ## The slab keeps its ledger -/

/-- What a slab of the given capacity has in common with its ledger. A slot is locked for ever exactly
where a closure has failed on what it holds; nothing fails under the lock of the free list. -/
structure Keeps (capacity : Nat) (s : Slab α) (l : Ledger α) : Prop where
  slots_eq : ∀ i, s.slots[i]? =
    if i < capacity then some ⟨⟨UInt32.ofNat (l.filled i), l.held i⟩, l.broken i⟩ else none
  held_beyond : ∀ i, capacity ≤ i → l.held i = none
  held_of_broken : ∀ i, l.broken i = true → (l.held i).isSome
  free_sound : s.free.poisoned = false
  nodup_free : s.free.value.Nodup
  mem_free : ∀ i, i ∈ s.free.value ↔ i < capacity ∧ l.held i = none
  live_add : s.live + s.free.value.length = capacity

theorem keeps_ofCapacity (capacity : Nat) :
    (ofCapacity capacity : Slab α).Keeps capacity .blank where
  slots_eq i := by
    simp only [ofCapacity, Array.getElem?_replicate]
    rfl
  held_beyond i _ := rfl
  held_of_broken i hi := by cases hi
  free_sound := rfl
  nodup_free := List.nodup_range
  mem_free i := by simp [ofCapacity, Guarded.sound, Ledger.blank]
  live_add := by simp [ofCapacity, Guarded.sound]

namespace Keeps

variable {capacity : Nat} {s : Slab α} {l : Ledger α}

theorem lt_of_held (k : s.Keeps capacity l) {i : Nat} {item : α} (h : l.held i = some item) :
    i < capacity := by
  by_contra hi
  rw [k.held_beyond i (by omega)] at h
  cases h

theorem broken_eq_false (k : s.Keeps capacity l) {i : Nat} (h : l.held i = none) :
    l.broken i = false := by
  cases hbroken : l.broken i with
  | false => rfl
  | true =>
    have hsome := k.held_of_broken i hbroken
    rw [h] at hsome
    cases hsome

theorem item_eq (k : s.Keeps capacity l) (i : Nat) :
    s.slots[i]?.bind (fun slot => slot.value.item) = l.held i := by
  rw [k.slots_eq]
  by_cases hi : i < capacity
  · rw [if_pos hi]
    rfl
  · rw [if_neg hi, k.held_beyond i (Nat.le_of_not_lt hi)]
    rfl

/-- The lock of a slot can be taken unless a closure has failed on what the slot holds. -/
theorem lock_eq (k : s.Keeps capacity l) (i : Nat) : s.slots[i]?.bind Guarded.get? =
    if i < capacity ∧ l.broken i = false then some ⟨UInt32.ofNat (l.filled i), l.held i⟩ else none := by
  rw [k.slots_eq]
  by_cases hi : i < capacity
  · rw [if_pos hi]
    cases hbroken : l.broken i <;> simp [Guarded.get?, hi]
  · simp [hi]

theorem free_eq (k : s.Keeps capacity l) : s.free = .sound s.free.value := by
  rw [Guarded.sound, ← k.free_sound]

/-- Handles reach what the ledger says. -/
theorem get?_eq (k : s.Keeps capacity l) (h : UInt64) : s.get? h = l.reached h := by
  unfold get? Ledger.reached
  rw [k.lock_eq]
  by_cases hi : indexOf h < capacity
  · by_cases hbroken : l.broken (indexOf h) = false
    · rw [if_pos ⟨hi, hbroken⟩]
      simp only [hbroken, true_and, ofNat_eq_iff]
    · rw [if_neg fun hsound => hbroken hsound.2, if_neg fun hsound => hbroken hsound.1]
  · rw [if_neg fun hsound => hi hsound.1, k.held_beyond _ (Nat.le_of_not_lt hi), ite_self]

theorem remove_eq (k : s.Keeps capacity l) (h : UInt64) : (s.remove h).1 = l.reached h := by
  unfold Slab.remove
  rw [k.get?_eq]
  cases l.reached h <;> rfl

theorem reached_iff {h : UInt64} {item : α} : l.reached h = some item ↔
    l.broken (indexOf h) = false ∧ UInt32.ofNat (l.filled (indexOf h)) = generationOf h ∧
      l.held (indexOf h) = some item := by
  rw [ofNat_eq_iff, Ledger.reached]
  split
  · next hsound => exact ⟨fun hheld => ⟨hsound.1, hsound.2, hheld⟩, fun ⟨_, _, hheld⟩ => hheld⟩
  · next hlost =>
    constructor
    · intro hnone
      cases hnone
    · rintro ⟨hbroken, hgen, -⟩
      exact absurd ⟨hbroken, hgen⟩ hlost

/-- A handle of a slot on which a closure has failed reaches nothing. -/
theorem reached_of_broken {h : UInt64} (hbroken : l.broken (indexOf h) = true) :
    l.reached h = none := by
  rw [Ledger.reached, if_neg]
  rintro ⟨hsound, -⟩
  rw [hbroken] at hsound
  cases hsound

theorem slots_set (k : s.Keeps capacity l) {i : Nat} (hi : i < capacity) (slot : Guarded (Slot α))
    (j : Nat) :
    (s.slots.setIfInBounds i slot)[j]? = if j = i then some slot else s.slots[j]? := by
  have hsize : i < s.slots.size := by
    by_contra hout
    have hnone : s.slots[i]? = none := Array.getElem?_eq_none (Nat.le_of_not_lt hout)
    rw [k.slots_eq, if_pos hi] at hnone
    cases hnone
  by_cases hj : j = i
  · rw [if_pos hj, hj, Array.getElem?_setIfInBounds_self_of_lt hsize]
  · rw [if_neg hj, Array.getElem?_setIfInBounds_ne (Ne.symm hj)]

/-- The free list is a list of all empty slots. -/
theorem free_perm (k : s.Keeps capacity l) :
    s.free.value.Perm ((List.range capacity).filter fun i => !(l.held i).isSome) := by
  refine (List.perm_ext_iff_of_nodup k.nodup_free (List.nodup_range.filter _)).mpr fun i => ?_
  rw [k.mem_free, List.mem_filter, List.mem_range]
  simp

theorem count_eq (k : s.Keeps capacity l) :
    s.count = (List.range capacity).countP fun i => (l.held i).isSome := by
  have hempty : s.free.value.length =
      (List.range capacity).countP fun i => !(l.held i).isSome := by
    rw [k.free_perm.length_eq, List.countP_eq_length_filter]
  have hall := List.length_eq_countP_add_countP (fun i => (l.held i).isSome) (l := List.range capacity)
  have hlive := k.live_add
  rw [List.length_range] at hall
  simp only [Bool.not_eq_true, Bool.decide_eq_false] at hall
  unfold count
  omega

/-- An item is inserted while a slot is empty, and goes into one of the empty slots. -/
theorem insert_cases (k : s.Keeps capacity l) (item : α) :
    (s.free.value = [] ∧ s.insert item = (none, s)) ∨
    (∃ i free, s.free.value = i :: free ∧ i < capacity ∧ l.held i = none ∧
      s.insert item = (some (handle i (UInt32.ofNat (l.filled i + 1))),
        { slots := s.slots.setIfInBounds i (.sound ⟨UInt32.ofNat (l.filled i + 1), some item⟩)
          free := .sound free
          live := s.live + 1 })) := by
  have htaken : s.free.get? = some s.free.value := by
    rw [k.free_eq]
    rfl
  unfold insert
  rw [htaken]
  cases hfree : s.free.value with
  | nil => exact Or.inl ⟨rfl, rfl⟩
  | cons i free =>
    have hmem : i ∈ s.free.value := by
      rw [hfree]
      exact List.mem_cons_self
    obtain ⟨hi, hheld⟩ := (k.mem_free i).mp hmem
    refine Or.inr ⟨i, free, rfl, hi, hheld, ?_⟩
    have hgeneration : UInt32.ofNat (l.filled i) + 1 = UInt32.ofNat (l.filled i + 1) := by
      rw [UInt32.ofNat_add]
      rfl
    simp only [k.lock_eq, hi, k.broken_eq_false hheld, and_self, if_true, hgeneration]

theorem insert_eq_none_iff (k : s.Keeps capacity l) (item : α) :
    (s.insert item).1 = none ↔ ∀ i < capacity, (l.held i).isSome := by
  rcases k.insert_cases item with ⟨hfree, hrun⟩ | ⟨i, free, -, hi, hheld, hrun⟩
  · refine ⟨fun _ i hi => ?_, fun _ => by rw [hrun]⟩
    rw [Option.isSome_iff_ne_none]
    intro hnone
    have hmem := (k.mem_free i).mpr ⟨hi, hnone⟩
    rw [hfree] at hmem
    cases hmem
  · rw [hrun]
    constructor
    · intro hnone
      cases hnone
    · intro hall
      have hsome := hall i hi
      rw [hheld] at hsome
      cases hsome

theorem insert (k : s.Keeps capacity l) (hcap : capacity ≤ 2 ^ 32) (item : α) :
    (s.insert item).2.Keeps capacity
      (l.record (.insert item : Call ε α β) (.inserted (s.insert item).1)) := by
  rcases k.insert_cases item with ⟨-, hrun⟩ | ⟨i, free, hfree, hi, hheld, hrun⟩
  · rw [hrun]
    exact k
  · rw [hrun]
    simp only [Ledger.record, indexOf_handle (Nat.lt_of_lt_of_le hi hcap)]
    have hnodup : i ∉ free ∧ free.Nodup := List.nodup_cons.mp (hfree ▸ k.nodup_free)
    exact {
      slots_eq := by
        intro j
        rw [k.slots_set hi, k.slots_eq]
        by_cases hj : j = i
        · subst hj
          simp [Ledger.fill, Guarded.sound, hi, k.broken_eq_false hheld]
        · simp [Ledger.fill, hj]
      held_beyond := by
        intro j hj
        have hne : j ≠ i := by omega
        simp [Ledger.fill, hne, k.held_beyond j hj]
      held_of_broken := by
        intro j hj
        by_cases hne : j = i
        · subst hne
          simp [Ledger.fill]
        · simpa [Ledger.fill, hne] using k.held_of_broken j hj
      free_sound := rfl
      nodup_free := hnodup.2
      mem_free := by
        intro j
        change j ∈ free ↔ _
        have hmem := k.mem_free j
        rw [hfree, List.mem_cons] at hmem
        by_cases hj : j = i
        · subst hj
          simp [Ledger.fill, hnodup.1]
        · simpa [Ledger.fill, hj] using hmem
      live_add := by
        have hlive := k.live_add
        rw [hfree, List.length_cons] at hlive
        change s.live + 1 + free.length = capacity
        omega }

/-- An occupied slot with other content still keeps the ledger, with its lock poisoned or not. -/
theorem put (k : s.Keeps capacity l) {h : UInt64} {old : α} (hold : l.reached h = some old)
    (new : α) (broken : Bool) :
    (s.put h (some new) broken).Keeps capacity (l.put (indexOf h) (some new) broken) := by
  obtain ⟨-, hgeneration, hheld⟩ := reached_iff.mp hold
  have hi := k.lt_of_held hheld
  exact {
    slots_eq := by
      intro j
      rw [Slab.put, k.slots_set hi, k.slots_eq]
      by_cases hj : j = indexOf h
      · subst hj
        simp [Ledger.put, hi, hgeneration]
      · simp [Ledger.put, hj]
    held_beyond := by
      intro j hj
      have hne : j ≠ indexOf h := by omega
      simp [Ledger.put, hne, k.held_beyond j hj]
    held_of_broken := by
      intro j hj
      by_cases hne : j = indexOf h
      · subst hne
        simp [Ledger.put]
      · simp only [Ledger.put, Function.update_of_ne hne] at hj ⊢
        exact k.held_of_broken j hj
    free_sound := k.free_sound
    nodup_free := k.nodup_free
    mem_free := by
      intro j
      change j ∈ s.free.value ↔ _
      by_cases hj : j = indexOf h
      · subst hj
        simp [Ledger.put, k.mem_free, hheld]
      · simp [Ledger.put, k.mem_free, hj]
    live_add := k.live_add }

/-- A closure is run on what its handle reaches, and answers or fails. -/
theorem modify_cases (k : s.Keeps capacity l) (h : UInt64) (f : α → Except ε β × α) :
    (l.reached h = none ∧ s.modify h f = (.ok none, s)) ∨
    ∃ old, l.reached h = some old ∧
      ((∃ answer, (f old).1 = .ok answer ∧
        s.modify h f = (.ok (some answer), s.put h (some (f old).2) false)) ∨
      ∃ e, (f old).1 = .error e ∧ s.modify h f = (.error e, s.put h (some (f old).2) true)) := by
  unfold modify
  rw [k.get?_eq]
  cases hold : l.reached h with
  | none => exact Or.inl ⟨rfl, rfl⟩
  | some old =>
    refine Or.inr ⟨old, rfl, ?_⟩
    dsimp only
    rcases f old with ⟨e | answer, item⟩
    · exact Or.inr ⟨e, rfl, rfl⟩
    · exact Or.inl ⟨answer, rfl, rfl⟩

theorem change (k : s.Keeps capacity l) (h : UInt64) (f : α → Except ε β × α) :
    (s.modify h f).2.Keeps capacity (l.record (.change h f) (.answered (s.modify h f).1)) := by
  rcases k.modify_cases h f with ⟨-, hrun⟩ | ⟨old, hold, ⟨answer, -, hrun⟩ | ⟨e, -, hrun⟩⟩ <;> rw [hrun]
  · exact k
  · simp only [Ledger.record, (reached_iff.mp hold).2.2, Option.map_some]
    exact k.put hold (f old).2 false
  · simp only [Ledger.record, (reached_iff.mp hold).2.2, Option.map_some]
    exact k.put hold (f old).2 true

theorem look (k : s.Keeps capacity l) (h : UInt64) (f : α → Except ε β) :
    (s.look h f).2.Keeps capacity (l.record (.look h f) (.answered (s.look h f).1)) := by
  unfold Slab.look
  rcases k.modify_cases h fun item => (f item, item) with
    ⟨-, hrun⟩ | ⟨old, hold, ⟨answer, -, hrun⟩ | ⟨e, -, hrun⟩⟩ <;> rw [hrun]
  · exact k
  · -- the same content, and no closure has failed on it
    obtain ⟨hsound, -, hheld⟩ := reached_iff.mp hold
    have hsame : l.put (indexOf h) (some old) false = l := by
      rw [Ledger.put, ← hheld, ← hsound, Function.update_eq_self, Function.update_eq_self]
    have hput := k.put hold old false
    rwa [hsame] at hput
  · simp only [Ledger.record, (reached_iff.mp hold).2.2]
    exact k.put hold old true

theorem remove (k : s.Keeps capacity l) (h : UInt64) :
    (s.remove h).2.Keeps capacity
      (l.record (.remove h : Call ε α β) (.removed (s.remove h).1)) := by
  unfold Slab.remove
  rw [k.get?_eq]
  cases hold : l.reached h with
  | none => exact k
  | some old =>
    obtain ⟨-, hgeneration, hheld⟩ := reached_iff.mp hold
    have hi := k.lt_of_held hheld
    have hfresh : indexOf h ∉ s.free.value := by
      rw [k.mem_free, hheld]
      rintro ⟨-, hnone⟩
      cases hnone
    have hfree : s.free.change (indexOf h :: ·) = .sound (indexOf h :: s.free.value) := by
      rw [k.free_eq]
      rfl
    dsimp only
    rw [hfree]
    exact {
      slots_eq := by
        intro j
        rw [Slab.put, k.slots_set hi, k.slots_eq]
        by_cases hj : j = indexOf h
        · subst hj
          simp [Ledger.record, Ledger.put, hi, hgeneration]
        · simp [Ledger.record, Ledger.put, hj]
      held_beyond := by
        intro j hj
        have hne : j ≠ indexOf h := by omega
        simp [Ledger.record, Ledger.put, hne, k.held_beyond j hj]
      held_of_broken := by
        intro j hj
        by_cases hne : j = indexOf h
        · subst hne
          simp [Ledger.record, Ledger.put] at hj
        · simp only [Ledger.record, Ledger.put, Function.update_of_ne hne] at hj ⊢
          exact k.held_of_broken j hj
      free_sound := rfl
      nodup_free := List.nodup_cons.mpr ⟨hfresh, k.nodup_free⟩
      mem_free := by
        intro j
        change j ∈ indexOf h :: s.free.value ↔ _
        by_cases hj : j = indexOf h
        · subst hj
          simp [Ledger.record, Ledger.put, hi]
        · simp [Ledger.record, Ledger.put, k.mem_free, hj]
      live_add := by
        have hlive := k.live_add
        have hcount := k.count_eq
        have hpos : 0 < (List.range capacity).countP fun i => (l.held i).isSome := by
          rw [List.countP_pos_iff]
          exact ⟨indexOf h, List.mem_range.mpr hi, by rw [hheld]; rfl⟩
        unfold count at hcount
        change s.live - 1 + (s.free.value.length + 1) = capacity
        omega }

/-- One call keeps the ledger. -/
theorem serve (k : s.Keeps capacity l) (hcap : capacity ≤ 2 ^ 32) (call : Call ε α β) :
    (s.serve call).2.Keeps capacity (l.record call (s.serve call).1) := by
  cases call with
  | insert item => exact k.insert hcap item
  | look h f => exact k.look h f
  | change h f => exact k.change h f
  | remove h => exact k.remove h

theorem follow (k : s.Keeps capacity l) (hcap : capacity ≤ 2 ^ 32) (calls : List (Call ε α β)) :
    (s.follow l calls).1.Keeps capacity (s.follow l calls).2 := by
  induction calls generalizing s l with
  | nil => exact k
  | cons call calls ih => exact ih (k.serve hcap call)

end Keeps

/-! ## Slots that are broken -/

namespace Ledger

/-- What stays of a slot on which a closure has failed. -/
structure Stays (i : Nat) (l l' : Ledger α) : Prop where
  filled : l'.filled i = l.filled i
  held : l'.held i = l.held i
  broken : l'.broken i = true

theorem stays_put {l : Ledger α} {i j : Nat} (hbroken : l.broken i = true) (hne : i ≠ j)
    (content : Option α) (broken : Bool) : Stays i l (l.put j content broken) where
  filled := rfl
  held := Function.update_of_ne hne ..
  broken := (Function.update_of_ne hne ..).trans hbroken

end Ledger

/-- No call changes anything of a slot on which a closure has failed. -/
theorem Keeps.stays_serve {capacity : Nat} {s : Slab α} {l : Ledger α} (k : s.Keeps capacity l)
    (hcap : capacity ≤ 2 ^ 32) {i : Nat} (hbroken : l.broken i = true) (call : Call ε α β) :
    Ledger.Stays i l (l.record call (s.serve call).1) := by
  have hsame : Ledger.Stays i l l := ⟨rfl, rfl, hbroken⟩
  -- handles that reach something are of other slots
  have hother {h : UInt64} {old : α} (hold : l.reached h = some old) : i ≠ indexOf h := by
    rintro rfl
    rw [Keeps.reached_of_broken hbroken] at hold
    cases hold
  cases call with
  | insert item =>
    rcases k.insert_cases item with ⟨-, hrun⟩ | ⟨j, free, -, hj, hheld, hrun⟩
    · simpa only [Slab.serve, hrun, Ledger.record] using hsame
    · have hne : i ≠ j := by
        rintro rfl
        rw [k.broken_eq_false hheld] at hbroken
        cases hbroken
      simp only [Slab.serve, hrun, Ledger.record, indexOf_handle (Nat.lt_of_lt_of_le hj hcap)]
      exact ⟨Function.update_of_ne hne .., Function.update_of_ne hne .., hbroken⟩
  | look h f =>
    simp only [Slab.serve, Slab.look]
    rcases k.modify_cases h fun item => (f item, item) with
      ⟨-, hrun⟩ | ⟨old, hold, ⟨answer, -, hrun⟩ | ⟨e, -, hrun⟩⟩ <;> rw [hrun]
    · exact hsame
    · exact hsame
    · exact Ledger.stays_put hbroken (hother hold) _ _
  | change h f =>
    simp only [Slab.serve]
    rcases k.modify_cases h f with ⟨-, hrun⟩ | ⟨old, hold, ⟨answer, -, hrun⟩ | ⟨e, -, hrun⟩⟩ <;>
      rw [hrun]
    · exact hsame
    · exact Ledger.stays_put hbroken (hother hold) _ _
    · exact Ledger.stays_put hbroken (hother hold) _ _
  | remove h =>
    simp only [Slab.serve, k.remove_eq]
    cases hold : l.reached h with
    | none => exact hsame
    | some old => exact Ledger.stays_put hbroken (hother hold) _ _

theorem Keeps.stays_follow {capacity : Nat} {s : Slab α} {l : Ledger α} (k : s.Keeps capacity l)
    (hcap : capacity ≤ 2 ^ 32) {i : Nat} (hbroken : l.broken i = true) (calls : List (Call ε α β)) :
    Ledger.Stays i l (s.follow l calls).2 := by
  induction calls generalizing s l with
  | nil => exact ⟨rfl, rfl, hbroken⟩
  | cons call calls ih =>
    have hfirst := k.stays_serve hcap hbroken call
    have hrest := ih (k.serve hcap call) hfirst.broken
    exact ⟨hrest.filled.trans hfirst.filled, hrest.held.trans hfirst.held, hrest.broken⟩

/-! ## Stale handles -/

namespace Ledger

/-- A slot is filled again before it holds anything again. -/
def Later (l l' : Ledger α) : Prop :=
  ∀ i, l.filled i ≤ l'.filled i ∧ (l'.filled i = l.filled i → l.held i = none → l'.held i = none)

theorem Later.refl (l : Ledger α) : l.Later l := fun _ => ⟨Nat.le_refl _, fun _ h => h⟩

theorem Later.trans {l l' l'' : Ledger α} (h : l.Later l') (h' : l'.Later l'') : l.Later l'' := by
  intro i
  obtain ⟨hle, hempty⟩ := h i
  obtain ⟨hle', hempty'⟩ := h' i
  exact ⟨hle.trans hle', fun heq hnone => hempty' (by omega) (hempty (by omega) hnone)⟩

theorem later_fill (l : Ledger α) (i : Nat) (item : α) : l.Later (l.fill i item) := by
  intro j
  by_cases hj : j = i
  · subst hj
    simp [fill]
  · simp [fill, hj]

theorem later_put (l : Ledger α) (i : Nat) {content : Option α} (broken : Bool)
    (hempty : l.held i = none → content = none) : l.Later (l.put i content broken) := by
  intro j
  by_cases hj : j = i
  · subst hj
    simpa [put] using hempty
  · simp [put, hj]

theorem later_record (l : Ledger α) (call : Call ε α β) (reply : Reply ε α β) :
    l.Later (l.record call reply) := by
  unfold record
  split
  · exact l.later_fill _ _
  · exact l.later_put _ _ fun h => h
  · exact l.later_put _ _ fun h => by rw [h]; rfl
  · exact l.later_put _ _ fun h => by rw [h]; rfl
  · exact l.later_put _ _ fun _ => rfl
  · exact Later.refl l

end Ledger

theorem later_follow (s : Slab α) (l : Ledger α) (calls : List (Call ε α β)) :
    l.Later (s.follow l calls).2 := by
  induction calls generalizing s l with
  | nil => exact Ledger.Later.refl l
  | cons call calls ih => exact (l.later_record call _).trans (ih _ _)

/-- What was removed is not reached again before its slot was filled as often as there are
generations. -/
theorem Keeps.get?_removed {capacity : Nat} {s : Slab α} {l : Ledger α} (k : s.Keeps capacity l)
    (hcap : capacity ≤ 2 ^ 32) {h : UInt64} (hremoved : (s.remove h).1.isSome)
    (calls : List (Call ε α β))
    (hfew : (s.follow l (.remove h :: calls)).2.filled (indexOf h) < l.filled (indexOf h) + 2 ^ 32) :
    (s.follow l (.remove h :: calls)).1.get? h = none := by
  have hrecord : l.record (.remove h : Call ε α β) (.removed (s.remove h).1) =
      l.put (indexOf h) none false := by
    obtain ⟨item, hitem⟩ := Option.isSome_iff_exists.mp hremoved
    rw [hitem]
    rfl
  have hlater : (l.put (indexOf h) none false).Later (s.follow l (.remove h :: calls)).2 := by
    rw [← hrecord]
    exact later_follow _ _ calls
  rw [(k.follow hcap (.remove h :: calls)).get?_eq]
  generalize (s.follow l (.remove h :: calls)).2 = l' at hlater hfew
  cases hreached : l'.reached h with
  | none => rfl
  | some item =>
    obtain ⟨-, hgeneration, hheld⟩ := reached_iff.mp hreached
    have hbefore : UInt32.ofNat (l.filled (indexOf h)) = generationOf h := by
      obtain ⟨old, hold⟩ := Option.isSome_iff_exists.mp hremoved
      rw [k.remove_eq] at hold
      exact (reached_iff.mp hold).2.1
    obtain ⟨hle, hempty⟩ := hlater (indexOf h)
    have hrefilled : l'.filled (indexOf h) ≠ l.filled (indexOf h) := by
      intro hsame
      rw [hempty hsame (by simp [Ledger.put])] at hheld
      cases hheld
    -- filled more often, but with the same generation
    have hcongr : l.filled (indexOf h) % 2 ^ 32 = l'.filled (indexOf h) % 2 ^ 32 := by
      rw [ofNat_eq_iff.mp hbefore, ofNat_eq_iff.mp hgeneration]
    change l.filled (indexOf h) ≤ l'.filled (indexOf h) at hle
    omega

/-! ## Closures that do not fail -/

/-- The call runs no closure that fails. -/
def Call.Total : Call ε α β → Prop
  | .look _ f => ∀ item, (f item).isOk
  | .change _ f => ∀ item, (f item).1.isOk
  | _ => True

/-- Where no closure fails no slot is broken. -/
theorem Keeps.sound_follow {capacity : Nat} {s : Slab α} {l : Ledger α} (k : s.Keeps capacity l)
    (hcap : capacity ≤ 2 ^ 32) (hsound : ∀ i, l.broken i = false) {calls : List (Call ε α β)}
    (htotal : ∀ call ∈ calls, call.Total) (i : Nat) : (s.follow l calls).2.broken i = false := by
  induction calls generalizing s l with
  | nil => exact hsound i
  | cons call calls ih =>
    rw [List.forall_mem_cons] at htotal
    refine ih (k.serve hcap call) (fun j => ?_) htotal.2
    have hput (j' : Nat) (content : Option α) : (l.put j' content false).broken j = false := by
      by_cases hj : j = j'
      · subst hj
        exact Function.update_self ..
      · exact (Function.update_of_ne hj ..).trans (hsound j)
    have hfirst := htotal.1
    cases call with
    | insert item =>
      simp only [Slab.serve]
      cases (s.insert item).1 <;> exact hsound j
    | look h f =>
      simp only [Slab.serve, Slab.look]
      rcases k.modify_cases h fun item => (f item, item) with
        ⟨-, hrun⟩ | ⟨old, -, ⟨answer, -, hrun⟩ | ⟨e, hfail, -⟩⟩
      · rw [hrun]
        exact hsound j
      · rw [hrun]
        exact hsound j
      · change f old = .error e at hfail
        have hok := hfirst old
        rw [hfail] at hok
        cases hok
    | change h f =>
      simp only [Slab.serve]
      rcases k.modify_cases h f with ⟨-, hrun⟩ | ⟨old, -, ⟨answer, -, hrun⟩ | ⟨e, hfail, -⟩⟩
      · rw [hrun]
        exact hsound j
      · rw [hrun]
        exact hput _ _
      · have hok := hfirst old
        rw [hfail] at hok
        cases hok
    | remove h =>
      simp only [Slab.serve]
      cases (s.remove h).1 with
      | none => exact hsound j
      | some item => exact hput _ _

/-! ## The map -/

/-- After every history the free list names each empty slot once and the count is the number of the
others. An item goes into some empty slot and leaves the others alone, unless there is none. Looks,
changes and removals with a handle made for the `k`-th filling of a slot reach what the slot holds if
it was filled `k` times, up to multiples of `2 ^ 32`, and no closure has failed on that; every handle is
of this form. What was removed is not reached again before as many fillings.

A closure that fails takes what it was run on out of reach, and nothing else: the slot keeps it, is
never emptied or filled again, and counts as filled for ever. Where no closure fails there is no such
slot. -/
theorem refines_map {capacity : Nat} (hcap : capacity ≤ 2 ^ 32) (calls : List (Call ε α β)) :
    let s := ((ofCapacity capacity : Slab α).follow .blank calls).1
    let l := ((ofCapacity capacity : Slab α).follow .blank calls).2
    (∀ i, s.slots[i]?.bind (fun slot => slot.value.item) = l.held i) ∧
    (s.free.get? = some s.free.value ∧ s.free.value.Nodup ∧
      ∀ i, i ∈ s.free.value ↔ i < capacity ∧ l.held i = none) ∧
    (s.count = (List.range capacity).countP fun i => (l.held i).isSome) ∧
    (∀ item, (s.insert item).1 = none ↔ ∀ i < capacity, (l.held i).isSome) ∧
    (∀ item h s', s.insert item = (some h, s') → ∃ i < capacity, l.held i = none ∧
      h = handle i (UInt32.ofNat (l.filled i + 1)) ∧ s'.get? h = some item ∧
      ∀ j, j ≠ i → s'.slots[j]? = s.slots[j]?) ∧
    (∀ i k, i < 2 ^ 32 → s.get? (handle i (UInt32.ofNat k)) =
      if l.broken i = false ∧ l.filled i ≡ k [MOD 2 ^ 32] then l.held i else none) ∧
    (∀ h, ∃ i k, i < 2 ^ 32 ∧ h = handle i (UInt32.ofNat k)) ∧
    (∀ h (f : α → Except ε β × α), (s.modify h f).1 =
      match s.get? h with
      | none => .ok none
      | some item => (f item).1.map some) ∧
    (∀ h (f : α → Except ε β), (s.look h f).1 =
      match s.get? h with
      | none => .ok none
      | some item => (f item).map some) ∧
    (∀ h, (s.remove h).1 = s.get? h) ∧
    (∀ h (more : List (Call ε α β)), (s.remove h).1.isSome →
      (s.follow l (.remove h :: more)).2.filled (indexOf h) < l.filled (indexOf h) + 2 ^ 32 →
      (s.follow l (.remove h :: more)).1.get? h = none ∧
        ((s.follow l (.remove h :: more)).1.remove h).1 = none) ∧
    (∀ i, l.broken i = true → (l.held i).isSome ∧
      ∀ more : List (Call ε α β), Ledger.Stays i l (s.follow l more).2) ∧
    ((∀ call ∈ calls, call.Total) → ∀ i, l.broken i = false) := by
  intro s l
  have k : s.Keeps capacity l := (keeps_ofCapacity capacity).follow hcap calls
  have hclosure : ∀ h (f : α → Except ε β × α), (s.modify h f).1 =
      match s.get? h with
      | none => .ok none
      | some item => (f item).1.map some := by
    intro h f
    rw [k.get?_eq]
    rcases k.modify_cases h f with ⟨hnone, hrun⟩ | ⟨old, hold, ⟨answer, hf, hrun⟩ | ⟨e, hf, hrun⟩⟩
    · rw [hrun, hnone]
    · rw [hrun, hold]
      dsimp only
      rw [hf]
      rfl
    · rw [hrun, hold]
      dsimp only
      rw [hf]
      rfl
  refine ⟨k.item_eq, ⟨?_, k.nodup_free, k.mem_free⟩, k.count_eq, k.insert_eq_none_iff, ?_, ?_, ?_,
    hclosure, fun h f => hclosure h fun item => (f item, item), ?_, ?_, ?_, ?_⟩
  · rw [k.free_eq]
    rfl
  · intro item h s' hrun
    rcases k.insert_cases item with ⟨-, hnone⟩ | ⟨i, free, -, hi, hheld, hsome⟩
    · rw [hnone] at hrun
      cases hrun
    · have hkeeps := k.insert (ε := ε) (β := β) hcap item
      rw [hsome] at hrun hkeeps
      cases hrun
      refine ⟨i, hi, hheld, rfl, ?_, fun j hj => ?_⟩
      · rw [hkeeps.get?_eq, Keeps.reached_iff]
        have hindex := indexOf_handle (Nat.lt_of_lt_of_le hi hcap) (UInt32.ofNat (l.filled i + 1))
        simp only [Ledger.record, Ledger.fill, hindex, Function.update_self, k.broken_eq_false hheld,
          generationOf_handle (Nat.lt_of_lt_of_le hi hcap), and_self]
      · change (s.slots.setIfInBounds i _)[j]? = _
        rw [k.slots_set hi, if_neg hj]
  · intro i n hi
    have hmod : l.filled i ≡ (UInt32.ofNat n).toNat [MOD 2 ^ 32] ↔ l.filled i ≡ n [MOD 2 ^ 32] := by
      rw [UInt32.toNat_ofNat', Nat.ModEq, Nat.ModEq, Nat.mod_mod]
    rw [k.get?_eq, Ledger.reached, indexOf_handle hi, generationOf_handle hi]
    exact if_congr (and_congr_right fun _ => hmod) rfl rfl
  · exact fun h => ⟨indexOf h, (generationOf h).toNat, indexOf_lt h, by
      rw [UInt32.ofNat_toNat, handle_indexOf]⟩
  · intro h
    rw [k.remove_eq, k.get?_eq]
  · intro h more hremoved hfew
    have hnone := k.get?_removed hcap hremoved more hfew
    refine ⟨hnone, ?_⟩
    have hkeeps := k.follow hcap (.remove h :: more)
    rw [hkeeps.remove_eq, ← hkeeps.get?_eq, hnone]
  · exact fun i hi => ⟨k.held_of_broken i hi, k.stays_follow hcap hi⟩
  · exact (keeps_ofCapacity capacity).sound_follow hcap fun _ => rfl

/-- One slot that was filled a second time, and one on whose item a change has failed. -/
theorem refines_map_refilled :
    let calls : List (Call Unit Nat Unit) :=
      [.insert 7, .remove (handle 0 1), .insert 8, .insert 9,
        .change (handle 1 1) fun n => (.error (), n + 1)]
    let s := ((ofCapacity 2 : Slab Nat).follow .blank calls).1
    2 ≤ 2 ^ 32 ∧ s.get? (handle 0 1) = none ∧ s.get? (handle 0 2) = some 8 ∧
      s.get? (handle 1 1) = none ∧ s.slots[1]?.bind (fun slot => slot.value.item) = some 10 ∧
      s.count = 2 ∧ (s.insert 11).1 = none := by
  intro calls s
  obtain ⟨hitem, -, hcount, hinsert, -, hget, -⟩ := refines_map (show 2 ≤ 2 ^ 32 by decide) calls
  exact ⟨by decide, hget 0 1 (by decide), hget 0 2 (by decide), hget 1 1 (by decide), hitem 1, hcount,
    (hinsert 11).mpr (by decide)⟩

/-- A handle does not always reach what its filling has put into a slot: a change that failed has taken
it out of reach. -/
theorem not_reached_after_failure :
    let calls : List (Call Unit Nat Unit) :=
      [.insert 7, .change (handle 0 1) fun n => (.error (), n + 1)]
    let s := ((ofCapacity 1 : Slab Nat).follow .blank calls).1
    let l := ((ofCapacity 1 : Slab Nat).follow .blank calls).2
    l.filled 0 = 1 ∧ l.held 0 = some 8 ∧ s.count = 1 ∧
      ((s.look (handle 0 1) (.ok : Nat → Except Unit Nat)).1 = .ok none ∧
        (s.modify (handle 0 1) fun n => ((.ok () : Except Unit Unit), n)).1 = .ok none ∧
        (s.remove (handle 0 1)).1 = none) ∧
      ¬∀ i k, i < 2 ^ 32 → s.get? (handle i (UInt32.ofNat k)) =
        if l.filled i ≡ k [MOD 2 ^ 32] then l.held i else none := by
  intro calls s l
  refine ⟨rfl, rfl, rfl, ⟨rfl, rfl, rfl⟩, fun hall => ?_⟩
  have hreached := hall 0 1 (by decide)
  cases hreached

end Slab

end RadioChannel
