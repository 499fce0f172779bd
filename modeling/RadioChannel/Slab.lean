/-!
# Slab

A store of fixed capacity that hands out handles. A handle holds the index of a slot in its low half
and the slot's generation in its high half. Every filling of a slot has a new generation, so that a
handle kept after its item was removed does not reach the next one.

Each slot has a lock of its own, and so has the list of empty slots. A closure works on an item while
the lock of its slot is held. If it fails there, the lock is poisoned and cannot be taken again: the
item is then out of reach for good, while its slot stays filled.
-/

namespace RadioChannel

/-! ## Locks -/

/-- A value behind a lock. -/
structure Guarded (α : Type) where
  /-- What the lock guards. -/
  value : α
  /-- Whether something failed while it held the lock. -/
  poisoned : Bool
deriving Repr

namespace Guarded

variable {α : Type}

/-- A value behind a lock that nothing has failed under. -/
def sound (a : α) : Guarded α := ⟨a, false⟩

/-- What a lock guards, if the lock can be taken. -/
def get? (g : Guarded α) : Option α := if g.poisoned then none else some g.value

/-- Changes what a lock guards, if the lock can be taken. -/
def change (f : α → α) (g : Guarded α) : Guarded α :=
  if g.poisoned then g else .sound (f g.value)

end Guarded

/-- A place for one item. -/
structure Slot (α : Type) where
  /-- How often the slot has been filled, modulo `2 ^ 32`. -/
  generation : UInt32
  /-- The item, if there is one. -/
  item : Option α
deriving Repr

/-- A store of items under handles. -/
structure Slab (α : Type) where
  /-- The slots. -/
  slots : Array (Guarded (Slot α))
  /-- The indices of empty slots; the first one is filled next. -/
  free : Guarded (List Nat)
  /-- How many slots are filled. -/
  live : Nat
deriving Repr

namespace Slab

variable {ε α β : Type}

/-! ## Handles -/

/-- The handle of a filling of a slot. -/
def handle (index : Nat) (generation : UInt32) : UInt64 :=
  (generation.toUInt64 <<< 32) ||| index.toUInt64

/-- The index of the slot a handle points to. -/
def indexOf (h : UInt64) : Nat := (h &&& 0xFFFFFFFF).toNat

/-- The generation a handle was made for. -/
def generationOf (h : UInt64) : UInt32 := (h >>> 32).toUInt32

/-! ## Operations -/

/-- An empty slab. Slots are filled in ascending order first. -/
def ofCapacity (capacity : Nat) : Slab α :=
  ⟨Array.replicate capacity (.sound ⟨0, none⟩), .sound (List.range capacity), 0⟩

/-- How many items the slab holds. -/
def count (s : Slab α) : Nat := s.live

/-- Stores an item in the slot that was emptied last. No handle comes back when all slots are filled,
or when a lock cannot be taken. An index that was taken from the list is then lost. -/
def insert (s : Slab α) (item : α) : Option UInt64 × Slab α :=
  match s.free.get? with
  | none | some [] => (none, s)
  | some (index :: free) =>
    let s := { s with free := .sound free }
    match s.slots[index]?.bind Guarded.get? with
    | none => (none, s)
    | some slot =>
      let generation := slot.generation + 1
      (some (handle index generation),
        { s with
          slots := s.slots.setIfInBounds index (.sound ⟨generation, some item⟩)
          live := s.live + 1 })

/-- The item a handle reaches. -/
def get? (s : Slab α) (h : UInt64) : Option α :=
  match s.slots[indexOf h]?.bind Guarded.get? with
  | none => none
  | some slot => if slot.generation = generationOf h then slot.item else none

/-- The slab with other content in the slot a handle points to, and with its lock poisoned or not. -/
def put (s : Slab α) (h : UInt64) (content : Option α) (poisoned : Bool) : Slab α :=
  { s with slots := s.slots.setIfInBounds (indexOf h) ⟨⟨generationOf h, content⟩, poisoned⟩ }

/-- Runs a closure that may change the item a handle reaches, and answers what it answers. What a
closure that fails has made of the item stays, behind a lock that is poisoned from then on. -/
def modify (s : Slab α) (h : UInt64) (f : α → Except ε β × α) : Except ε (Option β) × Slab α :=
  match s.get? h with
  | none => (.ok none, s)
  | some item =>
    match f item with
    | (.ok answer, item) => (.ok (some answer), s.put h (some item) false)
    | (.error e, item) => (.error e, s.put h (some item) true)

/-- Runs a closure that reads the item a handle reaches, and answers what it answers. -/
def look (s : Slab α) (h : UInt64) (f : α → Except ε β) : Except ε (Option β) × Slab α :=
  s.modify h fun item => (f item, item)

/-- Removes the item a handle reaches. Its slot is filled next, if the lock of the list of empty slots
can be taken. -/
def remove (s : Slab α) (h : UInt64) : Option α × Slab α :=
  match s.get? h with
  | none => (none, s)
  | some item =>
    (some item,
      { s.put h none false with
        free := s.free.change (indexOf h :: ·)
        live := s.live - 1 })

end Slab

end RadioChannel
