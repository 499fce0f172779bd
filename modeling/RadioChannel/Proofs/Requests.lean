import RadioChannel.Generator
import RadioChannel.Proofs.Drawing
import RadioChannel.Proofs.Keys

/-!
# What a request for a channel can come to

A request is refused, answered by the realization that serves the link, or answered by a new draw. A
new draw fails, leaving all but the random source as it was, or stores a realization.
-/

namespace RadioChannel

open Scalar

/-- A tensor is accepted for arrays of as many elements. -/
theorem Link.checkDimensions_ok {R : Type} {l : Link R} {rx tx : Nat} :
    l.checkDimensions rx tx = .ok () ↔ l.rxCount = rx ∧ l.txCount = tx := by
  obtain ⟨m, _ | _⟩ := l
  · simp [checkDimensions, Realization.checkDimensions, rxCount, txCount]
  · simp [checkDimensions, Realization.checkDimensions, rxCount, txCount, and_comm]

namespace Generator

variable {R : Type}

/-! ## What a request can come to -/

/-- The generator after a realization was drawn for the direction from `a` to `b`. -/
def store (g : Generator R) (source : RandomSource R) (a b : NodeId) (m : Realization R) :
    Generator R :=
  { g with
    source := source
    drawn := g.drawn + 1
    cache := (g.cache.insert (a.keyTo b) m).erase (b.keyTo a) }

/-- The answer of a realization that serves: the link, if the arrays are those it was drawn for. -/
def checked (l : Link R) (rx tx : Nat) : Except (Fault R) (Link R) :=
  if l.rxCount = rx ∧ l.txCount = tx then .ok l
  else .error (if l.reverse then
      .dimensionMismatch tx rx l.realization.tensor.rxCount l.realization.tensor.txCount
    else .dimensionMismatch rx tx l.realization.tensor.rxCount l.realization.tensor.txCount)

theorem checked_eq (l : Link R) (rx tx : Nat) :
    (match l.checkDimensions rx tx with
      | .ok () => .ok l
      | .error e => .error e) = checked l rx tx := by
  rcases l with ⟨m, _ | _⟩
  · by_cases h : m.tensor.rxCount = rx ∧ m.tensor.txCount = tx <;>
      simp [checked, Link.checkDimensions, Link.rxCount, Link.txCount, Realization.checkDimensions, h]
  · by_cases h : m.tensor.rxCount = tx ∧ m.tensor.txCount = rx <;>
      simp [checked, Link.checkDimensions, Link.rxCount, Link.txCount, Realization.checkDimensions,
        and_comm, h]

/-- A realization serves while its line of sight is the one asked for and its time is not up. An
empty period never ends, and time that ran backwards counts as no time. -/
theorem serves_iff {g : Generator R} {now : Nanoseconds} {los : Bool} {m : Realization R} :
    g.serves now los m = true ↔
      m.condition.los = los ∧ (g.updatePeriod = 0 ∨ now - m.generatedAt ≤ g.updatePeriod) := by
  simp [serves, expired]

variable [Scalar R]

/-- What the tables are asked for a request. -/
def linkState (g : Generator R) (a b : Terminal R) (condition : Condition) : LinkState R where
  los := condition.los
  o2i := condition.o2i
  upperHeight := (LinkGeometry.between a.endpoint.position b.endpoint.position).upperHeight
  lowerHeight := (LinkGeometry.between a.endpoint.position b.endpoint.position).lowerHeight
  distance := (LinkGeometry.between a.endpoint.position b.endpoint.position).distance
  frequency := g.frequency

/-- The context of a new realization from the table of its link. -/
def contextOf (g : Generator R) (now : Nanoseconds) (a b : Terminal R) (condition : Condition)
    (previous : Option (Realization R)) (table : ParameterTable R) : RealizationContext R where
  serial := g.drawn
  table := table
  condition := condition
  geometry := LinkGeometry.between a.endpoint.position b.endpoint.position
  rx := b.panel
  tx := a.panel
  frequency := g.frequency
  now := now
  blockage := g.blockage
  previous := previous

/-- There is a context wherever there are a carrier and a table. -/
theorem context_eq (g : Generator R) (now : Nanoseconds) (a b : Terminal R) (condition : Condition)
    (previous : Option (Realization R)) :
    g.context now a b condition previous =
      if g.frequency == 0 then .error .carrierNotSet
      else (ParameterTable.lookup g.scenario (g.linkState a b condition)).map
        (g.contextOf now a b condition previous) := by
  unfold context
  by_cases hf : (g.frequency == 0) = true
  · simp only [hf, if_true]
    rfl
  · simp only [hf, Bool.false_eq_true, if_false]
    change (ParameterTable.lookup g.scenario (g.linkState a b condition) >>= fun table =>
      pure (g.contextOf now a b condition previous table)) = _
    cases ParameterTable.lookup g.scenario (g.linkState a b condition) <;> rfl

theorem context_ok {g : Generator R} {now : Nanoseconds} {a b : Terminal R} {condition : Condition}
    {previous : Option (Realization R)} {c : RealizationContext R}
    (h : g.context now a b condition previous = .ok c) :
    ∃ table, ParameterTable.lookup g.scenario (g.linkState a b condition) = .ok table ∧
      c = g.contextOf now a b condition previous table := by
  rw [context_eq] at h
  split at h
  · cases h
  · cases ht : ParameterTable.lookup g.scenario (g.linkState a b condition) with
    | error e =>
      rw [ht] at h
      cases h
    | ok table =>
      rw [ht] at h
      cases h
      exact ⟨table, rfl, rfl⟩

theorem run_regenerate (g : Generator R) (now : Nanoseconds) (a b : Terminal R)
    (condition : Condition) (previous : Option (Realization R)) :
    (regenerate now a b condition previous).run g =
      match g.context now a b condition previous with
      | .error e => (.error e, g)
      | .ok c =>
        match c.draw.run g.source with
        | (.error e, source) => (.error e, { g with source := source })
        | (.ok m, source) => (.ok ⟨m, false⟩, g.store source a.endpoint.id b.endpoint.id m) := rfl

/-- A new draw fails and changes at most the random source, or stores a realization with the next
number. -/
theorem regenerate_cases (g : Generator R) (now : Nanoseconds) (a b : Terminal R)
    (condition : Condition) (previous : Option (Realization R)) :
    (∃ e source, (regenerate now a b condition previous).run g =
      (.error e, { g with source := source })) ∨
    (∃ m source, (regenerate now a b condition previous).run g =
        (.ok ⟨m, false⟩, g.store source a.endpoint.id b.endpoint.id m) ∧
      m.serial = g.drawn ∧ m.condition = condition ∧ m.generatedAt = now) := by
  rw [run_regenerate]
  cases hc : g.context now a b condition previous with
  | error e => exact Or.inl ⟨e, g.source, rfl⟩
  | ok c =>
    obtain ⟨table, -, rfl⟩ := context_ok hc
    rcases hd : (g.contextOf now a b condition previous table).draw.run g.source with
      ⟨e | m, source⟩
    · exact Or.inl ⟨e, source, by simp only [hd]⟩
    · obtain ⟨_, _, _, _, hm⟩ := RealizationContext.drawn_of_draw hd
      exact Or.inr ⟨m, source, by simp only [hd], hm.serial, hm.condition, hm.generatedAt⟩

variable (g : Generator R) (now : Nanoseconds) (a b : Terminal R) (condition : Condition)

theorem channel_coincident (hpos : (a.endpoint.position == b.endpoint.position) = true) :
    (channel now a b condition).run g = (.error (.coincident a.endpoint.id b.endpoint.id), g) := by
  unfold channel Action.run
  simp only [hpos, if_true]

/-- A request between two places is answered by the realization that serves the link, and by a new
draw where there is none. -/
theorem channel_cases (hpos : (a.endpoint.position == b.endpoint.position) = false) :
    (∃ l, g.peek a.endpoint.id b.endpoint.id = some l ∧
      g.serves now condition.los l.realization = true ∧
      (channel now a b condition).run g =
        (checked l b.panel.elementCount a.panel.elementCount, g)) ∨
    ((∀ l, g.peek a.endpoint.id b.endpoint.id = some l →
        g.serves now condition.los l.realization = false) ∧
      ∃ previous, (channel now a b condition).run g =
        (regenerate now a b condition previous).run g) := by
  unfold channel Action.run
  simp only [hpos, Bool.false_eq_true, if_false]
  cases hp : g.peek a.endpoint.id b.endpoint.id with
  | none => exact Or.inr ⟨by simp, none, rfl⟩
  | some l =>
    by_cases hs : g.serves now condition.los l.realization = true
    · refine Or.inl ⟨l, rfl, hs, (if_pos hs).trans ?_⟩
      exact congrArg (fun r => (r, g)) (checked_eq l _ _)
    · refine Or.inr ⟨?_, some l.realization, by simp [hs]⟩
      rintro _ ⟨⟩
      simpa using hs

/-! ## Links in the cache -/

/-- A request that is answered took the realization that serves the link, or stored a new one. -/
theorem channel_ok {g g' : Generator R} {now : Nanoseconds} {a b : Terminal R}
    {condition : Condition} {l : Link R} (h : (channel now a b condition).run g = (.ok l, g')) :
    (g' = g ∧ g.peek a.endpoint.id b.endpoint.id = some l ∧
      g.serves now condition.los l.realization = true) ∨
    (∃ source, g' = g.store source a.endpoint.id b.endpoint.id l.realization ∧
      l.reverse = false ∧ l.realization.serial = g.drawn ∧ l.realization.condition = condition ∧
      l.realization.generatedAt = now) := by
  by_cases hpos : (a.endpoint.position == b.endpoint.position) = true
  · rw [channel_coincident g now a b condition hpos] at h
    cases h
  rcases channel_cases g now a b condition (by simpa using hpos) with
    ⟨l', hpeek, hs, hrun⟩ | ⟨-, previous, hrun⟩
  · rw [hrun] at h
    obtain ⟨hl, rfl⟩ := Prod.mk.inj h
    rw [checked] at hl
    split at hl
    · cases hl
      exact Or.inl ⟨rfl, hpeek, hs⟩
    · cases hl
  · rcases regenerate_cases g now a b condition previous with
      ⟨e, source, hfail⟩ | ⟨m, source, hnew, hserial, hcondition, htime⟩
    · rw [hrun, hfail] at h
      cases h
    · rw [hrun, hnew] at h
      cases h
      exact Or.inr ⟨source, rfl, rfl, hserial, hcondition, htime⟩

/-- What a new draw answers was drawn and stored. -/
theorem regenerate_drew {g g' : Generator R} {now : Nanoseconds} {a b : Terminal R}
    {condition : Condition} {previous : Option (Realization R)} {l : Link R}
    (h : (regenerate now a b condition previous).run g = (.ok l, g')) :
    ∃ table source, ParameterTable.lookup g.scenario (g.linkState a b condition) = .ok table ∧
      (g.contextOf now a b condition previous table).draw.run g.source =
        (.ok l.realization, source) ∧
      l.reverse = false ∧ g' = g.store source a.endpoint.id b.endpoint.id l.realization := by
  rw [run_regenerate] at h
  cases hc : g.context now a b condition previous with
  | error e =>
    rw [hc] at h
    cases h
  | ok c =>
    obtain ⟨table, htable, rfl⟩ := context_ok hc
    rw [hc] at h
    dsimp only at h
    split at h
    · cases h
    · next m source hdraw =>
      cases h
      exact ⟨table, source, htable, hdraw, rfl, rfl⟩

/-- Where nothing serves, a new draw takes what the link holds for the last realization. -/
theorem run_channel_of_stale {g : Generator R} {now : Nanoseconds} {a b : Terminal R}
    {condition : Condition} (hpos : (a.endpoint.position == b.endpoint.position) = false)
    (hstale : ∀ l, g.peek a.endpoint.id b.endpoint.id = some l →
      g.serves now condition.los l.realization = false) :
    (channel now a b condition).run g =
      (regenerate now a b condition
        ((g.peek a.endpoint.id b.endpoint.id).map Link.realization)).run g := by
  unfold channel Action.run
  simp only [hpos, Bool.false_eq_true, if_false]
  cases hpeek : g.peek a.endpoint.id b.endpoint.id with
  | none => rfl
  | some l => simp only [hstale l hpeek, Bool.false_eq_true, if_false, Option.map_some]

/-- A request that is answered took what the link held, or stored a realization that was drawn with
that as the last one. -/
theorem channel_drew {g g' : Generator R} {now : Nanoseconds} {a b : Terminal R}
    {condition : Condition} {l : Link R} (h : (channel now a b condition).run g = (.ok l, g')) :
    (g' = g ∧ g.peek a.endpoint.id b.endpoint.id = some l) ∨
    ∃ table source, ParameterTable.lookup g.scenario (g.linkState a b condition) = .ok table ∧
      (g.contextOf now a b condition ((g.peek a.endpoint.id b.endpoint.id).map Link.realization)
        table).draw.run g.source = (.ok l.realization, source) ∧
      l.reverse = false ∧ g' = g.store source a.endpoint.id b.endpoint.id l.realization := by
  by_cases hpos : (a.endpoint.position == b.endpoint.position) = true
  · rw [channel_coincident g now a b condition hpos] at h
    cases h
  have hpos' : (a.endpoint.position == b.endpoint.position) = false := by simpa using hpos
  rcases channel_cases g now a b condition hpos' with ⟨l', hpeek, -, hrun⟩ | ⟨hstale, -⟩
  · rw [hrun, checked] at h
    split at h
    · cases h
      exact Or.inl ⟨rfl, hpeek⟩
    · cases h
  · rw [run_channel_of_stale hpos' hstale] at h
    exact Or.inr (regenerate_drew h)

/-- What a request left behind in the realization that it stored. -/
theorem drawn_of_store {g : Generator R} {now : Nanoseconds} {a b : Terminal R}
    {condition : Condition} {m : Realization R} {source : RandomSource R}
    (h : (channel now a b condition).run g =
      (.ok ⟨m, false⟩, g.store source a.endpoint.id b.endpoint.id m)) :
    ∃ table scale profile unwrapped losses,
      ParameterTable.lookup g.scenario (g.linkState a b condition) = .ok table ∧
      Drawn (g.contextOf now a b condition
        ((g.peek a.endpoint.id b.endpoint.id).map Link.realization) table) m scale profile unwrapped
        losses := by
  rcases channel_drew h with ⟨hsame, -⟩ | ⟨table, source', htable, hdraw, -⟩
  · have hdrawn : g.drawn + 1 = g.drawn := congrArg Generator.drawn hsame
    omega
  · obtain ⟨scale, profile, unwrapped, losses, hdrawn⟩ := RealizationContext.drawn_of_draw hdraw
    exact ⟨table, scale, profile, unwrapped, losses, htable, hdrawn⟩

/-- A request that fails changes at most the random source. -/
theorem channel_error {g g' : Generator R} {now : Nanoseconds} {a b : Terminal R}
    {condition : Condition} {e : Fault R} (h : (channel now a b condition).run g = (.error e, g')) :
    ∃ source, g' = { g with source := source } := by
  by_cases hpos : (a.endpoint.position == b.endpoint.position) = true
  · rw [channel_coincident g now a b condition hpos] at h
    cases h
    exact ⟨g.source, rfl⟩
  rcases channel_cases g now a b condition (by simpa using hpos) with
    ⟨l, -, -, hrun⟩ | ⟨-, previous, hrun⟩
  · rw [hrun] at h
    obtain ⟨-, rfl⟩ := Prod.mk.inj h
    exact ⟨g.source, rfl⟩
  · rcases regenerate_cases g now a b condition previous with
      ⟨e', source, hfail⟩ | ⟨m, source, hnew, -⟩
    · rw [hrun, hfail] at h
      cases h
      exact ⟨source, rfl⟩
    · rw [hrun, hnew] at h
      cases h

end Generator

/-- A link as seen from its other end. -/
def Link.flip {R : Type} (l : Link R) : Link R := ⟨l.realization, !l.reverse⟩

namespace Generator

variable {R : Type}

/-- After a realization was stored, its link holds it, not reversed for the end that transmitted. A
node's link to itself holds nothing. Other links hold what they held. -/
theorem peek_store (g : Generator R) (source : RandomSource R) (a b x y : NodeId)
    (m : Realization R) :
    (g.store source a b m).peek x y =
      if x = a ∧ y = b then (if a = b then none else some ⟨m, false⟩)
      else if x = b ∧ y = a then some ⟨m, true⟩
      else g.peek x y := by
  simp only [peek, store, Std.HashMap.getElem?_erase, Std.HashMap.getElem?_insert, beq_iff_eq,
    NodeId.keyTo_inj]
  by_cases hforward : x = a ∧ y = b
  · obtain ⟨rfl, rfl⟩ := hforward
    by_cases hxy : x = y
    · simp [hxy]
    · simp [hxy, Ne.symm hxy]
  by_cases hbackward : x = b ∧ y = a
  · obtain ⟨rfl, rfl⟩ := hbackward
    have hxy : x ≠ y := fun hxy => hforward ⟨hxy, hxy.symm⟩
    simp [hxy, hxy.symm]
  have h₁ : ¬(b = x ∧ a = y) := fun h => hbackward ⟨h.1.symm, h.2.symm⟩
  have h₂ : ¬(a = x ∧ b = y) := fun h => hforward ⟨h.1.symm, h.2.symm⟩
  have h₃ : ¬(b = y ∧ a = x) := fun h => h₂ h.symm
  have h₄ : ¬(a = y ∧ b = x) := fun h => h₁ h.symm
  simp [hforward, hbackward, h₁, h₂, h₃, h₄]

theorem peek_store_self (g : Generator R) (source : RandomSource R) {a b : NodeId} (hne : a ≠ b)
    (m : Realization R) : (g.store source a b m).peek a b = some ⟨m, false⟩ := by
  rw [peek_store, if_pos ⟨rfl, rfl⟩, if_neg hne]

/-- A cache in order: numbers that were given are behind the next one, and of each link at most one
direction is cached. -/
structure Orderly (g : Generator R) : Prop where
  serial_lt : ∀ (k : Nat) (m : Realization R), g.cache[k]? = some m → m.serial < g.drawn
  one_direction : ∀ a b : NodeId, a ≠ b →
    g.cache[a.keyTo b]? = none ∨ g.cache[b.keyTo a]? = none

theorem Orderly.of_empty {g : Generator R} (h : g.cache = ∅) : g.Orderly where
  serial_lt k m hm := by simp [h] at hm
  one_direction a b _ := by simp [h]

variable {g : Generator R}

theorem Orderly.store (h : g.Orderly) {source : RandomSource R} {a b : NodeId} {m : Realization R}
    (hm : m.serial = g.drawn) : (g.store source a b m).Orderly where
  serial_lt k m' hk := by
    have hk' : (if b.keyTo a == k then none
        else if a.keyTo b == k then some m else g.cache[k]?) = some m' := by
      rw [← Std.HashMap.getElem?_insert, ← Std.HashMap.getElem?_erase]
      exact hk
    change m'.serial < g.drawn + 1
    split at hk'
    · cases hk'
    · split at hk'
      · cases hk'
        omega
      · have := h.serial_lt k m' hk'
        omega
  one_direction x y hxy := by
    have hold := h.one_direction x y hxy
    simp only [Generator.store, Std.HashMap.getElem?_erase, Std.HashMap.getElem?_insert,
      beq_iff_eq, NodeId.keyTo_inj]
    grind

theorem Orderly.peek_serial_lt (h : g.Orderly) {a b : NodeId} {l : Link R}
    (hl : g.peek a b = some l) : l.realization.serial < g.drawn := by
  unfold peek at hl
  split at hl
  · cases hl
    exact h.serial_lt _ _ ‹_›
  · obtain ⟨m, hm, rfl⟩ := Option.map_eq_some_iff.mp hl
    exact h.serial_lt _ m hm

/-- From its two ends a link holds the same realization, in opposite directions. -/
theorem Orderly.peek_swap (h : g.Orderly) {a b : NodeId} (hab : a ≠ b) {l : Link R}
    (hl : g.peek a b = some l) : g.peek b a = some l.flip := by
  unfold peek at hl ⊢
  rcases h.one_direction a b hab with hnone | hnone
  · rw [hnone] at hl ⊢
    obtain ⟨m, hm, rfl⟩ := Option.map_eq_some_iff.mp hl
    simp [hm, Link.flip]
  · cases hm : g.cache[a.keyTo b]? with
    | none => simp [hm, hnone] at hl
    | some m =>
      rw [hm] at hl
      cases hl
      simp [hnone, Link.flip]

variable [Scalar R] {now : Nanoseconds} {a b : Terminal R} {condition : Condition}

/-- Requests keep the cache in order. -/
theorem Orderly.channel (h : g.Orderly) (now : Nanoseconds) (a b : Terminal R)
    (condition : Condition) : ((channel now a b condition).run g).2.Orderly := by
  rcases hrun : (Generator.channel now a b condition).run g with ⟨e | l, g'⟩
  · obtain ⟨source, rfl⟩ := channel_error hrun
    exact ⟨h.serial_lt, h.one_direction⟩
  · rcases channel_ok hrun with ⟨rfl, -⟩ | ⟨source, rfl, -, hserial, -⟩
    · exact h
    · exact h.store hserial

theorem drawn_le_channel : g.drawn ≤ ((channel now a b condition).run g).2.drawn := by
  rcases hrun : (channel now a b condition).run g with ⟨e | l, g'⟩
  · obtain ⟨source, rfl⟩ := channel_error hrun
    exact Nat.le_refl _
  · rcases channel_ok hrun with ⟨rfl, -⟩ | ⟨source, rfl, -⟩
    · exact Nat.le_refl _
    · exact Nat.le_succ _

/-- An old realization that a link holds after a request was there before. -/
theorem peek_of_channel {x y : NodeId} {l : Link R}
    (hl : ((channel now a b condition).run g).2.peek x y = some l)
    (hold : l.realization.serial < g.drawn) : g.peek x y = some l := by
  rcases hrun : (channel now a b condition).run g with ⟨e | l', g'⟩ <;> rw [hrun] at hl
  · obtain ⟨source, rfl⟩ := channel_error hrun
    exact hl
  rcases channel_ok hrun with ⟨rfl, -⟩ | ⟨source, rfl, -, hserial, -⟩
  · exact hl
  change (g.store source a.endpoint.id b.endpoint.id l'.realization).peek x y = some l at hl
  rw [peek_store] at hl
  split at hl
  · split at hl
    · cases hl
    · cases hl
      exact absurd hserial (Nat.ne_of_lt hold)
  · split at hl
    · cases hl
      exact absurd hserial (Nat.ne_of_lt hold)
    · exact hl

theorem peek_channel_ok {g' : Generator R} {l l' : Link R}
    (h : (channel now a b condition).run g = (.ok l, g'))
    (hl : g'.peek a.endpoint.id b.endpoint.id = some l') : l' = l := by
  rcases channel_ok h with ⟨rfl, hpeek, -⟩ | ⟨source, rfl, hforward, -⟩
  · exact Option.some.inj (hl.symm.trans hpeek)
  · rw [peek_store, if_pos ⟨rfl, rfl⟩] at hl
    split at hl
    · cases hl
    · obtain ⟨m, reverse⟩ := l
      cases hl
      exact congrArg (Link.mk m) hforward.symm

theorem Orderly.channel_ok_serial_lt (ho : g.Orderly) {g' : Generator R} {l : Link R}
    (h : (Generator.channel now a b condition).run g = (.ok l, g')) :
    l.realization.serial < g'.drawn := by
  rcases channel_ok h with ⟨rfl, hpeek, -⟩ | ⟨source, rfl, -, hserial, -⟩
  · exact ho.peek_serial_lt hpeek
  · exact hserial ▸ Nat.lt_succ_self _

/-- An answer with an old number was what the link held. -/
theorem peek_of_channel_ok {g' : Generator R} {l : Link R}
    (h : (channel now a b condition).run g = (.ok l, g')) (hold : l.realization.serial < g.drawn) :
    g.peek a.endpoint.id b.endpoint.id = some l := by
  rcases channel_ok h with ⟨rfl, hpeek, -⟩ | ⟨source, rfl, -, hserial, -⟩
  · exact hpeek
  · omega

/-- A request changes the random source, the count and the cache at most. -/
theorem channel_keeps (g : Generator R) (now : Nanoseconds) (a b : Terminal R) (condition : Condition) :
    ∃ source drawn cache, ((channel now a b condition).run g).2 =
      { g with source := source, drawn := drawn, cache := cache } := by
  rcases hrun : (channel now a b condition).run g with ⟨e | l, g'⟩
  · obtain ⟨source, rfl⟩ := channel_error hrun
    exact ⟨source, g.drawn, g.cache, rfl⟩
  · rcases channel_ok hrun with ⟨rfl, -⟩ | ⟨source, rfl, -⟩
    · exact ⟨g'.source, g'.drawn, g'.cache, rfl⟩
    · exact ⟨_, _, _, rfl⟩

theorem channel_frame : ((channel now a b condition).run g).2.frequency = g.frequency ∧
    ((channel now a b condition).run g).2.updatePeriod = g.updatePeriod := by
  obtain ⟨source, drawn, cache, h⟩ := channel_keeps g now a b condition
  rw [h]
  exact ⟨rfl, rfl⟩

/-- What a node's link to a peer holds stays, unless the node asks for it and it does not serve. -/
theorem peek_channel_of_serves {peer : NodeId} {l : Link R} (hne : a.endpoint.id ≠ b.endpoint.id)
    (hl : g.peek a.endpoint.id peer = some l)
    (hserves : peer = b.endpoint.id → g.serves now condition.los l.realization = true) :
    ((channel now a b condition).run g).2.peek a.endpoint.id peer = some l := by
  by_cases hpos : (a.endpoint.position == b.endpoint.position) = true
  · rw [channel_coincident g now a b condition hpos]
    exact hl
  rcases channel_cases g now a b condition (by simpa using hpos) with
    ⟨l', -, -, hrun⟩ | ⟨hnone, previous, hrun⟩
  · rw [hrun]
    exact hl
  have hpeer : peer ≠ b.endpoint.id := by
    rintro rfl
    rw [hnone l hl] at hserves
    exact absurd (hserves rfl) Bool.false_ne_true
  rcases regenerate_cases g now a b condition previous with
    ⟨e, source, hfail⟩ | ⟨m, source, hnew, -⟩
  · rw [hrun, hfail]
    exact hl
  · rw [hrun, hnew, peek_store, if_neg fun h => hpeer h.2, if_neg fun h => hne h.1]
    exact hl

/-! ## Plain hosts -/

/-- A generator without blockage that has drawn nothing. -/
def fresh (scenario : Scenario) (frequency : R) (updatePeriod : Nanoseconds) (seed : UInt64) :
    Generator R :=
  ⟨scenario, frequency, updatePeriod, none, .ofSeed seed, 0, ∅⟩

omit [Scalar R] in
theorem peek_fresh (scenario : Scenario) (frequency : R) (updatePeriod : Nanoseconds) (seed : UInt64)
    (a b : NodeId) : (fresh scenario frequency updatePeriod seed).peek a b = none := by
  simp [peek, fresh]

end Generator

/-- A device at rest with a row of antennas. -/
def Device.resting {R : Type} [Scalar R] (id : UInt32) (position : Vec3 R) (columns : Nat) :
    Device R :=
  ⟨⟨⟨id⟩, position, .zero⟩, .ofPanel (.ofSize columns 1)⟩

end RadioChannel
