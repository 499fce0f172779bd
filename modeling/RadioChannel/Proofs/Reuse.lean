import RadioChannel.Proofs.Idling
import Mathlib.Data.Sym.Sym2

/-!
# When a realization is reused

A generator's cache mirrors the births of realizations: it holds the youngest one of every link, under
the key of the direction it was drawn for, and nothing else. A request is answered by that realization
while it serves, and else by a new one that takes its place.
-/

namespace RadioChannel

open Scalar

/-- A realization that was drawn, and the direction of the link it was drawn for. -/
structure Birth (R : Type) where
  /-- The node that transmits. -/
  tx : NodeId
  /-- The node that receives. -/
  rx : NodeId
  /-- The realization. -/
  realization : Realization R

namespace Birth

variable {R : Type}

/-- The link without its direction. -/
def link (b : Birth R) : Sym2 NodeId := s(b.tx, b.rx)

/-- The youngest of the births of a link. Births are listed youngest first. -/
def latest (births : List (Birth R)) (a b : NodeId) : Option (Birth R) :=
  births.find? fun birth => birth.link = s(a, b)

theorem latest_cons (birth : Birth R) (births : List (Birth R)) (a b : NodeId) :
    latest (birth :: births) a b = if birth.link = s(a, b) then some birth else latest births a b := by
  by_cases h : birth.link = s(a, b) <;> simp [latest, h]

theorem latest_comm (births : List (Birth R)) (a b : NodeId) :
    latest births a b = latest births b a := by
  unfold latest
  rw [Sym2.eq_swap]

theorem direction_of_latest {births : List (Birth R)} {a b : NodeId} {birth : Birth R}
    (h : latest births a b = some birth) :
    (birth.tx = a ∧ birth.rx = b) ∨ (birth.tx = b ∧ birth.rx = a) := by
  have hlink := List.find?_some h
  simpa [link] using hlink

theorem latest_isSome_iff {births : List (Birth R)} {a b : NodeId} :
    (latest births a b).isSome ↔ s(a, b) ∈ births.map link := by
  simp [latest, List.find?_isSome]

end Birth

namespace Generator

variable {R : Type}

/-! ## The mirror -/

/-- The cache mirrors a list of births: it holds the youngest one of each link, under the key of the
direction it was drawn for. -/
structure Mirrors (g : Generator R) (births : List (Birth R)) : Prop where
  cached : ∀ a b, a ≠ b → g.cache[a.keyTo b]? = (Birth.latest births a b).bind fun birth =>
    if birth.tx = a then some birth.realization else none
  size : g.cache.size = (births.map Birth.link).toFinset.card
  serial_lt : ∀ birth ∈ births, birth.realization.serial < g.drawn

theorem Mirrors.nil {g : Generator R} (h : g.cache = ∅) : g.Mirrors [] where
  cached a b _ := by simp [h, Birth.latest]
  size := by simp [h]
  serial_lt := by simp

variable {g : Generator R} {births : List (Birth R)}

/-- Whatever leaves the cache and the count alone keeps the mirror. -/
theorem Mirrors.congr (h : g.Mirrors births) {g' : Generator R} (hcache : g'.cache = g.cache)
    (hdrawn : g'.drawn = g.drawn) : g'.Mirrors births where
  cached := by
    rw [hcache]
    exact h.cached
  size := by
    rw [hcache]
    exact h.size
  serial_lt := by
    rw [hdrawn]
    exact h.serial_lt

/-- Seen from one end, a link holds its youngest realization, reversed if that end received. -/
theorem Mirrors.peek_eq (h : g.Mirrors births) {a b : NodeId} (hab : a ≠ b) :
    g.peek a b = (Birth.latest births a b).map fun birth =>
      ⟨birth.realization, decide (birth.tx = b)⟩ := by
  rw [peek, h.cached a b hab, h.cached b a hab.symm, Birth.latest_comm births b a]
  cases hl : Birth.latest births a b with
  | none => rfl
  | some birth =>
    rcases Birth.direction_of_latest hl with ⟨ht, hr⟩ | ⟨ht, hr⟩
    · simp [ht, hab]
    · simp [ht, hab.symm]

theorem Mirrors.one_direction (h : g.Mirrors births) {a b : NodeId} (hab : a ≠ b) :
    g.cache[a.keyTo b]? = none ∨ g.cache[b.keyTo a]? = none := by
  rw [h.cached a b hab, h.cached b a hab.symm, Birth.latest_comm births b a]
  cases hl : Birth.latest births a b with
  | none => exact Or.inl rfl
  | some birth =>
    by_cases ht : birth.tx = a
    · right
      simp [ht, hab]
    · left
      simp [ht]

theorem Mirrors.mem_cache_iff (h : g.Mirrors births) {a b : NodeId} (hab : a ≠ b) :
    a.keyTo b ∈ g.cache ↔ ∃ birth, Birth.latest births a b = some birth ∧ birth.tx = a := by
  rw [Std.HashMap.mem_iff_isSome_getElem?, h.cached a b hab]
  cases Birth.latest births a b with
  | none => simp
  | some birth => by_cases ht : birth.tx = a <;> simp [ht]

variable {source : RandomSource R} {a b : NodeId} {m : Realization R}

theorem Mirrors.size_store (h : g.Mirrors births) (hab : a ≠ b) :
    (g.store source a b m).cache.size =
      (((⟨a, b, m⟩ : Birth R) :: births).map Birth.link).toFinset.card := by
  have hmem : b.keyTo a ∈ g.cache.insert (a.keyTo b) m ↔ b.keyTo a ∈ g.cache := by
    simp [Std.HashMap.mem_insert, hab]
  have hcard : (((⟨a, b, m⟩ : Birth R) :: births).map Birth.link).toFinset.card =
      if s(a, b) ∈ births.map Birth.link then g.cache.size else g.cache.size + 1 := by
    rw [h.size, List.map_cons, List.toFinset_cons, Finset.card_insert_eq_ite]
    simp [Birth.link]
  rw [hcard, store, Std.HashMap.size_erase, Std.HashMap.size_insert]
  simp only [← Birth.latest_isSome_iff, hmem, h.mem_cache_iff hab, h.mem_cache_iff hab.symm,
    Birth.latest_comm births b a]
  cases hl : Birth.latest births a b with
  | none => simp
  | some birth =>
    rcases Birth.direction_of_latest hl with ⟨ht, -⟩ | ⟨ht, -⟩
    · simp [ht, hab]
    · simp [ht, hab.symm]

theorem Mirrors.store (h : g.Mirrors births) (hab : a ≠ b) (hm : m.serial = g.drawn) :
    (g.store source a b m).Mirrors (⟨a, b, m⟩ :: births) where
  cached x y hxy := by
    rw [Birth.latest_cons, Generator.store, Std.HashMap.getElem?_erase, Std.HashMap.getElem?_insert]
    simp only [beq_iff_eq, NodeId.keyTo_inj, Birth.link, Sym2.eq_iff]
    by_cases hforward : a = x ∧ b = y
    · obtain ⟨rfl, rfl⟩ := hforward
      simp [hxy]
    by_cases hbackward : b = x ∧ a = y
    · obtain ⟨rfl, rfl⟩ := hbackward
      simp [hxy.symm]
    have hother : ¬(a = y ∧ b = x) := fun hc => hbackward hc.symm
    simp only [hforward, hbackward, hother, or_false, if_false]
    exact h.cached x y hxy
  size := h.size_store hab
  serial_lt := by
    intro birth hbirth
    rcases List.mem_cons.mp hbirth with rfl | hmem
    · simp [Generator.store, hm]
    · exact Nat.lt_succ_of_lt (h.serial_lt birth hmem)

/-! ## Histories -/

section History

variable [Scalar R]

/-- The births that a request brings about. -/
def born (g : Generator R) (now : Nanoseconds) (a b : Terminal R) (condition : Condition) :
    List (Birth R) :=
  match (channel now a b condition).run g with
  | (.ok l, g') => if g'.drawn = g.drawn then [] else [⟨a.endpoint.id, b.endpoint.id, l.realization⟩]
  | (.error _, _) => []

/-- The generators that hosts can bring about, each with its births. A host asks for channels between
distinct nodes, at any times in any order, and moves the carrier; looking at a link changes nothing. -/
inductive History : Generator R → List (Birth R) → Prop where
  /-- Nothing has been drawn. -/
  | start {g : Generator R} (h : g.cache = ∅) : History g []
  /-- The carrier is moved. -/
  | tune {g : Generator R} {births : List (Birth R)} (frequency : R) :
      History g births → History (g.setFrequency frequency) births
  /-- A channel is asked for. -/
  | request {g : Generator R} {births : List (Birth R)} (now : Nanoseconds) (a b : Terminal R)
      (condition : Condition) (hid : a.endpoint.id ≠ b.endpoint.id) :
      History g births →
      History ((channel now a b condition).run g).2 (g.born now a b condition ++ births)

/-- A request brings about nothing and leaves the cache alone, or stores one realization. -/
theorem born_cases (g : Generator R) (now : Nanoseconds) (a b : Terminal R)
    (condition : Condition) :
    (g.born now a b condition = [] ∧ ((channel now a b condition).run g).2.cache = g.cache ∧
      ((channel now a b condition).run g).2.drawn = g.drawn) ∨
    (∃ m source, g.born now a b condition = [⟨a.endpoint.id, b.endpoint.id, m⟩] ∧
      (channel now a b condition).run g =
        (.ok ⟨m, false⟩, g.store source a.endpoint.id b.endpoint.id m) ∧ m.serial = g.drawn) := by
  by_cases hpos : (a.endpoint.position == b.endpoint.position) = true
  · left
    simp [born, channel_coincident g now a b condition hpos]
  rcases channel_cases g now a b condition (by simpa using hpos) with
    ⟨l, -, -, hrun⟩ | ⟨-, previous, hrun⟩
  · left
    rw [born, hrun]
    cases checked l b.panel.elementCount a.panel.elementCount <;> simp
  · rcases regenerate_cases g now a b condition previous with
      ⟨e, source, hfail⟩ | ⟨m, source, hnew, hserial, -⟩
    · left
      simp [born, hrun, hfail]
    · right
      exact ⟨m, source, by simp [born, hrun, hnew, store], by rw [hrun, hnew], hserial⟩

/-- In every history the cache mirrors the births. -/
theorem History.mirrors {g : Generator R} {births : List (Birth R)} (h : History g births) :
    g.Mirrors births := by
  induction h with
  | start h => exact Mirrors.nil h
  | tune frequency _ ih => exact ih.congr rfl rfl
  | request now a b condition hid _ ih =>
    rename_i g births _
    rcases born_cases g now a b condition with ⟨hborn, hcache, hdrawn⟩ | ⟨m, source, hborn, hrun, hm⟩
    · rw [hborn]
      exact ih.congr hcache hdrawn
    · rw [hborn, hrun]
      exact ih.store hid hm

/-- Reuse and reciprocity. The youngest realization of a link answers every request that it serves,
from both ends, reversed for the end that received when it was drawn, and nothing is drawn then. Every
other request fails and leaves the cache alone, or is answered by a new realization, not reversed,
that is the link's from then on. One direction of a link is cached at most, and as many links are
cached as realizations were ever drawn for. -/
theorem channel_reuse {g : Generator R} {births : List (Birth R)} (h : History g births)
    (now : Nanoseconds) (a b : Terminal R) (condition : Condition)
    (hid : a.endpoint.id ≠ b.endpoint.id)
    (hpos : (a.endpoint.position == b.endpoint.position) = false) :
    (∀ birth, Birth.latest births a.endpoint.id b.endpoint.id = some birth →
      birth.realization.condition.los = condition.los →
      (g.updatePeriod = 0 ∨ now - birth.realization.generatedAt ≤ g.updatePeriod) →
      (channel now a b condition).run g =
        (checked ⟨birth.realization, decide (birth.tx = b.endpoint.id)⟩ b.panel.elementCount
          a.panel.elementCount, g)) ∧
    ((∀ birth, Birth.latest births a.endpoint.id b.endpoint.id = some birth →
        ¬(birth.realization.condition.los = condition.los ∧
          (g.updatePeriod = 0 ∨ now - birth.realization.generatedAt ≤ g.updatePeriod))) →
      (∃ e, ((channel now a b condition).run g).1 = .error e ∧
        ((channel now a b condition).run g).2.cache = g.cache ∧ g.born now a b condition = []) ∨
      (∃ m, ((channel now a b condition).run g).1 = .ok ⟨m, false⟩ ∧
        m.generatedAt = now ∧ m.condition = condition ∧
        (∀ birth ∈ births, birth.realization.serial ≠ m.serial) ∧
        g.born now a b condition = [⟨a.endpoint.id, b.endpoint.id, m⟩] ∧
        ((channel now a b condition).run g).2.peek a.endpoint.id b.endpoint.id =
          some ⟨m, false⟩ ∧
        ((channel now a b condition).run g).2.peek b.endpoint.id a.endpoint.id =
          some ⟨m, true⟩)) ∧
    (∀ x y : NodeId, x ≠ y → g.peek x y = (Birth.latest births x y).map fun birth =>
      ⟨birth.realization, decide (birth.tx = y)⟩) ∧
    (∀ x y : NodeId, x ≠ y → g.cache[x.keyTo y]? = none ∨ g.cache[y.keyTo x]? = none) ∧
    g.cachedLinks = (births.map Birth.link).toFinset.card := by
  have hm := h.mirrors
  have hpeek := hm.peek_eq hid
  refine ⟨fun birth hlatest hlos hperiod => ?_, fun hnone => ?_, fun x y => hm.peek_eq,
    fun x y => hm.one_direction, hm.size⟩
  · rw [hlatest] at hpeek
    rcases channel_cases g now a b condition hpos with ⟨l, hl, -, hrun⟩ | ⟨hstale, -⟩
    · obtain rfl : ⟨birth.realization, decide (birth.tx = b.endpoint.id)⟩ = l :=
        Option.some.inj (hpeek.symm.trans hl)
      exact hrun
    · have hs : g.serves now condition.los birth.realization = true :=
        serves_iff.mpr ⟨hlos, hperiod⟩
      exact absurd hs (by simp [hstale _ hpeek])
  · rcases channel_cases g now a b condition hpos with ⟨l, hl, hs, -⟩ | ⟨-, previous, hrun⟩
    · rw [hpeek] at hl
      obtain ⟨birth, hlatest, rfl⟩ := Option.map_eq_some_iff.mp hl
      exact absurd (serves_iff.mp hs) (hnone birth hlatest)
    · rcases regenerate_cases g now a b condition previous with
        ⟨e, source, hfail⟩ | ⟨m, source, hnew, hserial, hcondition, htime⟩
      · left
        exact ⟨e, by rw [hrun, hfail], by rw [hrun, hfail], by simp [born, hrun, hfail]⟩
      · right
        have hborn : g.born now a b condition = [⟨a.endpoint.id, b.endpoint.id, m⟩] := by
          simp [born, hrun, hnew, store]
        refine ⟨m, by rw [hrun, hnew], htime, hcondition, fun birth hbirth => ?_, hborn, ?_, ?_⟩
        · have hlt := hm.serial_lt birth hbirth
          omega
        · rw [hrun, hnew, peek_store]
          simp [hid]
        · rw [hrun, hnew, peek_store]
          simp [hid.symm]

end History

/-! ## Both ends of one link -/

/-- A generator in the country whose realizations serve for a while. -/
noncomputable def lasting : Generator ℝ := fresh .ruralMacro 28000000000 1000 1

theorem apart_car : (car.endpoint.position == tower.endpoint.position) = false := by
  change ((40 : ℝ) == 0 && (10 : ℝ) == 0 && (1 : ℝ) == 25) = false
  rw [ExactScalars.numeral_beq_zero]
  rfl

/-- A tower asks for its link to a car, and that draws a realization. -/
theorem born_lasting : ∃ m source,
    (channel 5 tower car ⟨true, false⟩).run lasting =
      (.ok ⟨m, false⟩, lasting.store source tower.endpoint.id car.endpoint.id m) ∧
    lasting.born 5 tower car ⟨true, false⟩ = [⟨tower.endpoint.id, car.endpoint.id, m⟩] ∧
    m.generatedAt = 5 ∧ m.condition = ⟨true, false⟩ ∧
    checked ⟨m, true⟩ tower.panel.elementCount car.panel.elementCount = .ok ⟨m, true⟩ := by
  obtain ⟨m, source, hrun, hcomplete⟩ := channel_ruralMacro (g := lasting) rfl
    (ExactScalars.numeral_beq_zero _) 5 ⟨true, false⟩ apart_country fun l hl => by
      rw [lasting, peek_fresh] at hl
      cases hl
  rcases channel_ok hrun with ⟨-, hheld, -⟩ | ⟨-, -, -, -, hcondition, htime⟩
  · rw [lasting, peek_fresh] at hheld
    cases hheld
  · have hwidth : m.tensor.txCount = tower.panel.elementCount := hcomplete.tensor.txCount_eq.trans rfl
    exact ⟨m, source, hrun, by simp [born, hrun, store], htime, hcondition,
      if_pos ⟨hwidth, hcomplete.tensor.rows⟩⟩

/-- A car asks for the link that a tower has asked for before. Soon afterwards it gets the tower's
realization, and later on a new one. -/
theorem channel_reuse_from_car : ∃ (m m' : Realization ℝ) (g g' : Generator ℝ),
    let births : List (Birth ℝ) := [⟨tower.endpoint.id, car.endpoint.id, m⟩]
    (channel 5 tower car ⟨true, false⟩).run lasting = (.ok ⟨m, false⟩, g) ∧
    lasting.born 5 tower car ⟨true, false⟩ = births ∧ History g births ∧
    car.endpoint.id ≠ tower.endpoint.id ∧
    (car.endpoint.position == tower.endpoint.position) = false ∧
    (channel 7 car tower ⟨true, true⟩).run g = (.ok ⟨m, true⟩, g) ∧
    (channel 2000 car tower ⟨true, true⟩).run g = (.ok ⟨m', false⟩, g') ∧
    m'.generatedAt = 2000 ∧ m'.condition = ⟨true, true⟩ ∧ m'.serial ≠ m.serial ∧
    g.cachedLinks = 1 := by
  obtain ⟨m, source, hfirst, hborn, htime, hcondition, hchecked⟩ := born_lasting
  obtain ⟨g, hg⟩ : ∃ g, g = lasting.store source tower.endpoint.id car.endpoint.id m := ⟨_, rfl⟩
  rw [← hg] at hfirst
  let births : List (Birth ℝ) := [⟨tower.endpoint.id, car.endpoint.id, m⟩]
  have hhistory : History g births := by
    have hrequest := History.request 5 tower car ⟨true, false⟩ (by decide)
      (History.start (g := lasting) rfl)
    rwa [hborn, hfirst] at hrequest
  have hlatest : Birth.latest births car.endpoint.id tower.endpoint.id =
      some ⟨tower.endpoint.id, car.endpoint.id, m⟩ := by
    rw [Birth.latest_comm]
    exact (Birth.latest_cons _ _ _ _).trans (if_pos rfl)
  have hperiod : g.updatePeriod = 1000 := by rw [hg]; rfl
  -- soon afterwards
  obtain ⟨hsoon, -, -, -, hlinks⟩ :=
    channel_reuse hhistory 7 car tower ⟨true, true⟩ (by decide) apart_car
  have hreused := hsoon _ hlatest (by rw [hcondition]) (Or.inr (by rw [htime, hperiod]; decide))
  -- and later on
  obtain ⟨-, hlate, hpeek, -⟩ :=
    channel_reuse hhistory 2000 car tower ⟨true, true⟩ (by decide) apart_car
  have hstale : ∀ birth, Birth.latest births car.endpoint.id tower.endpoint.id = some birth →
      ¬(birth.realization.condition.los = true ∧
        (g.updatePeriod = 0 ∨ 2000 - birth.realization.generatedAt ≤ g.updatePeriod)) := by
    rintro birth hbirth ⟨-, hserves⟩
    obtain rfl := Option.some.inj (hlatest.symm.trans hbirth)
    rw [hperiod, htime] at hserves
    exact absurd hserves (by decide)
  obtain ⟨m', source', hagain, -⟩ := channel_ruralMacro (g := g) (by rw [hg]; rfl)
    (by rw [hg]; exact ExactScalars.numeral_beq_zero _) 2000 ⟨true, true⟩ apart_car fun l hl => by
      rw [hpeek _ _ (by decide), hlatest] at hl
      obtain rfl := Option.some.inj hl
      exact Bool.eq_false_iff.mpr fun hserves => hstale _ hlatest (serves_iff.mp hserves)
  obtain ⟨e, he, -⟩ | ⟨n, hn, htime', hcondition', hserial, -⟩ := hlate hstale
  · rw [hagain] at he
    cases he
  rw [hagain] at hn
  obtain rfl : m' = n := congrArg Link.realization (Except.ok.inj hn)
  refine ⟨m, m', g, _, hfirst, hborn, hhistory, by decide, apart_car, ?_, hagain, htime', hcondition',
    (hserial _ List.mem_cons_self).symm, hlinks⟩
  rw [hreused]
  exact congrArg (·, g) hchecked

end Generator

end RadioChannel
