import RadioChannel.Proofs.Idling

/-!
# What an answer leaves behind

The answer to a request between two nodes is what their link holds from then on, seen from either end,
and the same request at the same time is answered by it again. Two conditions are hidden in this. A
realization for an array without elements has lost the size of the other array, and is refused when it
is asked for again. And the link of a node to itself holds nothing: what is stored for its one direction
is removed at once, as if it were left over from the other one.
-/

namespace RadioChannel

open Scalar

namespace Generator

variable {R : Type} [Scalar R] {g g' : Generator R} {now : Nanoseconds} {a b : Terminal R}
  {condition : Condition} {l : Link R}

/-- The link of a node to itself never holds a realization. -/
theorem Reachable.peek_self (hg : g.Reachable) (x : NodeId) : g.peek x x = none := by
  induction hg with
  | start h => simp [peek, cache_ofSettings h]
  | serve _ call ih =>
    cases call with
    | tune frequency => exact ih
    | look a b => exact ih
    | request now a b condition =>
      rename_i g _
      change ((channel now a b condition).run g).2.peek x x = none
      rcases hrun : (channel now a b condition).run g with ⟨e | l, g'⟩
      · obtain ⟨source, rfl⟩ := channel_error hrun
        exact ih
      · rcases channel_ok hrun with ⟨rfl, -⟩ | ⟨source, rfl, -⟩
        · exact ih
        · rw [peek_store]
          grind

/-- After a new draw between two nodes the same request finds its realization, and takes it unless the
receiver has no elements while the transmitter has some. -/
theorem channel_again_of_drew (hid : a.endpoint.id ≠ b.endpoint.id)
    {m : Realization R} {source : RandomSource R}
    (h : (channel now a b condition).run g =
      (.ok ⟨m, false⟩, g.store source a.endpoint.id b.endpoint.id m)) :
    (channel now a b condition).run (g.store source a.endpoint.id b.endpoint.id m) =
      (if 0 < b.panel.elementCount ∨ a.panel.elementCount = 0 then .ok ⟨m, false⟩
        else .error (.dimensionMismatch 0 a.panel.elementCount 0 0),
        g.store source a.endpoint.id b.endpoint.id m) := by
  have hpos : (a.endpoint.position == b.endpoint.position) = false := by
    by_contra hsame
    rw [channel_coincident g now a b condition (by simpa using hsame)] at h
    cases h
  obtain ⟨table, scale, profile, unwrapped, losses, -, hdrawn⟩ := drawn_of_store h
  have hserves : (g.store source a.endpoint.id b.endpoint.id m).serves now condition.los m = true := by
    rw [serves_iff, hdrawn.condition, hdrawn.generatedAt]
    exact ⟨rfl, Or.inr ((Nat.sub_self now).trans_le (Nat.zero_le _))⟩
  rcases channel_cases (g.store source a.endpoint.id b.endpoint.id m) now a b condition hpos with
    ⟨l, hl, -, hrun⟩ | ⟨hstale, -⟩
  · obtain rfl : ⟨m, false⟩ = l := Option.some.inj ((peek_store_self g source hid m).symm.trans hl)
    rw [hrun]
    exact congrArg (fun r => (r, _)) (checked_of_shaped hdrawn.shaped_tensor)
  · have hunserved := hstale _ (peek_store_self g source hid m)
    rw [hserves] at hunserved
    cases hunserved

/-- What is kept of an answer. Between two nodes the link holds it from then on, and both ends see the
same realization. The same request at the same time comes to the same answer and changes nothing,
unless the realization was drawn just now for a receiver without elements and a transmitter with some:
that is refused as if it had been drawn for other arrays. Between two places of one node the answer is
new, is not kept, and is never given again. -/
theorem Reachable.channel_again (hg : g.Reachable)
    (h : (channel now a b condition).run g = (.ok l, g')) :
    (a.endpoint.id ≠ b.endpoint.id →
      g'.peek a.endpoint.id b.endpoint.id = some l ∧
      g'.peek b.endpoint.id a.endpoint.id = some l.flip ∧
      (g.peek a.endpoint.id b.endpoint.id = some l ∨ 0 < b.panel.elementCount ∨
          a.panel.elementCount = 0 →
        (channel now a b condition).run g' = (.ok l, g')) ∧
      (g.peek a.endpoint.id b.endpoint.id ≠ some l → b.panel.elementCount = 0 →
          a.panel.elementCount ≠ 0 →
        (channel now a b condition).run g' =
          (.error (.dimensionMismatch 0 a.panel.elementCount 0 0), g'))) ∧
    (a.endpoint.id = b.endpoint.id →
      l.reverse = false ∧ l.realization.serial = g.drawn ∧
      g'.peek a.endpoint.id b.endpoint.id = none ∧
      ∀ (l' : Link R) (g'' : Generator R), (channel now a b condition).run g' = (.ok l', g'') →
        l'.realization.serial ≠ l.realization.serial) := by
  refine ⟨fun hid => ?_, fun hid => ?_⟩
  · rcases channel_ok h with ⟨rfl, hpeek, -⟩ | ⟨source, hg', hforward, hserial, -⟩
    · exact ⟨hpeek, hg.orderly.peek_swap hid hpeek, fun _ => h, fun hnew => absurd hpeek hnew⟩
    obtain ⟨m, reverse⟩ := l
    obtain rfl : reverse = false := hforward
    subst hg'
    have hpeek := peek_store_self g source hid m
    have hnew : g.peek a.endpoint.id b.endpoint.id ≠ some ⟨m, false⟩ := by
      intro hold
      exact (hg.orderly.peek_serial_lt hold).ne hserial
    have hagain := channel_again_of_drew hid h
    refine ⟨hpeek, ?_, fun hsizes => ?_, fun _ hrx htx => ?_⟩
    · exact (hg.orderly.store hserial).peek_swap hid hpeek
    · rw [hagain, if_pos (hsizes.resolve_left hnew)]
    · rw [hagain, if_neg (by omega)]
  · have hloop := hg.peek_self b.endpoint.id
    rcases channel_ok h with ⟨-, hpeek, -⟩ | ⟨source, rfl, hforward, hserial, -⟩
    · rw [hid, hloop] at hpeek
      cases hpeek
    have hgone : (g.store source a.endpoint.id b.endpoint.id l.realization).peek a.endpoint.id
        b.endpoint.id = none := by
      rw [peek_store, if_pos ⟨rfl, rfl⟩, if_pos hid]
    refine ⟨hforward, hserial, hgone, fun l' g'' hagain => ?_⟩
    rcases channel_ok hagain with ⟨-, hpeek, -⟩ | ⟨_, -, -, hserial', -⟩
    · rw [hgone] at hpeek
      cases hpeek
    · have hdrawn : l'.realization.serial = g.drawn + 1 := hserial'
      omega

/-! ## A tower and its likeness -/

/-- A mast on the field of the car, registered under the number of the tower. -/
noncomputable def likeness : Terminal ℝ := (Device.resting 1 ⟨40, 10, 1⟩ 2).terminal

/-- The tower asks for its link to the car and gets the same answer again. Asking for the link to the
place that has its own number it gets a new answer each time. -/
theorem channel_again_country :
    ∃ g : Generator ℝ, g.Reachable ∧
      (∃ m g', (channel 0 tower car ⟨true, false⟩).run g = (.ok ⟨m, false⟩, g') ∧
        g'.peek ⟨1⟩ ⟨2⟩ = some ⟨m, false⟩ ∧ g'.peek ⟨2⟩ ⟨1⟩ = some ⟨m, true⟩ ∧
        (channel 0 tower car ⟨true, false⟩).run g' = (.ok ⟨m, false⟩, g')) ∧
      ∃ m g', (channel 0 tower likeness ⟨true, false⟩).run g = (.ok ⟨m, false⟩, g') ∧
        g'.peek ⟨1⟩ ⟨1⟩ = none ∧
        ∃ m' g'', (channel 0 tower likeness ⟨true, false⟩).run g' = (.ok ⟨m', false⟩, g'') ∧
          m'.serial ≠ m.serial := by
  have hreach : (fresh .ruralMacro (28000000000 : ℝ) 0 1).Reachable := .start ofSettings_country
  have hcarrier : ((28000000000 : ℝ) == 0) = false := ExactScalars.numeral_beq_zero _
  obtain ⟨m, source, hfirst, -⟩ := channel_country
  obtain ⟨hapart, -⟩ := hreach.channel_again hfirst
  obtain ⟨hforward, hbackward, hagain, -⟩ := hapart (by decide)
  obtain ⟨n, source', hlike, -⟩ := channel_ruralMacro (g := fresh .ruralMacro (28000000000 : ℝ) 0 1)
    (a := tower) (b := likeness) rfl hcarrier 0 ⟨true, false⟩ apart_country fun l hl => by
      rw [peek_fresh] at hl
      cases hl
  obtain ⟨-, hsame⟩ := hreach.channel_again hlike
  obtain ⟨-, -, hgone, hnever⟩ := hsame rfl
  obtain ⟨n', source'', hnext, -⟩ := channel_ruralMacro
    (g := (fresh .ruralMacro (28000000000 : ℝ) 0 1).store source' tower.endpoint.id
      likeness.endpoint.id n) (a := tower) (b := likeness) rfl hcarrier 0 ⟨true, false⟩ apart_country
    fun l hl => by
      rw [hgone] at hl
      cases hl
  exact ⟨_, hreach, ⟨m, _, hfirst, hforward, hbackward, hagain (Or.inr (Or.inl (by decide)))⟩,
    n, _, hlike, hgone, n', _, hnext, hnever _ _ hnext⟩

end Generator

end RadioChannel
