import RadioChannel.Settings

/-!
# Panels

A uniform planar array: where its elements are and how strongly they radiate. Locations are in
wavelengths and relative to the first element, so that the phase of a plane wave at an element is
`2 pi` times the scalar product of direction and location.
-/

namespace RadioChannel

open Scalar

/-- The plane a panel lies in. -/
inductive Orientation where
  /-- In the `y`-`z` plane, facing along `x`. -/
  | x0
  /-- In the `x`-`y` plane, facing along `z`. -/
  | z0
deriving Repr, DecidableEq

namespace Orientation

/-- The name of an orientation. -/
def name : Orientation → String
  | x0 => "X0"
  | z0 => "Z0"

/-- The orientation with a name, in either case. -/
def ofName {R : Type} : String → Except (Fault R) Orientation
  | "X0" | "x0" => .ok x0
  | "Z0" | "z0" => .ok z0
  | other => .error (.unknownOrientation other)

end Orientation

/-- Columns and rows of a panel. -/
structure PanelSize where
  /-- Elements in a row. -/
  columns : Nat
  /-- Number of rows. -/
  rows : Nat
deriving Repr, DecidableEq

/-- How many elements a panel has. -/
def PanelSize.count (s : PanelSize) : Nat := s.columns * s.rows

/-- The count of elements as a machine word holds it. -/
def PanelSize.wordCount (s : PanelSize) : Nat := s.count % UInt64.size

/-- The size with sides of 32 bits. -/
def PanelSize.ofSides (columns rows : UInt32) : PanelSize :=
  ⟨columns.toNat, rows.toNat⟩

/-- A machine word holds the count of every size with sides of 32 bits. -/
theorem PanelSize.wordCount_ofSides (columns rows : UInt32) :
    (ofSides columns rows).wordCount = (ofSides columns rows).count := by
  have h : columns.toNat * rows.toNat < UInt32.size * UInt32.size :=
    Nat.mul_lt_mul'' columns.toNat_lt_size rows.toNat_lt_size
  exact Nat.mod_eq_of_lt h

/-- A uniform planar array. Element `i` stands in column `i % columns` of row `i / columns`. -/
structure Panel (R : Type) where
  /-- Columns and rows. -/
  size : PanelSize
  /-- Distance of columns in wavelengths. -/
  spacingH : R
  /-- Distance of rows in wavelengths. -/
  spacingV : R
  /-- The plane of the panel. -/
  orientation : Orientation
  /-- Gain of every element toward a zenith and an azimuth in radians. -/
  pattern : R → R → R

namespace Panel

variable {R : Type} [Scalar R]

/-- The pattern that radiates alike in all directions. -/
def isotropic : R → R → R := fun _ _ => 1

/-- An upright panel of isotropic elements at half a wavelength. -/
def ofSize (columns rows : Nat) : Panel R :=
  ⟨⟨columns, rows⟩, 0.5, 0.5, .x0, isotropic⟩

/-- The panel that settings describe, with isotropic elements. -/
def ofSettings (s : PanelSettings R) : Except (Fault R) (Panel R) := do
  let orientation ← Orientation.ofName s.orientation
  return ⟨.ofSides s.columns s.rows, s.spacingH, s.spacingV, orientation, isotropic⟩

/-- How many elements the panel has. -/
def elementCount (p : Panel R) : Nat := p.size.count

/-- Where the element in a column and a row stands. -/
def locationAt (p : Panel R) (column row : Nat) : Vec3 R :=
  let h := p.spacingH * Scalar.ofNat column
  let v := p.spacingV * Scalar.ofNat row
  match p.orientation with
  | .x0 => ⟨0, h, v⟩
  | .z0 => ⟨h, v, 0⟩

/-- Where an element stands. A panel without columns has no element to ask for. -/
def elementLocation (p : Panel R) (i : Nat) : Except (Fault R) (Vec3 R) :=
  if p.size.columns = 0 then .error (.breach .panelNotEmpty)
  else .ok (p.locationAt (i % p.size.columns) (i / p.size.columns))

/-- Where all elements stand, in order. -/
def elementLocations (p : Panel R) : List (Vec3 R) :=
  (List.range p.elementCount).map fun i => p.locationAt (i % p.size.columns) (i / p.size.columns)

/-- There are as many locations as elements. -/
@[simp] theorem length_elementLocations (p : Panel R) :
    p.elementLocations.length = p.elementCount := by
  simp [elementLocations]

end Panel

end RadioChannel
