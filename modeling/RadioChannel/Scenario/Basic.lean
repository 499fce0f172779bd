import RadioChannel.Fault

/-!
# Scenarios

The environments for which channel statistics are tabulated.
-/

namespace RadioChannel

/-- An environment. -/
inductive Scenario where
  /-- Rural macrocell. -/
  | ruralMacro
  /-- Urban macrocell. -/
  | urbanMacro
  /-- Urban street canyon. -/
  | streetCanyon
  /-- Indoor office with walls and corridors. -/
  | mixedOffice
  /-- Indoor open office. -/
  | openOffice
deriving Repr, DecidableEq

namespace Scenario

/-- The name of a scenario. -/
def name : Scenario → String
  | ruralMacro => "RMa"
  | urbanMacro => "UMa"
  | streetCanyon => "UMi-StreetCanyon"
  | mixedOffice => "InH-OfficeMixed"
  | openOffice => "InH-OfficeOpen"

/-- The scenario with a name. -/
def ofName {R : Type} : String → Except (Fault R) Scenario
  | "RMa" => .ok ruralMacro
  | "UMa" => .ok urbanMacro
  | "UMi-StreetCanyon" => .ok streetCanyon
  | "InH-OfficeMixed" => .ok mixedOffice
  | "InH-OfficeOpen" => .ok openOffice
  | other => .error (.unknownScenario other)

/-- Whether the scenario is indoors. -/
def isIndoor : Scenario → Bool
  | mixedOffice | openOffice => true
  | _ => false

/-- Every scenario is found under its name. -/
theorem ofName_name {R : Type} (s : Scenario) : (ofName s.name : Except (Fault R) Scenario) = .ok s := by
  cases s <;> rfl

end Scenario

end RadioChannel
