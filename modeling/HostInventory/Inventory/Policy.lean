import HostInventory.Error
/-!
# Reporting plain RPM packages

A plain RPM collection does not say which package manager owns it, and the current schema has no
RPM kind, so its packages are reported as yum or as zypper packages. When exactly one of the two
tools is present on the host, that one wins; when both or neither are present, a policy decides.
By default both cases go to yum.
-/

namespace HostInventory

/-- The package kinds an RPM package may be reported as. -/
inductive RpmFlavor where
  | yum
  | zypper
deriving DecidableEq, Inhabited

/-- Which package managers were found on the host. -/
structure Tooling where
  yumExists : Bool := false
  zypperExists : Bool := false
deriving DecidableEq, Inhabited

/-- The flavor used when the tools present do not decide. -/
structure RpmPolicy where
  whenBoth : RpmFlavor := .yum
  whenNeither : RpmFlavor := .yum
deriving DecidableEq, Inhabited

/-- The flavor for a host: the only tool present, or the policy's choice. -/
def RpmPolicy.resolve (policy : RpmPolicy) (tooling : Tooling) : RpmFlavor :=
  if tooling.yumExists && tooling.zypperExists then policy.whenBoth
  else if tooling.yumExists then .yum
  else if tooling.zypperExists then .zypper
  else policy.whenNeither

namespace RpmFlavor

/-- The name of a flavor. -/
def name : RpmFlavor → String
  | .yum => "yum"
  | .zypper => "zypper"

/-- The flavor a configuration value names: the text `yum` or `zypper`. -/
def ofJson (v : Json) : Except InventoryError RpmFlavor :=
  match v with
  | .str t =>
    if t == Text.ofString "yum" then pure .yum
    else if t == Text.ofString "zypper" then pure .zypper
    else throw (.unknownFlavor v.toDatum)
  | _ => throw (.unknownFlavor v.toDatum)

end RpmFlavor

/-- A policy from a configuration object: `when_both` and `when_neither`, each `yum` when not
given. A value that is not an object has no members to look up and is refused. -/
def RpmPolicy.ofJson (v : Json) : Except InventoryError RpmPolicy := do
  if !(v matches .obj _) then throw (.noAttribute v.toDatum.kindName "get")
  let flavor (name : String) : Except InventoryError RpmFlavor :=
    match v.get? name with
    | some f => RpmFlavor.ofJson f
    | none => pure .yum
  let whenBoth ← flavor "when_both"
  let whenNeither ← flavor "when_neither"
  pure ⟨whenBoth, whenNeither⟩

/-- Tooling flags from an object: each flag is the truth of its member, false when absent. -/
def Tooling.ofMembers (v : Json) : Tooling :=
  let flag (name : String) : Bool := (v.get? name).map Json.truthy |>.getD false
  ⟨flag "yum_exists", flag "zypper_exists"⟩

example : ({ whenNeither := .zypper } : RpmPolicy).resolve {} = .zypper := by decide

end HostInventory
