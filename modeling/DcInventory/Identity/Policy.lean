import DcInventory.Schema.Enums

/-
  This file defines which capabilities each role holds.

  Key definitions include:
    * `capabilitiesForRole`
    * `hasCapability`
    * `custodyRoles`
-/

inductive Capability where
| catalogRead
| catalogManage
| catalogArchive
| catalogDeleteUnused
| inventoryRead
| inventoryOperate
| inventoryAdmin
| movementReadOwn
| movementReadAll
| procurementRead
| procurementCreate
| procurementManage
| procurementAccept
| accessManageUsers
| accessAssignStandardRoles
| accessAssignAdmin
deriving DecidableEq, Repr

def engineerCapabilities : List Capability :=
  [.catalogRead, .inventoryRead, .inventoryOperate,
    .movementReadOwn]

/- `ROLE_CAPABILITIES[role]` -/
def capabilitiesForRole : UserRole → List Capability
| .engineer => engineerCapabilities
| .seniorEngineer => engineerCapabilities ++
    [.catalogManage, .catalogArchive, .catalogDeleteUnused,
      .movementReadAll, .procurementRead, .procurementAccept]
| .manager =>
    [.catalogRead, .inventoryRead, .procurementRead,
      .procurementManage]
| .admin =>
    [.catalogRead, .catalogManage, .catalogArchive,
      .catalogDeleteUnused, .inventoryRead, .inventoryOperate,
      .inventoryAdmin, .movementReadAll, .procurementRead,
      .procurementCreate, .procurementAccept,
      .accessManageUsers, .accessAssignStandardRoles]
| .owner =>
    [.catalogRead, .catalogManage, .catalogArchive,
      .catalogDeleteUnused, .inventoryRead, .inventoryOperate,
      .inventoryAdmin, .movementReadAll, .procurementRead,
      .procurementCreate, .procurementAccept,
      .accessManageUsers, .accessAssignStandardRoles,
      .accessAssignAdmin]

def hasCapability
    (role : UserRole)
    (capability : Capability) : Bool :=
  capability ∈ capabilitiesForRole role

def standardAssignableRoles : List UserRole :=
  [.engineer, .seniorEngineer, .manager]

def custodyRoles : List UserRole :=
  [.engineer, .seniorEngineer]

/- Custody roles never manage users. -/
theorem not_custodyRole_of_accessManageUsers
    {role : UserRole}
    (h : hasCapability role .accessManageUsers) :
    role ∉ custodyRoles := by
  cases role <;> revert h <;> decide
