import DcInventory.Core.Text

/-
  This file defines the enumerations of the application and
  the values they are stored and serialized as.
-/

------------------------------------------------------------
-- Identity
------------------------------------------------------------

inductive UserRole where
| engineer
| seniorEngineer
| manager
| admin
| owner
deriving DecidableEq, Repr

inductive UserAccessStatus where
| pending
| approved
| rejected
| blocked
deriving DecidableEq, Repr

inductive AccessRequestStatus where
| pending
| approved
| rejected
deriving DecidableEq, Repr

------------------------------------------------------------
-- Inventory And Catalog
------------------------------------------------------------

inductive LocationStatus where
| active
| archived
deriving DecidableEq, Repr

inductive LocationType where
| warehouse
| datacenter
deriving DecidableEq, Repr

inductive ItemStatus where
| active
| archived
deriving DecidableEq, Repr

inductive AttributeDataType where
| text
| integer
| decimal
| boolean
| enum
deriving DecidableEq, Repr

inductive FilterType where
| none_
| exact
| range
deriving DecidableEq, Repr

inductive MovementType where
| receipt
| issue
| return_
| transfer
| writeOff
| correction
| reversal
deriving DecidableEq, Repr

namespace MovementType

def value : MovementType → Text
| receipt => "RECEIPT".toList
| issue => "ISSUE".toList
| return_ => "RETURN".toList
| transfer => "TRANSFER".toList
| writeOff => "WRITE_OFF".toList
| correction => "CORRECTION".toList
| reversal => "REVERSAL".toList

theorem value_injective : Function.Injective value := by
  intro a b h
  cases a <;> cases b <;>
    first
    | rfl
    | exact absurd h (by decide)

end MovementType

------------------------------------------------------------
-- Procurement
------------------------------------------------------------

inductive ProcurementStatus where
| agreementPendingManager
| agreementRevisionRequired
| purchasing
| awaitingAcceptance
| completed
deriving DecidableEq, Repr

inductive ProcurementLineType where
| existingItem
| proposedItem
deriving DecidableEq, Repr

inductive ProcurementEventType where
| requestCreated
| revisionSubmitted
| managerAccepted
| correctionRequested
| assignmentTaken
| assignmentTransferred
| transferredToAcceptance
| lineBound
| discrepancyReported
| completed
deriving DecidableEq, Repr

namespace ProcurementStatus

def value : ProcurementStatus → String
| agreementPendingManager => "AGREEMENT_PENDING_MANAGER"
| agreementRevisionRequired => "AGREEMENT_REVISION_REQUIRED"
| purchasing => "PURCHASING"
| awaitingAcceptance => "AWAITING_ACCEPTANCE"
| completed => "COMPLETED"

end ProcurementStatus

namespace ProcurementLineType

def value : ProcurementLineType → Text
| existingItem => "EXISTING_ITEM".toList
| proposedItem => "PROPOSED_ITEM".toList

theorem value_injective : Function.Injective value := by
  intro a b h
  cases a <;> cases b <;>
    first
    | rfl
    | exact absurd h (by decide)

end ProcurementLineType
