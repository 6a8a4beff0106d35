import DcInventory.Library.Interference
import DcInventory.Library.Table
import DcInventory.Library.ThreeValued
import DcInventory.Library.Json
import DcInventory.Schema.Database
import DcInventory.Identity.Policy
import DcInventory.Inventory.Schemas
import DcInventory.Inventory.Journal
import DcInventory.Inventory.Projections
import DcInventory.Inventory.Interleaving
import DcInventory.Inventory.ExactlyOnce
import DcInventory.Inventory.Reversal
import DcInventory.Identity.Outcomes
import DcInventory.Inventory.Frame
import DcInventory.Identity.Commits
import DcInventory.Identity.Effects
import DcInventory.Identity.CustodyHolders
import DcInventory.Identity.Authorization
import DcInventory.Notifications.Service
import DcInventory.Procurement.Email
import DcInventory.Notifications.Protocol
import DcInventory.Identity.Agreement
import DcInventory.Access.Decisions
import DcInventory.Maintenance.LiveWork
import DcInventory.TelegramBot.WelcomeMessages
import DcInventory.Inventory.ArchivedLocations
import DcInventory.Core.Whitespace
import DcInventory.Catalog.Normalization
import DcInventory.Catalog.Attributes
import DcInventory.Catalog.StoredValues
import DcInventory.Catalog.Service
import DcInventory.Catalog.Outcomes
import DcInventory.Catalog.DatabaseIdentity
import DcInventory.Catalog.CanonicalNames
import DcInventory.Catalog.Drafts
import DcInventory.Catalog.EquipmentIdentity
import DcInventory.Catalog.SignatureAgreement
import DcInventory.Catalog.ReachText
import DcInventory.Catalog.Configuration
import DcInventory.Catalog.Readback
import DcInventory.Catalog.Restating
import DcInventory.Catalog.CheckedItems
import DcInventory.Catalog.Editing
import DcInventory.Core.Rounding
import DcInventory.Catalog.ReachPieces
import DcInventory.Catalog.ReachParsing
import DcInventory.Auth.SessionLimit
import DcInventory.Library.Patterns
import DcInventory.Catalog.Query
import DcInventory.Catalog.Scope
import DcInventory.Catalog.Ranking
import DcInventory.Frontend.CatalogUrl
import DcInventory.Library.JsonReading
import DcInventory.Auth.SignedLogin
import DcInventory.Bootstrap.CleanRuns
import DcInventory.Bootstrap.Accounting
import DcInventory.Notifications.ChangingLimits
import DcInventory.Frontend.SpeedBuckets
import DcInventory.Identity.AdminApi
import DcInventory.Identity.FailedCalls
import DcInventory.Library.Histories
import DcInventory.Identity.RoleChanges
import DcInventory.Identity.DisplayedOrder
import DcInventory.Procurement.Schemas
import DcInventory.Procurement.Records
import DcInventory.Core.Urls
import DcInventory.Procurement.Statements
import DcInventory.Procurement.Lines
import DcInventory.Procurement.Service
import DcInventory.Library.Outcomes
import DcInventory.Procurement.OtherErrors
import DcInventory.Procurement.Refusals
import DcInventory.Procurement.OfferedActions
import DcInventory.Procurement.Histories
import DcInventory.Library.JsonSize
import DcInventory.Notifications.Gateway
import DcInventory.Inventory.IssueNotification
import DcInventory.Notifications.MessageLimits
import DcInventory.Catalog.EqualDrafts
import DcInventory.Procurement.FaithfulLines
import DcInventory.Catalog.DecimalIdentity
import DcInventory.Notifications.DedupeKeys
import DcInventory.Backup.RecordedVersions
import DcInventory.Frontend.UnchangedForm
import DcInventory.Procurement.StoredLines
import DcInventory.Frontend.LineComposer
import DcInventory.Frontend.ReshownValues
import DcInventory.Frontend.CardDraft
import DcInventory.Frontend.ApprovedLines
import DcInventory.Frontend.ProposedCards
import DcInventory.Library.EventLog
import DcInventory.Procurement.Advances
import DcInventory.Procurement.Replay
import DcInventory.Procurement.CommandsOnce
import DcInventory.Procurement.Receipts
import DcInventory.Inventory.InverseMovements
import DcInventory.Procurement.GuardedCommands
import DcInventory.Inventory.MovementFeed
