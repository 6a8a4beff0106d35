import DcInventory.Catalog.Service

/-
  This file defines the fixed configuration of the catalog:
  the attributes of the leaf categories, and what a database
  has that was configured by the migrations.

  Key definitions include:
    * `Catalog.leafAttributes`
    * `Catalog.ConfiguredAs`
    * `Catalog.Configured`

  Key theorems include:
    * `Catalog.leafAttributes_keys`
    * `Catalog.Configured.reach`
-/

namespace Catalog

/- An attribute of a leaf, as it is configured. -/
structure Attribute where
  key : Text
  required : Bool
  dataType : AttributeDataType
deriving DecidableEq, Repr

namespace Attribute

def text (key : String) : Attribute :=
  ⟨key.toList, true, .text⟩

def integer (key : String) : Attribute :=
  ⟨key.toList, true, .integer⟩

def decimal (key : String) : Attribute :=
  ⟨key.toList, true, .decimal⟩

end Attribute

def transceiverAttributes : List Attribute :=
  [.text "speed", .text "wavelength", .text "reach",
    .text "form_factor", .text "fiber", .text "connector",
    .integer "reach_m"]

def networkAttributes : List Attribute :=
  [.text "interface", .integer "ports", .text "speed",
    .text "port_type", .text "application"]

def driveAttributes : List Attribute :=
  [.text "form_factor", .text "interface", .text "capacity"]

/- `LEAVES`: the family and the attributes of each leaf. -/
def leafAttributes : List (Text × Text × List Attribute) :=
  [("transceiver_ethernet".toList, "transceivers".toList,
      transceiverAttributes),
    ("transceiver_fc".toList, "transceivers".toList,
      transceiverAttributes),
    ("optical_patch_cord".toList, "optics".toList,
      [.text "fiber", .text "fiber_category",
        .text "connector_a", .text "connector_b",
        .decimal "length_m", .text "construction",
        ⟨"color".toList, false, .text⟩]),
    ("optical_splitter".toList, "optics".toList,
      [.text "type", .text "configuration", .text "fiber",
        .text "wavelength", .text "connector",
        .text "split_ratio", .text "construction"]),
    ("ethernet_patch_cord".toList, "copper_cabling".toList,
      [.text "cable_category", .text "connector_a",
        .text "connector_b", .decimal "length_m",
        .text "shielding", .text "color"]),
    ("network_ethernet".toList, "network_adapters".toList,
      networkAttributes),
    ("network_fc".toList, "network_adapters".toList,
      networkAttributes),
    ("ssd".toList, "storage".toList,
      driveAttributes ++ [.text "interface_speed",
        .text "type"]),
    ("hdd".toList, "storage".toList,
      driveAttributes ++ [.text "interface_speed",
        .integer "rpm", .text "type"]),
    ("ram".toList, "memory".toList,
      [.text "capacity", .text "type", .text "speed",
        .text "organization",
        ⟨"ecc".toList, true, .boolean⟩]),
    ("pcie_adapter".toList, "pcie".toList,
      [.text "interface", .text "ports", .text "application",
        .text "features"]),
    ("power_cable".toList, "power".toList,
      [.text "type", .text "connector_a", .text "connector_b",
        .decimal "length_m", .text "rating",
        .text "color"])]

theorem leafAttributes_keys :
    leafAttributes.map Prod.fst = leaves := by
  decide

/- Numbers are filtered by ranges, all else by its value. -/
def Attribute.filterType (x : Attribute) : FilterType :=
  if x.dataType = .integer ∨ x.dataType = .decimal then .range
  else .exact

/- The bounds of numbers, and the length of texts. -/
def Attribute.validationMetadata
    (x : Attribute) :
    Option (List (Text × MetadataValue)) :=
  match x.dataType with
  | .text => some [("max_length".toList, .int 2000)]
  | .integer => some [("min".toList, .int 1)]
  | .decimal => some [("min".toList, .float "1e-10".toList)]
  | .boolean | .enum => none

/- A definition that was stored for a configured attribute. -/
structure ConfiguredAs
    (x : Attribute)
    (a : CategoryAttribute) : Prop where
  key : a.key = x.key
  required : a.required = x.required
  dataType : a.dataType = x.dataType
  filterable : a.filterable = true
  searchable : a.searchable = true
  filterType : a.filterType = x.filterType
  allowedValues : a.allowedValues = none
  metadata : a.validationMetadata = x.validationMetadata

/- Definitions are those of the leaf they belong to. -/
def Configured (s : Db) : Prop :=
  ∀ a ∈ s.categoryAttributes, ∃ c ∈ s.categories,
    c.id = a.categoryId ∧ ∃ leaf ∈ leafAttributes,
      leaf.1 = c.key ∧ ∃ x ∈ leaf.2.2, ConfiguredAs x a

/- The distance of a transceiver is a text. -/
theorem Configured.reachText
    {s : Db}
    (h : Configured s)
    {a : CategoryAttribute}
    (ha : a ∈ s.categoryAttributes)
    (hKey : a.key = "reach".toList) :
    a.dataType = .text := by
  have hTexts : ∀ leaf ∈ leafAttributes, ∀ x ∈ leaf.2.2,
      x.key = "reach".toList → x.dataType = .text := by
    decide
  rcases h a ha with ⟨c, _, _, leaf, hLeaf, _, x, hx, hAs⟩
  exact hAs.dataType.trans
    (hTexts leaf hLeaf x hx (hAs.key.symm.trans hKey))

theorem leafAttributes_reach :
    ∀ leaf ∈ leafAttributes, ∀ x ∈ leaf.2.2,
      x.key = "reach_m".toList →
      x.dataType = .integer ∧
        "transceiver_".toList.isPrefixOf leaf.1 = true := by
  decide

/- Only transceivers have a distance in metres. -/
theorem Configured.reach
    {s : Db}
    (h : Configured s)
    {a : CategoryAttribute}
    (ha : a ∈ s.categoryAttributes)
    (hKey : a.key = "reach_m".toList) :
    a.dataType = .integer ∧ ∃ c ∈ s.categories,
      c.id = a.categoryId ∧
        "transceiver_".toList.isPrefixOf c.key = true := by
  rcases h a ha with ⟨c, hc, hId, leaf, hLeaf, hSame, x, hx, hAs⟩
  rcases leafAttributes_reach leaf hLeaf x hx
    (hAs.key.symm.trans hKey) with ⟨hType, hPrefix⟩
  refine ⟨hAs.dataType.trans hType, c, hc, hId, ?_⟩
  rw [← hSame]
  exact hPrefix

end Catalog
