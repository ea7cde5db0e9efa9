import FieldDiscovery.Lib.Dict
import FieldDiscovery.Repository.Sqlite

/-!
# The schema as a graph of tables

The tables of the migrations, their rows as columns with values, and the foreign keys between them.
A `DELETE` follows the foreign keys that point at its table: `ON DELETE CASCADE` deletes the child
rows in turn, `ON DELETE SET NULL` clears their column.
-/

namespace FieldDiscovery.Repository

open Py

/-- A table of the migrations. -/
inductive TableName where
  | deployments
  | collectorRuns
  | collectorErrors
  | devices
  | deviceAliases
  | interfaces
  | subnets
  | vlans
  | interfaceVlanObservations
  | addressAssignments
  | services
  | softwareObservations
  | observations
  | topologyEdges
  | artifacts
  | adDomains
  | adEntities
  | adRelationships
  | infrastructureReadings
  | correlationDecisions
  | reportHistory
  | unifiSites
  | unifiEntities
  | unifiRelationships
  deriving DecidableEq

/-- A row: its `id`, and the values of its other columns. -/
structure Row where
  id : Nat
  columns : Dict Str Value
  deriving DecidableEq

/-- The value of a column. -/
def Row.get (row : Row) (column : Str) : Value := (row.columns.get column).getD .null

/-- A database, table by table. -/
abbrev Database := TableName → List Row

/-! ## Foreign keys -/

/-- The `ON DELETE` clause of a foreign key. -/
inductive OnDelete where
  | cascade
  | setNull
  deriving DecidableEq

/-- `child.column REFERENCES parent(id) ON DELETE …` -/
structure ForeignKey where
  child : TableName
  column : Str
  parent : TableName
  onDelete : OnDelete
  deriving DecidableEq

/-- The foreign keys of the four migrations. -/
def foreignKeys : List ForeignKey :=
  [
    ⟨.collectorRuns, str "deployment_id", .deployments, .cascade⟩,
    ⟨.collectorErrors, str "collector_run_id", .collectorRuns, .cascade⟩,
    ⟨.devices, str "deployment_id", .deployments, .cascade⟩,
    ⟨.deviceAliases, str "device_id", .devices, .cascade⟩,
    ⟨.interfaces, str "device_id", .devices, .cascade⟩,
    ⟨.subnets, str "deployment_id", .deployments, .cascade⟩,
    ⟨.vlans, str "deployment_id", .deployments, .cascade⟩,
    ⟨.vlans, str "subnet_id", .subnets, .setNull⟩,
    ⟨.interfaceVlanObservations, str "interface_id", .interfaces, .cascade⟩,
    ⟨.interfaceVlanObservations, str "vlan_id", .vlans, .cascade⟩,
    ⟨.addressAssignments, str "device_id", .devices, .cascade⟩,
    ⟨.addressAssignments, str "interface_id", .interfaces, .cascade⟩,
    ⟨.services, str "device_id", .devices, .cascade⟩,
    ⟨.services, str "interface_id", .interfaces, .setNull⟩,
    ⟨.softwareObservations, str "device_id", .devices, .cascade⟩,
    ⟨.observations, str "deployment_id", .deployments, .cascade⟩,
    ⟨.topologyEdges, str "deployment_id", .deployments, .cascade⟩,
    ⟨.topologyEdges, str "local_device_id", .devices, .cascade⟩,
    ⟨.topologyEdges, str "remote_device_id", .devices, .cascade⟩,
    ⟨.topologyEdges, str "local_interface_id", .interfaces, .setNull⟩,
    ⟨.topologyEdges, str "remote_interface_id", .interfaces, .setNull⟩,
    ⟨.artifacts, str "deployment_id", .deployments, .cascade⟩,
    ⟨.artifacts, str "collector_run_id", .collectorRuns, .setNull⟩,
    ⟨.adDomains, str "deployment_id", .deployments, .cascade⟩,
    ⟨.adEntities, str "ad_domain_id", .adDomains, .cascade⟩,
    ⟨.adRelationships, str "deployment_id", .deployments, .cascade⟩,
    ⟨.adRelationships, str "source_domain_id", .adDomains, .cascade⟩,
    ⟨.adRelationships, str "target_domain_id", .adDomains, .cascade⟩,
    ⟨.adRelationships, str "source_entity_id", .adEntities, .cascade⟩,
    ⟨.adRelationships, str "target_entity_id", .adEntities, .cascade⟩,
    ⟨.infrastructureReadings, str "device_id", .devices, .cascade⟩,
    ⟨.infrastructureReadings, str "interface_id", .interfaces, .setNull⟩,
    ⟨.correlationDecisions, str "deployment_id", .deployments, .cascade⟩,
    ⟨.correlationDecisions, str "left_device_id", .devices, .cascade⟩,
    ⟨.correlationDecisions, str "right_device_id", .devices, .cascade⟩,
    ⟨.reportHistory, str "deployment_id", .deployments, .cascade⟩,
    ⟨.unifiSites, str "deployment_id", .deployments, .cascade⟩,
    ⟨.unifiEntities, str "unifi_site_id", .unifiSites, .cascade⟩,
    ⟨.unifiEntities, str "canonical_device_id", .devices, .setNull⟩,
    ⟨.unifiRelationships, str "unifi_site_id", .unifiSites, .cascade⟩,
    ⟨.unifiRelationships, str "local_entity_id", .unifiEntities, .cascade⟩,
    ⟨.unifiRelationships, str "remote_entity_id", .unifiEntities, .cascade⟩
  ]

/-- The foreign keys that point at a table. -/
def referencing (table : TableName) : List ForeignKey :=
  foreignKeys.filter fun key => key.parent = table

/-! ## Deletion -/

/-- The row points at one of the deleted rows. -/
def Row.refersTo (row : Row) (column : Str) (deleted : List Nat) : Bool :=
  deleted.any fun id => row.get column = .integer id

/-- `DELETE FROM table WHERE p`, with the foreign keys followed to the given depth. -/
def deleteWhere : Nat → Database → TableName → (Row → Bool) → Database
  | 0, db, table, p => Function.update db table ((db table).filter fun row => !p row)
  | depth + 1, db, table, p =>
    let deleted := ((db table).filter p).map Row.id
    let remaining := Function.update db table ((db table).filter fun row => !p row)
    (referencing table).foldl (fun db key =>
      match key.onDelete with
      | .cascade => deleteWhere depth db key.child fun row => row.refersTo key.column deleted
      | .setNull => Function.update db key.child ((db key.child).map fun row =>
          if row.refersTo key.column deleted then
            { row with columns := row.columns.set key.column .null } else row)) remaining

/-- No path of foreign keys is longer than the number of tables. -/
def maxDepth : Nat := 24

/-- `DELETE FROM table WHERE p` -/
def delete (db : Database) (table : TableName) (p : Row → Bool) : Database :=
  deleteWhere maxDepth db table p

end FieldDiscovery.Repository
