import Mathlib.Data.List.Basic

/-!
# Roles, tables and who may do what

A database as the statements of its owner make it: schemas, roles, tables with
what is granted on them, and what is granted on tables yet to come. A statement
that fails changes nothing, and neither does a script of them that is one
transaction.
-/

namespace Grants

inductive Privilege
  | select
  | insert
  | update
  | delete
  | truncate
deriving DecidableEq

/-- Everybody, or one role. -/
inductive Grantee (Name : Type)
  | everyone
  | role (name : Name)
deriving DecidableEq

structure TableName (Name : Type) where
  schema : Name
  table : Name
deriving DecidableEq

structure Table (Name : Type) where
  name : TableName Name
  columns : List Name
  grants : List (Grantee Name × Privilege)
deriving DecidableEq

structure Catalogue (Name : Type) where
  schemas : List Name
  roles : List Name
  usage : List (Name × Grantee Name)
  defaults : List (Name × Grantee Name × Privilege)
  tables : List (Table Name)
  indexes : List (Name × Name)
deriving DecidableEq

/-- A statement of the owner. -/
inductive Statement (Name : Type)
  | createSchemaIfNotExists (schema : Name)
  | revokeSchemaFromPublic (schema : Name)
  | createRole (role : Name)
  | grantUsage (schema role : Name)
  | grantOnAllTables (privileges : List Privilege) (schema role : Name)
  | revokeOnAllTables (privileges : List Privilege) (schema role : Name)
  | alterDefaultGrant (schema : Name) (privileges : List Privilege) (role : Name)
  | alterDefaultRevoke (schema : Name) (privileges : List Privilege) (role : Name)
  | createTable (table : TableName Name) (columns : List Name)
  | createIndex (index : Name) (table : TableName Name)
  | grantOn (privileges : List Privilege) (table : TableName Name) (role : Name)
  | revokeOn (privileges : List Privilege) (table : TableName Name) (role : Name)
  | addColumn (table : TableName Name) (column : Name) (needsValue : Bool)
  | commentOnColumn (table : TableName Name) (column : Name)

variable {Name : Type} [DecidableEq Name]

namespace Table

def grant (t : Table Name) (privileges : List Privilege) (grantee : Grantee Name) : Table Name :=
  { t with grants := t.grants ++ privileges.map (Prod.mk grantee) }

def revoke (t : Table Name) (privileges : List Privilege) (grantee : Grantee Name) : Table Name :=
  { t with grants := t.grants.filter fun g => ¬ (g.1 = grantee ∧ g.2 ∈ privileges) }

end Table

namespace Catalogue

def find (c : Catalogue Name) (table : TableName Name) : Option (Table Name) :=
  c.tables.find? fun t => t.name = table

/-- The tables of a schema changed. -/
def onSchema (c : Catalogue Name) (schema : Name) (f : Table Name → Table Name) : Catalogue Name :=
  { c with tables := c.tables.map fun t => if t.name.schema = schema then f t else t }

def onTable (c : Catalogue Name) (table : TableName Name) (f : Table Name → Table Name) :
    Catalogue Name :=
  { c with tables := c.tables.map fun t => if t.name = table then f t else t }

/-- What tables of a schema start with. -/
def initialGrants (c : Catalogue Name) (schema : Name) : List (Grantee Name × Privilege) :=
  (c.defaults.filter fun d => d.1 = schema).map Prod.snd

/-- The role may do something on the table: it may look into the schema, and has been granted
it itself or with everybody. -/
def may (c : Catalogue Name) (role : Name) (p : Privilege) (table : TableName Name) : Bool :=
  (c.usage.contains (table.schema, .role role) || c.usage.contains (table.schema, .everyone)) &&
    c.tables.any fun t => t.name = table &&
      (t.grants.contains (.role role, p) || t.grants.contains (.everyone, p))

/-- What a role may do has been granted on the table, to the role or to everybody. -/
theorem granted_of_may {c : Catalogue Name} {role : Name} {p : Privilege} {table : TableName Name}
    (h : c.may role p table = true) : ∃ t ∈ c.tables, t.name = table ∧
      ((.role role, p) ∈ t.grants ∨ (.everyone, p) ∈ t.grants) := by
  rw [may, Bool.and_eq_true, List.any_eq_true] at h
  obtain ⟨-, t, ht, hgranted⟩ := h
  rw [Bool.and_eq_true, Bool.or_eq_true, List.contains_iff_mem, List.contains_iff_mem] at hgranted
  exact ⟨t, ht, of_decide_eq_true hgranted.1, hgranted.2⟩

end Catalogue

/-- What a statement makes of the catalogue, unless it fails. -/
def execute (c : Catalogue Name) : Statement Name → Option (Catalogue Name)
  | .createSchemaIfNotExists schema =>
      if schema ∈ c.schemas then some c else some { c with schemas := c.schemas ++ [schema] }
  | .revokeSchemaFromPublic schema =>
      if schema ∈ c.schemas then
        some { c with usage := c.usage.filter fun u => u ≠ (schema, .everyone) }
      else none
  | .createRole role =>
      if role ∈ c.roles then none else some { c with roles := c.roles ++ [role] }
  | .grantUsage schema role =>
      if schema ∈ c.schemas ∧ role ∈ c.roles then
        some { c with usage := c.usage ++ [(schema, .role role)] }
      else none
  | .grantOnAllTables privileges schema role =>
      if schema ∈ c.schemas ∧ role ∈ c.roles then
        some (c.onSchema schema fun t => t.grant privileges (.role role))
      else none
  | .revokeOnAllTables privileges schema role =>
      if schema ∈ c.schemas ∧ role ∈ c.roles then
        some (c.onSchema schema fun t => t.revoke privileges (.role role))
      else none
  | .alterDefaultGrant schema privileges role =>
      if schema ∈ c.schemas ∧ role ∈ c.roles then
        some { c with defaults := c.defaults ++ privileges.map fun p => (schema, .role role, p) }
      else none
  | .alterDefaultRevoke schema privileges role =>
      if schema ∈ c.schemas ∧ role ∈ c.roles then
        some { c with defaults := c.defaults.filter fun d =>
          ¬ (d.1 = schema ∧ d.2.1 = .role role ∧ d.2.2 ∈ privileges) }
      else none
  | .createTable table columns =>
      if table.schema ∈ c.schemas ∧ (c.find table).isNone then
        some { c with tables := c.tables ++ [⟨table, columns, c.initialGrants table.schema⟩] }
      else none
  | .createIndex index table =>
      if (c.find table).isSome ∧ (table.schema, index) ∉ c.indexes then
        some { c with indexes := c.indexes ++ [(table.schema, index)] }
      else none
  | .grantOn privileges table role =>
      if (c.find table).isSome ∧ role ∈ c.roles then
        some (c.onTable table fun t => t.grant privileges (.role role))
      else none
  | .revokeOn privileges table role =>
      if (c.find table).isSome ∧ role ∈ c.roles then
        some (c.onTable table fun t => t.revoke privileges (.role role))
      else none
  | .addColumn table column _ =>
      if ((c.find table).any fun t => column ∉ t.columns) = true then
        some (c.onTable table fun t => { t with columns := t.columns ++ [column] })
      else none
  | .commentOnColumn table column =>
      if ((c.find table).any fun t => column ∈ t.columns) = true then some c else none

/-! ## Rows -/

/-- The catalogue and what the tables hold. -/
structure Database (Name Row : Type) where
  catalogue : Catalogue Name
  rows : TableName Name → List Row

/-- A column without a value to start with cannot come to a table that holds rows. -/
def blocked {Row : Type} (rows : TableName Name → List Row) : Statement Name → Bool
  | .addColumn table _ true => !(rows table).isEmpty
  | _ => false

/-- A transaction: all of its statements, or nothing. -/
def transact {Row : Type} (db : Database Name Row) (script : List (Statement Name)) :
    Option (Database Name Row) :=
  if script.any (blocked db.rows) then none
  else (script.foldlM execute db.catalogue).map fun c => { db with catalogue := c }

/-- What a role asks of the rows of a table. -/
inductive Action (Row : Type)
  | select
  | insert (row : Row)
  | update (f : Row → Row)
  | delete (keep : Row → Bool)
  | truncate

namespace Action

variable {Row : Type}

def privilege : Action Row → Privilege
  | select => .select
  | insert _ => .insert
  | update _ => .update
  | delete _ => .delete
  | truncate => .truncate

def effect : Action Row → List Row → List Row
  | select, rows => rows
  | insert row, rows => rows ++ [row]
  | update f, rows => rows.map f
  | delete keep, rows => rows.filter keep
  | truncate, _ => []

end Action

namespace Database

variable {Row : Type}

/-- The rows of one table changed. -/
def onRows (db : Database Name Row) (table : TableName Name) (f : List Row → List Row) :
    Database Name Row :=
  { db with rows := Function.update db.rows table (f (db.rows table)) }

/-- An action of a role; one that is not granted changes nothing. -/
def act (db : Database Name Row) (role : Name) (table : TableName Name) (action : Action Row) :
    Database Name Row :=
  if db.catalogue.may role action.privilege table then db.onRows table action.effect else db

@[simp] theorem catalogue_act (db : Database Name Row) (role : Name) (table : TableName Name)
    (action : Action Row) : (db.act role table action).catalogue = db.catalogue := by
  unfold act
  split
  · rfl
  · rfl

theorem rows_act_of_ne (db : Database Name Row) (role : Name) {table other : TableName Name}
    (h : other ≠ table) (action : Action Row) :
    (db.act role table action).rows other = db.rows other := by
  unfold act
  split
  · exact Function.update_of_ne h _ _
  · rfl

/-- A table nobody may change but by adding to it only grows. -/
theorem prefix_act {table : TableName Name} {db : Database Name Row}
    (h : ∀ role p, db.catalogue.may role p table = true → p = .select ∨ p = .insert) (role : Name)
    (table' : TableName Name) (action : Action Row) :
    db.rows table <+: (db.act role table' action).rows table := by
  by_cases hsame : table = table'
  · subst hsame
    unfold act
    split
    · rename_i hmay
      change db.rows table <+: Function.update db.rows table _ table
      rw [Function.update_self]
      have hp := h role _ hmay
      cases action with
      | select => exact List.prefix_refl _
      | insert row => exact List.prefix_append _ _
      | update | delete | truncate => simp [Action.privilege] at hp
    · exact List.prefix_refl _
  · have hrows := rows_act_of_ne db role hsame action
    exact hrows.symm ▸ List.prefix_refl _

/-- A table nobody may take rows from keeps their number. -/
theorem length_act {table : TableName Name} {db : Database Name Row}
    (h : ∀ role p, db.catalogue.may role p table = true → p ≠ .delete ∧ p ≠ .truncate) (role : Name)
    (table' : TableName Name) (action : Action Row) :
    (db.rows table).length ≤ ((db.act role table' action).rows table).length := by
  by_cases hsame : table = table'
  · subst hsame
    unfold act
    split
    · rename_i hmay
      change _ ≤ (Function.update db.rows table _ table).length
      rw [Function.update_self]
      have hp := h role _ hmay
      cases action with
      | select => exact Nat.le_refl _
      | insert row =>
          rw [Action.effect, List.length_append]
          exact Nat.le_add_right _ _
      | update f =>
          exact Nat.le_of_eq (List.length_map _).symm
      | delete | truncate => simp [Action.privilege] at hp
    · exact Nat.le_refl _
  · exact Nat.le_of_eq (congrArg List.length (rows_act_of_ne db role hsame action)).symm

/-- A transaction changes the catalogue alone. -/
theorem rows_of_transact {db db' : Database Name Row} {script : List (Statement Name)}
    (h : transact db script = some db') : db'.rows = db.rows := by
  unfold transact at h
  split at h
  · cases h
  · obtain ⟨c, -, rfl⟩ := Option.map_eq_some_iff.mp h
    rfl

/-- What the catalogue has become. -/
theorem catalogue_of_transact {db db' : Database Name Row} {script : List (Statement Name)}
    (h : transact db script = some db') :
    script.foldlM execute db.catalogue = some db'.catalogue := by
  unfold transact at h
  split at h
  · cases h
  · obtain ⟨c, hc, rfl⟩ := Option.map_eq_some_iff.mp h
    exact hc

end Database

end Grants
