import ZeroSecret.Deploy.Migrations

/-!
# What the roles may do

However far the scripts have come, a role may do no more than is written here
for its one schema. So the audit tables only grow and the identity tables lose
no row, whatever the services' roles attempt.
-/

namespace ZeroSecret.Deploy

open Grants Interleave

/-- A role, its schema, and what it may do on the tables there. -/
def schemaGrants : List (String × String × List Privilege) :=
  [("identity", "identity_app", [.select, .insert, .update]), ("authz", "authz_app", readWrite),
    ("issuance", "issuance_app", readWrite), ("audit", "audit_writer", [.select, .insert]),
    ("audit", "audit_reader", [.select])]

def permitted (schema : String) (grantee : Grantee String) (p : Privilege) : Bool :=
  schemaGrants.any fun s => s.1 = schema && Grantee.role s.2.1 = grantee && s.2.2.contains p

theorem permitted_role {schema role : String} {p : Privilege}
    (h : permitted schema (.role role) p = true) : ∃ privileges,
      (schema, role, privileges) ∈ schemaGrants ∧ p ∈ privileges := by
  obtain ⟨⟨schema', role', privileges⟩, hs, h⟩ := List.any_eq_true.mp h
  rw [Bool.and_eq_true, Bool.and_eq_true, List.contains_iff_mem] at h
  obtain ⟨⟨hschema, hrole⟩, hp⟩ := h
  obtain rfl := of_decide_eq_true hschema
  obtain ⟨⟩ := Grantee.role.inj (of_decide_eq_true hrole)
  exact ⟨privileges, hs, hp⟩

theorem not_permitted_everyone (schema : String) (p : Privilege) :
    permitted schema .everyone p = false := by
  simp [permitted]

/-- No script grants more. -/
theorem catalogueAfter_permitted : ∀ n ≤ migrations.length, ∀ c ∈ (catalogueAfter n).toList,
    (∀ t ∈ c.tables, ∀ g ∈ t.grants, permitted t.name.schema g.1 g.2 = true) ∧
      ∀ d ∈ c.defaults, permitted d.1 d.2.1 d.2.2 = true := by
  decide +kernel

theorem audit_adds_only : ∀ s ∈ schemaGrants, s.1 = "audit" →
    ∀ p ∈ s.2.2, p = .select ∨ p = .insert := by
  decide +kernel

theorem identity_removes_nothing : ∀ s ∈ schemaGrants, s.1 = "identity" →
    ∀ p ∈ s.2.2, p ≠ .delete ∧ p ≠ .truncate := by
  decide +kernel

theorem reader_reads_only : ∀ s ∈ schemaGrants, s.2.1 = "audit_reader" →
    s.1 = "audit" ∧ ∀ p ∈ s.2.2, p = .select := by
  decide +kernel

/-- A role has one schema. -/
theorem schema_unique : ∀ s ∈ schemaGrants, ∀ s' ∈ schemaGrants, s.2.1 = s'.2.1 → s.1 = s'.1 := by
  decide +kernel

/-! ## The tables -/

variable {Row : Type}

theorem InOrder.permitted_of_may {d : Deployment Row} (hd : InOrder d) {role : String}
    {p : Privilege} {table : TableName String}
    (h : d.database.catalogue.may role p table = true) :
    permitted table.schema (.role role) p = true := by
  obtain ⟨n, hn⟩ := hd
  obtain ⟨t, ht, rfl, hgranted⟩ := Catalogue.granted_of_may h
  have hall := (catalogueAfter_permitted n hn.le _ (Option.mem_toList.mpr hn.catalogue)).1 t ht
  rcases hgranted with hrole | heveryone
  · exact hall _ hrole
  · have hnone := hall _ heveryone
    rw [not_permitted_everyone] at hnone
    cases hnone

/-- A table that is yet to come starts with no more than that. -/
theorem InOrder.permitted_of_initialGrants {d : Deployment Row} (hd : InOrder d) {schema : String}
    {g : Grantee String × Privilege} (h : g ∈ d.database.catalogue.initialGrants schema) :
    permitted schema g.1 g.2 = true := by
  obtain ⟨n, hn⟩ := hd
  obtain ⟨⟨schema', g'⟩, hmem, rfl⟩ := List.mem_map.mp h
  obtain ⟨hdefault, hschema⟩ := List.mem_filter.mp hmem
  obtain rfl := of_decide_eq_true hschema
  exact (catalogueAfter_permitted n hn.le _ (Option.mem_toList.mpr hn.catalogue)).2 _ hdefault

/-- What an operation does to the rows is the action of a role, or nothing. -/
theorem rows_of_executes {d d' : Deployment Row} {op : DeployOp Row} {answer : op.Resp}
    (h : Executes d op answer d') : d'.database.rows = d.database.rows ∨
      ∃ role table action, d'.database = d.database.act role table action := by
  cases op with
  | createLedger =>
      left
      refine h.keeps (A := fun t => t.database.rows = d.database.rows) (fun t ht => ?_) rfl
      obtain rfl := Option.some.inj ht
      rfl
  | lookup name =>
      obtain ⟨rfl, -⟩ := h
      exact Or.inl rfl
  | apply migration =>
      left
      refine h.keeps (A := fun t => t.database.rows = d.database.rows) (fun t ht => ?_) rfl
      obtain ⟨database, htransact, rfl⟩ := Option.map_eq_some_iff.mp ht
      exact Database.rows_of_transact htransact
  | record name =>
      left
      refine h.keeps (A := fun t => t.database.rows = d.database.rows) (fun t ht => ?_) rfl
      obtain ⟨names, -, ht⟩ := Option.bind_eq_some_iff.mp ht
      split at ht
      · cases ht
      · obtain rfl := Option.some.inj ht
        rfl
  | act role table action =>
      rcases h with rfl | rfl
      · exact Or.inr ⟨role, table, action, rfl⟩
      · exact Or.inl rfl

theorem audit_prefix_executes {d d' : Deployment Row} {op : DeployOp Row} {answer : op.Resp}
    (hd : InOrder d) (h : Executes d op answer d') {table : TableName String}
    (htable : table.schema = "audit") : d.database.rows table <+: d'.database.rows table := by
  rcases rows_of_executes h with hrows | ⟨role, table', action, hdb⟩
  · exact hrows.symm ▸ List.prefix_refl _
  · rw [hdb]
    refine Database.prefix_act (fun role p hmay => ?_) role table' action
    obtain ⟨privileges, hmem, hp⟩ := permitted_role (hd.permitted_of_may hmay)
    exact audit_adds_only _ hmem htable p hp

theorem identity_length_executes {d d' : Deployment Row} {op : DeployOp Row} {answer : op.Resp}
    (hd : InOrder d) (h : Executes d op answer d') {table : TableName String}
    (htable : table.schema = "identity") :
    (d.database.rows table).length ≤ (d'.database.rows table).length := by
  rcases rows_of_executes h with hrows | ⟨role, table', action, hdb⟩
  · exact Nat.le_of_eq (congrArg (fun rows => (rows table).length) hrows).symm
  · rw [hdb]
    refine Database.length_act (fun role p hmay => ?_) role table' action
    obtain ⟨privileges, hmem, hp⟩ := permitted_role (hd.permitted_of_may hmay)
    exact identity_removes_nothing _ hmem htable p hp

/-! ## Every run -/

section Runs

variable {Caller : Type} [DecidableEq Caller]

/-- **One schema a role, and the ledger only grows.** From any moment of a run of migrations and
sessions to any later one the audit tables are extended and the identity tables lose no row; a
role reaches the tables of one schema alone, the auditor's role only reads, and a table that is
yet to come starts with nothing that would change this. -/
theorem roles_confined (calls : Caller → DeployCall) {c c' : Config (deployWorld Caller Row) Bool}
    (hc : Reachable (deployWorld Caller Row) (Deploys calls) c)
    (h : Relation.ReflTransGen (Step (deployWorld Caller Row) (Deploys calls)) c c') :
    (∀ table, table.schema = "audit" →
      c.state.database.rows table <+: c'.state.database.rows table) ∧
    (∀ table, table.schema = "identity" →
      (c.state.database.rows table).length ≤ (c'.state.database.rows table).length) ∧
    (∀ role p p' table table', c'.state.database.catalogue.may role p table = true →
      c'.state.database.catalogue.may role p' table' = true → table.schema = table'.schema) ∧
    (∀ p table, c'.state.database.catalogue.may "audit_reader" p table = true →
      table.schema = "audit" ∧ p = .select) ∧
    ∀ schema, ∀ g ∈ c'.state.database.catalogue.initialGrants schema,
      permitted schema g.1 g.2 = true := by
  have hc' : InOrder c'.state := inOrder_of_reachable (hc.later h)
  refine ⟨?_, ?_, ?_, ?_, ?_⟩
  · intro table htable
    refine Reachable.extends (W := deployWorld Caller Row)
      (R := fun s u => s.database.rows table <+: u.database.rows table)
      (fun s => List.prefix_refl _) List.IsPrefix.trans ?_ hc h
    intro c _ _ _ _ hc hx
    exact audit_prefix_executes (inOrder_of_reachable hc) hx htable
  · intro table htable
    refine Reachable.extends (W := deployWorld Caller Row)
      (R := fun s u => (s.database.rows table).length ≤ (u.database.rows table).length)
      (fun s => Nat.le_refl _) Nat.le_trans ?_ hc h
    intro c _ _ _ _ hc hx
    exact identity_length_executes (inOrder_of_reachable hc) hx htable
  · intro role p p' table table' hmay hmay'
    obtain ⟨privileges, hmem, -⟩ := permitted_role (hc'.permitted_of_may hmay)
    obtain ⟨privileges', hmem', -⟩ := permitted_role (hc'.permitted_of_may hmay')
    exact schema_unique _ hmem _ hmem' rfl
  · intro p table hmay
    obtain ⟨privileges, hmem, hp⟩ := permitted_role (hc'.permitted_of_may hmay)
    obtain ⟨hschema, hselect⟩ := reader_reads_only _ hmem rfl
    exact ⟨hschema, hselect p hp⟩
  · intro schema g hg
    exact hc'.permitted_of_initialGrants hg

end Runs

/-- The writer's sessions: a row is added, and what was written is to be removed. -/
def insertThenTruncate (row : Nat) : Prog (DeployOp Nat) DeployOp.Resp Bool :=
  .call (.act "audit_writer" auditEvents (.insert row)) fun _ =>
    .call (.act "audit_writer" auditEvents .truncate) fun _ => .ret true

theorem deploys_insertThenTruncate (n row : Nat) :
    Deploys sampleCalls (n + 1) (insertThenTruncate row) := by
  have hwithin : (insertThenTruncate row).Within IsAct :=
    ⟨⟨_, _, _, rfl⟩, fun _ => ⟨⟨_, _, _, rfl⟩, fun _ => trivial⟩⟩
  exact hwithin

/-- Two sessions after the scripts: what the first has written is still there. -/
theorem roles_confined_sessions : ∃ c c' : Config (deployWorld Nat Nat) Bool,
    c.state.database.rows auditEvents = [7] ∧ [7] <+: c'.state.database.rows auditEvents ∧
      c'.procs 2 = some (.ret true) := by
  obtain ⟨c₀, hc₀, hstate, -, hother⟩ := migrated_first
  obtain ⟨c, hc, hstate', -, hother'⟩ := reachable_alone (W := deployWorld Nat Nat)
    executes_answering hc₀ (hother 1 (by decide)) (deploys_insertThenTruncate 0 7)
  have hlater := later_alone (W := deployWorld Nat Nat) executes_answering
    ((hother' 2 (by decide)).trans (hother 2 (by decide))) (deploys_insertThenTruncate 1 8)
  have hrows : c.state.database.rows auditEvents = [7] := by
    rw [hstate', hstate]
    decide +kernel
  have haudit := (roles_confined sampleCalls hc hlater).1 auditEvents rfl
  rw [hrows] at haudit
  exact ⟨c, _, hrows, haudit, Function.update_self 2 _ c.procs⟩

end ZeroSecret.Deploy
