import Mathlib.Data.List.Nodup
import ZeroSecret.Base.Grants
import ZeroSecret.Base.Guards

/-!
# Migrations

The scripts of `deploy/migrations` and `tools/migrate.sh`, which applies them.
Any number of runs may overlap, fail at any command or be cut off between two of
them, while the services' roles work on the tables: the catalogue is always what
the first scripts make of it, whole, and no script comes twice.
-/

namespace ZeroSecret.Deploy

open Grants Interleave

/-! ## The scripts -/

def identityChallenges : TableName String := ⟨"identity", "challenges"⟩

def identityAuthenticators : TableName String := ⟨"identity", "authenticators"⟩

def auditEvents : TableName String := ⟨"audit", "events"⟩

def readWrite : List Privilege := [.select, .insert, .update, .delete]

/-- `001_schemas_et_roles.sql` -/
def schemasEtRoles : List (Statement String) :=
  [.createSchemaIfNotExists "identity", .createSchemaIfNotExists "authz",
    .createSchemaIfNotExists "issuance", .createSchemaIfNotExists "audit",
    .revokeSchemaFromPublic "public",
    .createRole "identity_app",
    .grantUsage "identity" "identity_app",
    .grantOnAllTables [.select, .insert, .update] "identity" "identity_app",
    .alterDefaultGrant "identity" [.select, .insert, .update] "identity_app",
    .revokeOnAllTables [.delete] "identity" "identity_app",
    .createRole "authz_app",
    .grantUsage "authz" "authz_app",
    .grantOnAllTables readWrite "authz" "authz_app",
    .alterDefaultGrant "authz" readWrite "authz_app",
    .createRole "issuance_app",
    .grantUsage "issuance" "issuance_app",
    .grantOnAllTables readWrite "issuance" "issuance_app",
    .alterDefaultGrant "issuance" readWrite "issuance_app",
    .createRole "audit_writer",
    .grantUsage "audit" "audit_writer",
    .grantOnAllTables [.select, .insert] "audit" "audit_writer",
    .alterDefaultGrant "audit" [.select, .insert] "audit_writer",
    .revokeOnAllTables [.update, .delete, .truncate] "audit" "audit_writer",
    .alterDefaultRevoke "audit" [.update, .delete, .truncate] "audit_writer",
    .createRole "audit_reader",
    .grantUsage "audit" "audit_reader",
    .grantOnAllTables [.select] "audit" "audit_reader",
    .alterDefaultGrant "audit" [.select] "audit_reader"]

/-- `002_audit_events.sql` -/
def auditEventsTable : List (Statement String) :=
  [.createTable auditEvents
      ["event_id", "sequence", "occurred_at", "authority_domain", "event_type", "actor", "target",
        "outcome", "decision", "context", "prev_hash", "signature", "inserted_at"],
    .createIndex "events_authority_sequence_idx" auditEvents,
    .createIndex "events_occurred_at_idx" auditEvents,
    .createIndex "events_event_type_idx" auditEvents,
    .grantOn [.select, .insert] auditEvents "audit_writer",
    .revokeOn [.update, .delete, .truncate] auditEvents "audit_writer",
    .grantOn [.select] auditEvents "audit_reader"]

/-- `003_identity_challenges_et_authenticators.sql` -/
def challengesEtAuthenticators : List (Statement String) :=
  [.createTable identityChallenges
      ["challenge", "subject_id", "ceremony_kind", "created_at", "expires_at", "used_at"],
    .createIndex "challenges_expires_at_idx" identityChallenges,
    .createTable identityAuthenticators
      ["credential_id", "subject_id", "suite", "algorithm", "public_key", "sign_count", "aaguid",
        "attestation_format", "created_at", "revoked_at"],
    .createIndex "authenticators_subject_id_idx" identityAuthenticators,
    .grantOn [.select, .insert, .update] identityChallenges "identity_app",
    .grantOn [.select, .insert, .update] identityAuthenticators "identity_app",
    .revokeOn [.delete] identityChallenges "identity_app",
    .revokeOn [.delete] identityAuthenticators "identity_app"]

/-- `004_authenticators_counter_supported.sql` -/
def counterSupported : List (Statement String) :=
  [.addColumn identityAuthenticators "counter_supported" false,
    .commentOnColumn identityAuthenticators "counter_supported"]

/-- `005_audit_events_sealed_bytes.sql`: the column has no value to start with. -/
def sealedBytes : List (Statement String) := [.addColumn auditEvents "sealed_bytes" true]

structure Migration where
  name : String
  script : List (Statement String)

/-- `"$MIGRATIONS_DIR"/*.sql` -/
def migrations : List Migration :=
  [⟨"001_schemas_et_roles.sql", schemasEtRoles⟩, ⟨"002_audit_events.sql", auditEventsTable⟩,
    ⟨"003_identity_challenges_et_authenticators.sql", challengesEtAuthenticators⟩,
    ⟨"004_authenticators_counter_supported.sql", counterSupported⟩,
    ⟨"005_audit_events_sealed_bytes.sql", sealedBytes⟩]

/-- The database a server starts with. -/
def initialCatalogue : Catalogue String where
  schemas := ["public"]
  roles := []
  usage := [("public", .everyone)]
  defaults := []
  tables := []
  indexes := []

/-! ## `migrate.sh` -/

variable {Row : Type}

/-- The database, and the names in `schema_migrations` once that table is there. -/
structure Deployment (Row : Type) where
  database : Database String Row
  recorded : Option (List String)

/-- A call of `psql`, or an action of a role. -/
inductive DeployOp (Row : Type)
  | createLedger
  | lookup (name : String)
  | apply (migration : Migration)
  | record (name : String)
  | act (role : String) (table : TableName String) (action : Action Row)

/-- A call of `psql` tells whether it succeeded; the lookup prints what it found. -/
def DeployOp.Resp : DeployOp Row → Type
  | createLedger => Bool
  | lookup _ => Option Bool
  | apply _ => Bool
  | record _ => Bool
  | act _ _ _ => Unit

/-- `for migration in ...`; `set -e` ends the run at a command that fails. -/
def migrateLoop : List Migration → Prog (DeployOp Row) DeployOp.Resp Bool
  | [] => .ret true
  | migration :: rest =>
      .call (.lookup migration.name) fun already : Option Bool =>
        match already with
        | none => .ret false
        | some true => migrateLoop rest
        | some false =>
            .call (.apply migration) fun applied : Bool =>
              if applied then
                .call (.record migration.name) fun recorded : Bool =>
                  if recorded then migrateLoop rest else .ret false
              else .ret false

def migrate : Prog (DeployOp Row) DeployOp.Resp Bool :=
  .call .createLedger fun created : Bool => if created then migrateLoop migrations else .ret false

/-- A command that succeeds has had its effect; of one that fails the effect may have come
about all the same, the answer lost. -/
def Commits {σ : Type} (effect : σ → Option σ) (s : σ) (succeeded : Bool) (s' : σ) : Prop :=
  effect s = some s' ∨ succeeded = false ∧ s' = s

namespace Deployment

def createLedger (d : Deployment Row) : Option (Deployment Row) :=
  some { d with recorded := some (d.recorded.getD []) }

def apply (migration : Migration) (d : Deployment Row) : Option (Deployment Row) :=
  (transact d.database migration.script).map fun database => { d with database }

/-- The name is the primary key. -/
def record (name : String) (d : Deployment Row) : Option (Deployment Row) :=
  d.recorded.bind fun names =>
    if name ∈ names then none else some { d with recorded := some (names ++ [name]) }

end Deployment

def Executes (d : Deployment Row) : (op : DeployOp Row) → op.Resp → Deployment Row → Prop
  | .createLedger, succeeded, d' => Commits Deployment.createLedger d succeeded d'
  | .lookup name, found, d' => d' = d ∧
      ∀ b, found = some b → ∃ names, d.recorded = some names ∧ (b = true ↔ name ∈ names)
  | .apply migration, succeeded, d' => Commits (Deployment.apply migration) d succeeded d'
  | .record name, succeeded, d' => Commits (Deployment.record name) d succeeded d'
  | .act role table action, _, d' =>
      d' = { d with database := d.database.act role table action } ∨ d' = d

def deployWorld (Caller Row : Type) : World Caller (DeployOp Row) DeployOp.Resp where
  State := Deployment Row
  init := ⟨⟨initialCatalogue, fun _ => []⟩, none⟩
  exec := fun _ op d answer d' => Executes d op answer d'

/-- A run of `migrate.sh`, or a session of some role, which does what it likes. -/
inductive DeployCall
  | migrate
  | session

def IsAct (op : DeployOp Row) : Prop := ∃ role table action, op = .act role table action

def Deploys {Caller : Type} (calls : Caller → DeployCall) (i : Caller)
    (p : Prog (DeployOp Row) DeployOp.Resp Bool) : Prop :=
  match calls i with
  | .migrate => p = migrate
  | .session => p.Within IsAct

/-! ## The first scripts -/

/-- What the first `k` scripts make of the catalogue. -/
def catalogueAfter (k : Nat) : Option (Catalogue String) :=
  (migrations.take k).foldlM (fun c m => m.script.foldlM execute c) initialCatalogue

/-- A script that has been applied fails from then on: each of them creates something. -/
theorem applied_fails : ∀ k ≤ migrations.length, ∀ m ∈ migrations.take k,
    (catalogueAfter k).bind (fun c => m.script.foldlM execute c) = none := by
  decide +kernel

theorem names_nodup : (migrations.map Migration.name).Nodup := by
  decide +kernel

/-- The next script goes on from where the ones before it have led. -/
theorem catalogueAfter_next {done rest : List Migration} {m : Migration} {c : Catalogue String}
    (hsplit : migrations = done ++ m :: rest) (hc : catalogueAfter done.length = some c) :
    catalogueAfter (done.length + 1) = m.script.foldlM execute c := by
  have htake : migrations.take (done.length + 1) = done ++ [m] := by
    rw [hsplit, List.take_append, List.take_of_length_le (Nat.le_succ _)]
    simp
  have hdone : migrations.take done.length = done := by
    rw [hsplit, List.take_left]
  rw [catalogueAfter, hdone] at hc
  rw [catalogueAfter, htake, List.foldlM_append, hc]
  simp

theorem mem_take {done rest : List Migration} {m : Migration} {n : Nat}
    (hsplit : migrations = done ++ m :: rest) (hn : done.length < n) : m ∈ migrations.take n := by
  have htake : migrations.take n = done ++ (m :: rest).take (n - done.length) := by
    rw [hsplit, List.take_append, List.take_of_length_le (Nat.le_of_lt hn)]
  rw [htake, ← Nat.succ_pred_eq_of_pos (Nat.sub_pos_of_lt hn)]
  exact List.mem_append_right _ List.mem_cons_self

/-- A name among the first names is the name of one of the first scripts. -/
theorem lt_of_name_mem {done rest : List Migration} {m : Migration} {n : Nat}
    (hsplit : migrations = done ++ m :: rest)
    (hm : m.name ∈ (migrations.take n).map Migration.name) : done.length < n := by
  by_contra hle
  have hpre : migrations.take n <+: done := by
    rw [hsplit]
    exact List.take_append_of_le_length (Nat.not_lt.mp hle) ▸ List.take_prefix _ _
  have hdone : m.name ∈ done.map Migration.name :=
    List.map_subset _ hpre.subset hm
  have hnodup := names_nodup
  rw [hsplit, List.map_append, List.map_cons, List.nodup_append] at hnodup
  exact hnodup.2.2 _ hdone _ List.mem_cons_self rfl

/-! ## What every call keeps -/

/-- The first `k` scripts have been applied, and maybe more. -/
def AppliedAtLeast (k : Nat) (d : Deployment Row) : Prop :=
  ∃ n, k ≤ n ∧ n ≤ migrations.length ∧ catalogueAfter n = some d.database.catalogue

def Recorded (name : String) (d : Deployment Row) : Prop :=
  ∃ names, d.recorded = some names ∧ name ∈ names

/-- The first `n` scripts have been applied, whole, and nothing else has changed the catalogue;
what is recorded is among them, once each. -/
structure StandsAt (n : Nat) (d : Deployment Row) : Prop where
  le : n ≤ migrations.length
  catalogue : catalogueAfter n = some d.database.catalogue
  nodup : ∀ names, d.recorded = some names → names.Nodup
  recorded : ∀ names, d.recorded = some names →
    names ⊆ (migrations.take n).map Migration.name

def InOrder (d : Deployment Row) : Prop := ∃ n, StandsAt n d

/-- Nothing applied is lost, and nothing recorded. -/
def Advances (d d' : Deployment Row) : Prop :=
  (∀ k, AppliedAtLeast k d → AppliedAtLeast k d') ∧ ∀ name, Recorded name d → Recorded name d'

theorem Advances.refl (d : Deployment Row) : Advances d d :=
  ⟨fun _ h => h, fun _ h => h⟩

theorem Advances.trans {d d' d'' : Deployment Row} (h : Advances d d') (h' : Advances d' d'') :
    Advances d d'' :=
  ⟨fun k hk => h'.1 k (h.1 k hk), fun name hn => h'.2 name (h.2 name hn)⟩

theorem StandsAt.appliedAtLeast {n : Nat} {d : Deployment Row} (h : StandsAt n d) :
    AppliedAtLeast n d :=
  ⟨n, Nat.le_refl n, h.le, h.catalogue⟩

theorem AppliedAtLeast.mono {j k : Nat} {d : Deployment Row} (h : AppliedAtLeast k d)
    (hjk : j ≤ k) : AppliedAtLeast j d := by
  obtain ⟨n, hkn, hn, hc⟩ := h
  exact ⟨n, Nat.le_trans hjk hkn, hn, hc⟩

/-- What stands somewhere stands as far on as is known to be applied. -/
theorem InOrder.standsAt {k : Nat} {d : Deployment Row} (h : InOrder d)
    (hk : AppliedAtLeast k d) : ∃ n, k ≤ n ∧ StandsAt n d := by
  obtain ⟨n, hn⟩ := h
  obtain ⟨n', hkn, hle, hc⟩ := hk
  by_cases hnn : n ≤ n'
  · refine ⟨n', hkn, hle, hc, hn.nodup, fun names hnames => ?_⟩
    exact List.Subset.trans (hn.recorded names hnames)
      (List.map_subset _ (List.take_prefix_take_left hnn).subset)
  · exact ⟨n, Nat.le_trans hkn (Nat.le_of_not_le hnn), hn⟩

/-- A call that has no effect may fail too. -/
theorem Commits.keeps {σ : Type} {effect : σ → Option σ} {s s' : σ} {succeeded : Bool}
    {A : σ → Prop} (h : Commits effect s succeeded s') (heffect : ∀ t, effect s = some t → A t)
    (hs : A s) : A s' := by
  rcases h with h | ⟨-, rfl⟩
  · exact heffect s' h
  · exact hs

theorem createLedger_keeps {d d' : Deployment Row} (hd : InOrder d)
    (h : d.createLedger = some d') : InOrder d' ∧ Advances d d' := by
  obtain rfl := Option.some.inj h
  obtain ⟨n, hn⟩ := hd
  refine ⟨⟨n, hn.le, hn.catalogue, ?_, ?_⟩, fun k hk => hk, ?_⟩
  · intro names hnames
    obtain rfl := Option.some.inj hnames
    cases hr : d.recorded with
    | none => exact List.nodup_nil
    | some names => exact hn.nodup names hr
  · intro names hnames
    obtain rfl := Option.some.inj hnames
    cases hr : d.recorded with
    | none => exact List.nil_subset _
    | some names => exact hn.recorded names hr
  · rintro name ⟨names, hr, hname⟩
    exact ⟨names, by rw [hr]; rfl, hname⟩

/-- A script succeeds at its own place alone. -/
theorem apply_keeps {done rest : List Migration} {m : Migration} {d d' : Deployment Row}
    (hsplit : migrations = done ++ m :: rest) (hd : InOrder d)
    (hdone : AppliedAtLeast done.length d) (h : d.apply m = some d') :
    InOrder d' ∧ Advances d d' ∧ AppliedAtLeast (done.length + 1) d' := by
  obtain ⟨database, htransact, rfl⟩ := Option.map_eq_some_iff.mp h
  have hscript := Database.catalogue_of_transact htransact
  have hplace : ∀ n ≤ migrations.length, catalogueAfter n = some d.database.catalogue →
      n ≤ done.length := by
    intro n hn hc
    by_contra hlt
    have hfails := applied_fails n hn m (mem_take hsplit (Nat.not_le.mp hlt))
    rw [hc, Option.bind_some, hscript] at hfails
    cases hfails
  obtain ⟨n, hle, hn⟩ := hd.standsAt hdone
  obtain rfl := Nat.le_antisymm hle (hplace n hn.le hn.catalogue)
  have hnext : catalogueAfter (done.length + 1) = some database.catalogue := by
    rw [catalogueAfter_next hsplit hn.catalogue, hscript]
  have hlength : done.length + 1 ≤ migrations.length := by
    rw [hsplit]
    simp
  refine ⟨⟨done.length + 1, hlength, hnext, hn.nodup, fun names hnames => ?_⟩,
    ⟨fun k hk => ?_, fun name hname => hname⟩, ⟨_, Nat.le_refl _, hlength, hnext⟩⟩
  · exact List.Subset.trans (hn.recorded names hnames)
      (List.map_subset _ (List.take_prefix_take_left (Nat.le_succ _)).subset)
  · obtain ⟨n', hkn, hn', hc⟩ := hk
    exact ⟨_, Nat.le_succ_of_le (Nat.le_trans hkn (hplace n' hn' hc)), hlength, hnext⟩

/-- Only what has been applied is recorded. -/
theorem record_keeps {done rest : List Migration} {m : Migration} {d d' : Deployment Row}
    (hsplit : migrations = done ++ m :: rest) (hd : InOrder d)
    (hdone : AppliedAtLeast (done.length + 1) d) (h : d.record m.name = some d') :
    InOrder d' ∧ Advances d d' ∧ Recorded m.name d' := by
  obtain ⟨names, hnames, h⟩ := Option.bind_eq_some_iff.mp h
  obtain ⟨n, hlt, hn⟩ := hd.standsAt hdone
  split at h
  · cases h
  · rename_i hnew
    obtain rfl := Option.some.inj h
    refine ⟨⟨n, hn.le, hn.catalogue, ?_, ?_⟩, ⟨fun k hk => hk, ?_⟩, _, rfl, by simp⟩
    · intro names' hnames'
      obtain rfl := Option.some.inj hnames'
      exact List.nodup_append.mpr ⟨hn.nodup names hnames, List.nodup_singleton _, by
        rintro a ha b hb rfl
        exact hnew (List.mem_singleton.mp hb ▸ ha)⟩
    · intro names' hnames'
      obtain rfl := Option.some.inj hnames'
      refine List.append_subset.mpr ⟨hn.recorded names hnames, ?_⟩
      intro name hname
      obtain rfl := List.mem_singleton.mp hname
      exact List.mem_map_of_mem (mem_take hsplit hlt)
    · rintro name ⟨names', hnames', hname⟩
      obtain rfl := Option.some.inj (hnames.symm.trans hnames')
      exact ⟨_, rfl, List.mem_append_left _ hname⟩

theorem act_keeps {d : Deployment Row} (hd : InOrder d) (role : String)
    (table : TableName String) (action : Action Row) :
    InOrder { d with database := d.database.act role table action } ∧
      Advances d { d with database := d.database.act role table action } := by
  obtain ⟨n, hn⟩ := hd
  refine ⟨⟨n, hn.le, ?_, hn.nodup, hn.recorded⟩, fun k hk => ?_, fun name hname => hname⟩
  · rw [Database.catalogue_act]
    exact hn.catalogue
  · obtain ⟨n', hkn, hn', hc⟩ := hk
    exact ⟨n', hkn, hn', by rw [Database.catalogue_act]; exact hc⟩

/-! ## Every run -/

section Runs

/-- Before and behind every call the scripts are in order, and each run of `migrate.sh` relies on
the others losing nothing. -/
def deployLogic (Caller Row : Type) : Logic (deployWorld Caller Row) where
  Inv := InOrder
  Rely := fun _ => Advances
  Pre := fun _ _ => True
  inv_init := ⟨0, Nat.zero_le _, rfl, by rintro _ ⟨⟩, by rintro _ ⟨⟩⟩
  pre_init := fun _ => trivial
  rely_refl := fun _ => Advances.refl
  rely_trans := fun _ => Advances.trans
  pre_stable := fun _ _ _ _ _ => trivial

variable {Caller : Type} {calls : Caller → DeployCall} {i : Caller}

/-- What `migrate.sh` has done when it ends well. -/
def Migrated (d : Deployment Row) : Prop :=
  AppliedAtLeast migrations.length d ∧ ∀ m ∈ migrations, Recorded m.name d

theorem Migrated.advances {d d' : Deployment Row} (h : Migrated d) (hd : Advances d d') :
    Migrated d' :=
  ⟨hd.1 _ h.1, fun m hm => hd.2 _ (h.2 m hm)⟩

def MigratedIfTrue (calls : Caller → DeployCall) (i : Caller) (succeeded : Bool)
    (d : Deployment Row) : Prop :=
  calls i = .migrate → succeeded = true → Migrated d

/-- The run has come behind the scripts `done`. -/
structure Behind (done : List Migration) (d : Deployment Row) : Prop where
  inOrder : InOrder d
  applied : AppliedAtLeast done.length d
  recorded : ∀ m ∈ done, Recorded m.name d

theorem Behind.advances {done : List Migration} {d d' : Deployment Row} (h : Behind done d)
    (hd : Advances d d') (hd' : InOrder d') : Behind done d' :=
  ⟨hd', hd.1 _ h.applied, fun m hm => hd.2 _ (h.recorded m hm)⟩

theorem Behind.snoc {done : List Migration} {m : Migration} {d : Deployment Row}
    (h : Behind done d) (happlied : AppliedAtLeast (done.length + 1) d)
    (hrecorded : Recorded m.name d) : Behind (done ++ [m]) d where
  inOrder := h.inOrder
  applied := by
    rw [List.length_append]
    exact happlied
  recorded := by
    intro m' hm'
    rcases List.mem_append.mp hm' with hm' | hm'
    · exact h.recorded m' hm'
    · obtain rfl := List.mem_singleton.mp hm'
      exact hrecorded

theorem safe_failed (d : Deployment Row) :
    Safe (deployLogic Caller Row) (MigratedIfTrue calls i) i (.ret false) d :=
  fun _ _ _ _ h => by cases h

section Loop

variable {done rest : List Migration} {m : Migration}
  (hsplit : migrations = done ++ m :: rest)
  (hrest : ∀ d : Deployment Row, Behind (done ++ [m]) d →
    Safe (deployLogic Caller Row) (MigratedIfTrue calls i) i (migrateLoop rest) d)

include hsplit hrest

theorem record_safe {d : Deployment Row} (hd : Behind done d)
    (happlied : AppliedAtLeast (done.length + 1) d) :
    Safe (deployLogic Caller Row) (MigratedIfTrue calls i) i
      (.call (.record m.name) fun recorded : Bool =>
        if recorded then migrateLoop rest else .ret false) d := by
  intro t ht hit recorded u hx
  have hdt := hd.advances ht hit
  have happlied' := ht.1 _ happlied
  rcases hx with hx | ⟨rfl, rfl⟩
  · obtain ⟨hiu, hadv, hname⟩ := record_keeps hsplit hit happlied' hx
    refine ⟨hiu, fun _ _ => hadv, ?_⟩
    cases recorded with
    | false => exact safe_failed u
    | true => exact hrest u ((hdt.advances hadv hiu).snoc (hadv.1 _ happlied') hname)
  · exact ⟨hit, fun _ _ => Advances.refl _, safe_failed _⟩

theorem apply_safe {d : Deployment Row} (hd : Behind done d) :
    Safe (deployLogic Caller Row) (MigratedIfTrue calls i) i
      (.call (.apply m) fun applied : Bool =>
        if applied then
          .call (.record m.name) fun recorded : Bool =>
            if recorded then migrateLoop rest else .ret false
        else .ret false) d := by
  intro t ht hit applied u hx
  have hdt := hd.advances ht hit
  rcases hx with hx | ⟨rfl, rfl⟩
  · obtain ⟨hiu, hadv, happlied⟩ := apply_keeps hsplit hit hdt.applied hx
    refine ⟨hiu, fun _ _ => hadv, ?_⟩
    cases applied with
    | false => exact safe_failed u
    | true => exact record_safe hsplit hrest (hdt.advances hadv hiu) happlied
  · exact ⟨hit, fun _ _ => Advances.refl _, safe_failed _⟩

end Loop

/-- The loop, from the place it has come to. -/
theorem migrateLoop_safe {rest done : List Migration} (hsplit : migrations = done ++ rest)
    {d : Deployment Row} (hd : Behind done d) :
    Safe (deployLogic Caller Row) (MigratedIfTrue calls i) i (migrateLoop rest) d := by
  induction rest generalizing done d with
  | nil =>
      rw [List.append_nil] at hsplit
      subst hsplit
      intro t ht _ _ _
      exact Migrated.advances ⟨hd.applied, hd.recorded⟩ ht
  | cons m rest ih =>
      have hrest : ∀ d : Deployment Row, Behind (done ++ [m]) d →
          Safe (deployLogic Caller Row) (MigratedIfTrue calls i) i (migrateLoop rest) d :=
        fun d => ih (by rw [hsplit, List.append_assoc, List.singleton_append])
      rintro t ht hit found u ⟨rfl, hfound⟩
      have hdt := hd.advances ht hit
      refine ⟨hit, fun _ _ => Advances.refl _, ?_⟩
      cases found with
      | none => exact safe_failed u
      | some b =>
          obtain ⟨names, hnames, hmem⟩ := hfound b rfl
          cases b with
          | false => exact apply_safe hsplit hrest hdt
          | true =>
              -- What is recorded has been applied, by whoever recorded it.
              have hname := hmem.mp rfl
              obtain ⟨n, hn⟩ := hit
              have hlt := lt_of_name_mem hsplit (hn.recorded names hnames hname)
              exact hrest u (hdt.snoc (hn.appliedAtLeast.mono hlt) ⟨names, hnames, hname⟩)

theorem migrate_safe (d : Deployment Row) :
    Safe (deployLogic Caller Row) (MigratedIfTrue calls i) i migrate d := by
  intro t ht hit created u hx
  have hcreated : InOrder u ∧ Advances t u :=
    hx.keeps (fun _ => createLedger_keeps hit) ⟨hit, Advances.refl t⟩
  refine ⟨hcreated.1, fun _ _ => hcreated.2, ?_⟩
  cases created with
  | false => exact safe_failed u
  | true =>
      obtain ⟨n, hn⟩ := hcreated.1
      have hbehind : Behind [] u :=
        ⟨hcreated.1, hn.appliedAtLeast.mono (Nat.zero_le n), fun _ hm => by cases hm⟩
      exact migrateLoop_safe (List.nil_append _).symm hbehind

theorem session_safe (hi : calls i = .session) {p : Prog (DeployOp Row) DeployOp.Resp Bool}
    (hp : p.Within IsAct) (d : Deployment Row) :
    Safe (deployLogic Caller Row) (MigratedIfTrue calls i) i p d := by
  induction p generalizing d with
  | ret b =>
      intro _ _ _ hcall
      rw [hi] at hcall
      cases hcall
  | call op k ih =>
      obtain ⟨⟨role, table, action, rfl⟩, hk⟩ := hp
      intro t ht hit answer u hx
      have hkeeps : InOrder u ∧ Advances t u := by
        rcases hx with rfl | rfl
        · exact act_keeps hit role table action
        · exact ⟨hit, Advances.refl _⟩
      exact ⟨hkeeps.1, fun _ _ => hkeeps.2, ih answer (hk answer) u⟩

theorem deploys_safe {p : Prog (DeployOp Row) DeployOp.Resp Bool} (hp : Deploys calls i p)
    (d : Deployment Row) : Safe (deployLogic Caller Row) (MigratedIfTrue calls i) i p d := by
  unfold Deploys at hp
  split at hp
  · subst hp
    exact migrate_safe d
  · rename_i hi
    exact session_safe hi hp d

variable [DecidableEq Caller]
  {c : Config (deployWorld Caller Row) Bool}

theorem inOrder_of_reachable (hc : Reachable (deployWorld Caller Row) (Deploys calls) c) :
    InOrder c.state :=
  (Logic.reachable_safe (deployLogic Caller Row) (MigratedIfTrue calls)
    (fun _ _ hp d _ _ => deploys_safe hp d) hc).1

/-- **Whole scripts, in their order, each once.** Whatever runs of `migrate.sh` overlap, fail or
are cut off, the catalogue is what the first scripts make of it, what is recorded is among them
without repetition, and a run that has ended well has all of them applied and recorded. -/
theorem migrated_in_order (calls : Caller → DeployCall) (c : Config (deployWorld Caller Row) Bool)
    (hc : Reachable (deployWorld Caller Row) (Deploys calls) c) :
    (∃ n ≤ migrations.length, catalogueAfter n = some c.state.database.catalogue ∧
      ∀ names, c.state.recorded = some names →
        names.Nodup ∧ names ⊆ (migrations.take n).map Migration.name) ∧
    ∀ i, calls i = .migrate → c.procs i = some (.ret true) →
      catalogueAfter migrations.length = some c.state.database.catalogue ∧
      ∃ names, c.state.recorded = some names ∧ names.Perm (migrations.map Migration.name) := by
  obtain ⟨n, hn⟩ := inOrder_of_reachable hc
  refine ⟨⟨n, hn.le, hn.catalogue, fun names h => ⟨hn.nodup names h, hn.recorded names h⟩⟩, ?_⟩
  intro i hi hret
  have hmigrated : Migrated c.state :=
    Logic.reachable_post (deployLogic Caller Row) (MigratedIfTrue calls)
      (fun _ _ hp d _ _ => deploys_safe hp d) hc hret hi rfl
  obtain ⟨⟨k, hk, hle, hcatalogue⟩, hrecorded⟩ := hmigrated
  obtain rfl := Nat.le_antisymm hle hk
  refine ⟨hcatalogue, ?_⟩
  cases hnames : c.state.recorded with
  | none =>
      obtain ⟨names, hnames', -⟩ := hrecorded _ List.mem_cons_self
      exact absurd (hnames.symm.trans hnames') (by simp)
  | some names =>
      refine ⟨names, rfl, (List.perm_ext_iff_of_nodup (hn.nodup names hnames) names_nodup).mpr ?_⟩
      intro name
      constructor
      · intro hname
        exact List.map_subset _ (List.take_subset _ _) (hn.recorded names hnames hname)
      · intro hname
        obtain ⟨m, hm, rfl⟩ := List.mem_map.mp hname
        obtain ⟨names', hnames', hmem⟩ := hrecorded m hm
        obtain rfl := Option.some.inj (hnames.symm.trans hnames')
        exact hmem

end Runs

/-! ### A database that answers -/

/-- The command has its effect, or fails without one. -/
def answered {σ : Type} (effect : σ → Option σ) (s : σ) : Bool × σ :=
  match effect s with
  | some t => (true, t)
  | none => (false, s)

theorem commits_answered {σ : Type} (effect : σ → Option σ) (s : σ) :
    Commits effect s (answered effect s).1 (answered effect s).2 := by
  unfold answered
  split
  · rename_i h
    exact Or.inl h
  · exact Or.inr ⟨rfl, rfl⟩

def answering : (op : DeployOp Row) → Deployment Row → op.Resp × Deployment Row
  | .createLedger, d => answered Deployment.createLedger d
  | .lookup name, d => (d.recorded.map fun names => decide (name ∈ names), d)
  | .apply migration, d => answered (Deployment.apply migration) d
  | .record name, d => answered (Deployment.record name) d
  | .act role table action, d => ((), { d with database := d.database.act role table action })

theorem executes_answering (op : DeployOp Row) (d : Deployment Row) :
    Executes d op (answering op d).1 (answering op d).2 := by
  cases op with
  | createLedger => exact commits_answered Deployment.createLedger d
  | lookup name =>
      refine ⟨rfl, fun b hb => ?_⟩
      obtain ⟨names, hnames, rfl⟩ := Option.map_eq_some_iff.mp hb
      exact ⟨names, hnames, decide_eq_true_iff⟩
  | apply migration => exact commits_answered (Deployment.apply migration) d
  | record name => exact commits_answered (Deployment.record name) d
  | act role table action => exact Or.inl rfl

def sampleCalls : Nat → DeployCall
  | 0 => .migrate
  | _ + 1 => .session

/-- The first run. -/
theorem migrated_first : ∃ c : Config (deployWorld Nat Nat) Bool,
    Reachable (deployWorld Nat Nat) (Deploys sampleCalls) c ∧
      c.state = (migrate.run answering (deployWorld Nat Nat).init).2 ∧
      c.procs 0 = some (.ret true) ∧ ∀ j, j ≠ 0 → c.procs j = none := by
  obtain ⟨c, hc, hstate, hret, hother⟩ := reachable_alone (W := deployWorld Nat Nat) (i := 0)
    executes_answering .init rfl (p := migrate) (show Deploys sampleCalls 0 migrate from rfl)
  refine ⟨c, hc, hstate, ?_, hother⟩
  have htrue : (migrate.run answering (deployWorld Nat Nat).init).1 = true := by decide +kernel
  exact hret.trans (congrArg (fun b => some (Prog.ret b)) htrue)

/-- It ends well, with every script applied and recorded. -/
theorem migrated_in_order_first : ∃ c : Config (deployWorld Nat Nat) Bool,
    catalogueAfter migrations.length = some c.state.database.catalogue ∧
      ∃ names, c.state.recorded = some names ∧ names.Perm (migrations.map Migration.name) := by
  obtain ⟨c, hc, -, hret, -⟩ := migrated_first
  exact ⟨c, (migrated_in_order sampleCalls c hc).2 0 rfl hret⟩

end ZeroSecret.Deploy
