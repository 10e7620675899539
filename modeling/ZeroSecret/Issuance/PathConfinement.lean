import ZeroSecret.Base.LexicalPath
import ZeroSecret.Issuance.Binding

/-!
# Where the issuer's token is sent

`openBaoPath` puts the resource id of an order behind `database/creds/`, and
the OpenBao client cleans the path it is given. Nothing between the broker and
the client looks at the id, so it says where the request goes.
-/

namespace ZeroSecret.Issuance

open Crypto Policy Interleave LexicalPath

/-- The request goes to one role of the database engine. -/
def Confined (path : String) : Prop :=
  ∃ segment : List Char, segment ≠ [] ∧ '/' ∉ segment ∧
    clean (Json.chars path) = Json.chars "database/creds/" ++ segment

/-- Whatever the order makes the issuer ask of OpenBao is confined. -/
def EmissionConfined (P : Primitives) (engine : PolicyEngine) (order : EmissionOrder) : Prop :=
  ∀ path ttl, Prog.Issues (answers P engine) (Issuer.emit order) (.issueLease path ttl) →
    Confined path

/-- Where a resource id leads from the directory of the roles. -/
def roleOf (resourceId : String) : Place Name := resolve (elements (Json.chars resourceId))

def databaseName : Name := Json.chars "database"

def credsName : Name := Json.chars "creds"

/-- The id leads to one role: directly, or out of the directory and back. -/
def NamesOneRole (resourceId : String) : Prop :=
  ∃ role, roleOf resourceId = ⟨0, [role]⟩ ∨ roleOf resourceId = ⟨1, [role, credsName]⟩ ∨
    roleOf resourceId = ⟨2, [role, credsName, databaseName]⟩

theorem proper_database : Proper databaseName := by
  constructor <;> decide

theorem proper_creds : Proper credsName := by
  constructor <;> decide

/-- The path of an id leads to its place below the engine. -/
theorem resolve_openBaoPath (resourceId : String) :
    resolve (elements (Json.chars ("database/creds/" ++ resourceId))) =
      Place.below ⟨0, [credsName, databaseName]⟩ (roleOf resourceId) := by
  have hpath : Json.chars ("database/creds/" ++ resourceId) =
      Json.chars "database/creds" ++ '/' :: Json.chars resourceId := by
    simp only [Json.chars_eq_toList, String.toList_append]
    rfl
  rw [hpath, elements, List.splitOn_append_cons_self, resolve_append]
  rfl

/-- **Three ways to one role.** -/
theorem below_engine_iff (q : Place Name) (role : Name) :
    Place.below ⟨0, [credsName, databaseName]⟩ q = ⟨0, [role, credsName, databaseName]⟩ ↔
      q = ⟨0, [role]⟩ ∨ q = ⟨1, [role, credsName]⟩ ∨ q = ⟨2, [role, credsName, databaseName]⟩ := by
  constructor
  · intro h
    have hups := congrArg Place.ups h
    have hnames := congrArg Place.names h
    obtain ⟨ups, names⟩ := q
    match ups with
    | 0 =>
        have hback : names ++ [credsName, databaseName] = [role] ++ [credsName, databaseName] :=
          hnames
        exact Or.inl (congrArg (Place.mk 0) (List.append_cancel_right hback))
    | 1 =>
        have hback : names ++ [databaseName] = [role, credsName] ++ [databaseName] := hnames
        exact Or.inr (Or.inl (congrArg (Place.mk 1) (List.append_cancel_right hback)))
    | 2 =>
        have hback : names ++ [] = [role, credsName, databaseName] := hnames
        rw [List.append_nil] at hback
        exact Or.inr (Or.inr (congrArg (Place.mk 2) hback))
    | n + 3 =>
        -- above the root of the engine there is no way back
        have habove : 0 + (n + 3 - 2) = 0 := hups
        omega
  · rintro (rfl | rfl | rfl)
    · rfl
    · rfl
    · rfl

theorem confined_iff (resourceId : String) :
    Confined ("database/creds/" ++ resourceId) ↔ NamesOneRole resourceId := by
  have hrelative : (Json.chars ("database/creds/" ++ resourceId)).head? ≠ some '/' := by
    rw [Json.chars_eq_toList, String.toList_append]
    change some 'd' ≠ some '/'
    decide
  have hjoin : ∀ segment : Name,
      join [databaseName, credsName, segment] = Json.chars "database/creds/" ++ segment := by
    intro segment
    have hparts : Json.chars "database/creds/" = databaseName ++ '/' :: (credsName ++ ['/']) := by
      decide
    rw [hparts]
    simp [join, List.intercalate]
  have hclean : ∀ segment : Name, '/' ∉ segment →
      (clean (Json.chars ("database/creds/" ++ resourceId)) =
        Json.chars "database/creds/" ++ segment ↔
      roleOf resourceId = ⟨0, [segment]⟩ ∨ roleOf resourceId = ⟨1, [segment, credsName]⟩ ∨
        roleOf resourceId = ⟨2, [segment, credsName, databaseName]⟩) := by
    intro segment hslash
    rw [← below_engine_iff, ← resolve_openBaoPath, ← hjoin]
    apply clean_eq_join_iff hrelative (List.cons_ne_nil _ _)
    · intro n hn
      rcases List.mem_cons.mp hn with rfl | hn
      · exact proper_database.noSlash
      · rcases List.mem_cons.mp hn with rfl | hn
        · exact proper_creds.noSlash
        · rw [List.mem_singleton.mp hn]
          exact hslash
    · intro h
      cases h
    · intro h
      exact proper_database.ne_dotDot (Option.some.inj h)
  constructor
  · rintro ⟨segment, -, hslash, h⟩
    exact ⟨segment, (hclean segment hslash).mp h⟩
  · rintro ⟨role, h⟩
    have hrole : Proper role := by
      apply @proper_of_mem (Json.chars resourceId)
      change role ∈ (roleOf resourceId).names
      rcases h with h | h | h
      · rw [h]
        exact List.mem_cons_self
      · rw [h]
        exact List.mem_cons_self
      · rw [h]
        exact List.mem_cons_self
    exact ⟨role, hrole.ne_nil, hrole.noSlash, (hclean role hrole.noSlash).mpr h⟩

/-- **Emission is confined exactly** when the order is not issued, or its
resource id leads to one role of the database engine. -/
theorem emission_confined_iff (P : Primitives) (engine : PolicyEngine) (order : EmissionOrder) :
    EmissionConfined P engine order ↔
      ∀ d, order.decision = some d → (engine.verifyDecision P (some d)).valid = true →
        d.effect = effectAllow → order.verb = "db.connect" → NamesOneRole order.resourceId := by
  constructor
  · intro hconfined d hd hvalid hallow hverb
    rw [← confined_iff]
    exact hconfined _ _ (emit_issues_iff.mpr ⟨d, hd, hvalid, hallow, hverb, rfl, rfl⟩)
  · intro h path ttl hissues
    obtain ⟨d, hd, hvalid, hallow, hverb, rfl, -⟩ := emit_issues_iff.mp hissues
    exact (confined_iff order.resourceId).mpr (h d hd hvalid hallow hverb)

/-! ### A database nobody has -/

/-- The nominal request, for a resource id that leads out of the engine. -/
def escapingRequest : DecisionRequest :=
  { nominalRequest with
    resource := some ⟨"Database", "../../auth/token/create", "corp.eu-west", .production⟩ }

def escapingEvaluation : Evaluation := ⟨escapingRequest, .asWritten, 1787500805⟩

/-- The policy engine allows it, and its seal is genuine. -/
def escapingDecision : DecisionResponse :=
  { escapingEvaluation.response .standard sampleEngine with
    issuedAt := some ⟨1787500805, 0⟩
    decisionSignature :=
      (hexDecode ("d9e6a28144ab08601f95fe286596c7eb8dadad8e8a2924e416a29582dcfd36ce" ++
        "bfb79e2d798868df398a274794b6022efb2bb8cacccfb2183dc2e35d4ab57181")).getD []
    decisionSignatureKeyId := keyIdFromPublicKey .standard sampleKey }

def escapingOrder : EmissionOrder :=
  { nominalOrder with
    resourceId := "../../auth/token/create"
    decision := some escapingDecision }

theorem escapingDecision_granted :
    (sampleEngine.verifyDecision .standard (some escapingDecision)).valid = true ∧
      escapingDecision.effect = effectAllow := by
  rw [escapingDecision, sampleEngine, Primitives.standard_eq_evaluated]
  decide +kernel

/-- The order names what was decided, and sends the token to `auth/token/create`. -/
theorem escapingOrder_not_confined :
    Names escapingOrder escapingRequest ∧
      clean (Json.chars "database/creds/../../auth/token/create") =
        Json.chars "auth/token/create" ∧
      ¬ EmissionConfined .standard sampleEngine escapingOrder := by
  refine ⟨⟨_, _, rfl, rfl, rfl, rfl, rfl, rfl⟩, by decide, ?_⟩
  intro hconfined
  obtain ⟨hvalid, hallow⟩ := escapingDecision_granted
  have hissues : Prog.Issues (answers .standard sampleEngine) (Issuer.emit escapingOrder)
      (.issueLease "database/creds/../../auth/token/create" (ttlSecondsOf escapingDecision)) :=
    emit_issues_iff.mpr ⟨escapingDecision, rfl, hvalid, hallow, rfl, rfl, rfl⟩
  obtain ⟨segment, -, -, hclean⟩ := hconfined _ _ hissues
  have hfirst : (clean (Json.chars "database/creds/../../auth/token/create")).head? = some 'd' := by
    rw [hclean]
    rfl
  exact absurd hfirst (by decide)

end ZeroSecret.Issuance
