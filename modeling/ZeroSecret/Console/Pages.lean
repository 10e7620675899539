import ZeroSecret.Console.Html

/-!
# The pages of the console

`page` of `html.ts` and the page functions of `server.ts`. Most pages are
templates within templates: an inner one is written first and put into the
outer one as a raw fragment, so that a user's text stands in a fragment that is
not escaped again.
-/

namespace ZeroSecret.Console

/-- A literal of a template. -/
def lit (s : String) : Option CodeUnits := some (CodeUnits.ofString s)

/-- A text of the source. -/
def Value.ofText (s : String) : Value := .string (CodeUnits.ofString s)

/-- What `JSON.parse` gives; a number is kept by what `String` makes of it. -/
inductive JsonValue
  | null
  | bool (b : Bool)
  | number (text : CodeUnits)
  | string (value : CodeUnits)
  | array (elements : List JsonValue)
  | object (members : List (CodeUnits × JsonValue))

/-- A member stands in the place of the method that `String` calls. -/
def toStringMember (members : List (CodeUnits × JsonValue)) : Bool :=
  members.any fun m => m.1 = CodeUnits.ofString "toString"

mutual

/-- The value, interpolated; none where `String` of it throws. -/
def Value.ofJson : JsonValue → Option Value
  | .null => some .null
  | .bool b => some (.other (CodeUnits.ofString (if b then "true" else "false")))
  | .number text => some (.other text)
  | .string value => some (.string value)
  | .array elements => (Value.ofJsons elements).map .array
  | .object members => if toStringMember members then none else some (.other objectText)

def Value.ofJsons : List JsonValue → Option (List Value)
  | [] => some []
  | j :: js => (Value.ofJson j).bind fun v => (Value.ofJsons js).map fun vs => v :: vs

end

def page (title body : CodeUnits) : CodeUnits :=
  html [lit ("<!doctype html>\n<html lang=\"fr\">\n<head>\n<meta charset=\"utf-8\">\n" ++
      "<meta name=\"viewport\" content=\"width=device-width, initial-scale=1\">\n<title>"),
    lit "</title>\n</head>\n<body>\n", lit "\n</body>\n</html>"] [.string title, .rawHtml body]

def registerPage : CodeUnits :=
  page (CodeUnits.ofString "Enregistrement — console")
    (html [lit ("<h1>Enregistrement d'un authentificateur</h1>\n" ++
      "<p>Le sujet est accepté tel quel dans ce lot — aucun mécanisme d'invitation n'est instruit\n" ++
      "   (ADR-023, angle mort documenté).</p>\n<form id=\"register-form\">\n" ++
      "<label>Identifiant du sujet <input type=\"text\" name=\"subject_id\" required " ++
      "autocomplete=\"username\"></label>\n<button type=\"submit\">S'enregistrer</button>\n</form>\n" ++
      "<p id=\"register-status\" role=\"status\"></p>\n" ++
      "<script type=\"module\" src=\"/static/webauthn.js\" data-flow=\"register\"></script>")] [])

def loginPage : CodeUnits :=
  page (CodeUnits.ofString "Connexion — console")
    (html [lit ("<h1>Connexion</h1>\n<form id=\"login-form\">\n" ++
      "<label>Identifiant du sujet <input type=\"text\" name=\"subject_id\" required " ++
      "autocomplete=\"username\"></label>\n<button type=\"submit\">Se connecter</button>\n</form>\n" ++
      "<p id=\"login-status\" role=\"status\"></p>\n" ++
      "<script type=\"module\" src=\"/static/webauthn.js\" data-flow=\"login\"></script>")] [])

def navBar (subjectId : CodeUnits) : CodeUnits :=
  html [lit "<p>Connecté comme <strong>",
    lit ("</strong> —\n<a href=\"/access-request\">Demande d'accès</a> · " ++
      "<a href=\"/quorum\">Quorum</a> ·\n" ++
      "<form method=\"post\" action=\"/logout\" style=\"display:inline\">" ++
      "<button type=\"submit\">Se déconnecter</button></form></p>")] [.string subjectId]

def accessRequestPage (subjectId : CodeUnits) : CodeUnits :=
  page (CodeUnits.ofString "Demande d'accès — console")
    (html [lit "<h1>Demande d'accès</h1>\n",
      lit ("\n<form method=\"post\" action=\"/access-request\">\n" ++
        "<label>Verbe <input type=\"text\" name=\"verb\" required " ++
        "placeholder=\"db.connect\"></label>\n" ++
        "<label>Type de ressource <input type=\"text\" name=\"resource_type\" required " ++
        "placeholder=\"Database\"></label>\n" ++
        "<label>Identifiant de ressource <input type=\"text\" name=\"resource_id\" required></label>\n" ++
        "<label>Domaine d'autorité de la ressource <input type=\"text\" " ++
        "name=\"resource_authority_domain\" required></label>\n" ++
        "<label>Justification <textarea name=\"justification\" required maxlength=\"512\">" ++
        "</textarea></label>\n" ++
        "<label>Référence de ticket <input type=\"text\" name=\"ticket_ref\" required></label>\n" ++
        "<button type=\"submit\">Demander l'accès</button>\n</form>")]
      [.rawHtml (navBar subjectId)])

/-- An element of a list, marked as raw. -/
def listItem (v : Value) : Value := .rawHtml (html [lit "<li>", lit "</li>"] [v])

structure Decision where
  allowed : Bool
  reasons : List Value
  policyVersion : Option CodeUnits

def accessDecisionPage (subjectId : CodeUnits) (decision : Decision) : CodeUnits :=
  page (CodeUnits.ofString "Décision — console")
    (html [lit "<h1>", lit "</h1>\n<p>Connecté comme <strong>", lit "</strong></p>\n<ul>",
        lit "</ul>\n<p><a href=\"/access-request\">Nouvelle demande</a></p>"]
      [.ofText (if decision.allowed then "Accès autorisé" else "Accès refusé"),
        .string subjectId, .array (decision.reasons.map listItem)])

def quorumPage : CodeUnits :=
  page (CodeUnits.ofString "Quorum — console")
    (html [lit ("<h1>Vérification de quorum</h1>\n" ++
      "<p>Chaque assertion a déjà été réunie hors bande (une par porteur) — ce formulaire " ++
      "ne collecte\n   rien en temps réel, il relaie un lot déjà complet vers admin-api " ++
      "(portée assumée, L2.6b).</p>\n" ++
      "<form method=\"post\" action=\"/quorum\">\n" ++
      "<label>Identifiant de l'opération <input type=\"text\" name=\"operation_id\" required></label>\n" ++
      "<label>Seuil (minimum 2) <input type=\"number\" name=\"threshold\" min=\"2\" value=\"2\" " ++
      "required></label>\n" ++
      "<label>Domaine d'autorité attendu <input type=\"text\" name=\"expected_authority_domain\" " ++
      "required></label>\n" ++
      "<label>Assertions (une par ligne, base64 standard)\n" ++
      "<textarea name=\"assertions\" required rows=\"6\"></textarea></label>\n" ++
      "<button type=\"submit\">Vérifier le quorum</button>\n</form>\n" ++
      "<p><a href=\"/access-request\">Retour</a></p>")] [])

structure QuorumResult where
  reached : Bool
  distinctSubjects : List Value

def quorumResultPage (operationId : CodeUnits) (result : QuorumResult) : CodeUnits :=
  page (CodeUnits.ofString "Résultat du quorum — console")
    (html [lit "<h1>", lit "</h1>\n<p>Opération <strong>",
        lit "</strong></p>\n<p>Porteurs distincts vérifiés :</p>\n<ul>",
        lit "</ul>\n<p><a href=\"/quorum\">Nouvelle vérification</a></p>"]
      [.ofText (if result.reached then "Quorum atteint" else "Quorum non atteint"),
        .string operationId, .array (result.distinctSubjects.map listItem)])

/-- The pages of the `catch` of `handleAccessRequestSubmit`. -/
def requestRefusedPage (message : CodeUnits) : CodeUnits :=
  page (CodeUnits.ofString "Demande refusée")
    (html [lit "<p>Requête invalide : ", lit "</p>"] [.string message])

def brokerUnavailablePage : CodeUnits :=
  page (CodeUnits.ofString "Service indisponible")
    (html [lit "<p>access-broker est indisponible.</p>"] [])

/-- The pages of the `catch` of `handleQuorumSubmit`. -/
def quorumRefusedPage (reason : CodeUnits) : CodeUnits :=
  page (CodeUnits.ofString "Quorum refusé")
    (html [lit "<p>", lit "</p><p><a href=\"/quorum\">Retour</a></p>"] [.string reason])

def quorumInvalidPage (message : CodeUnits) : CodeUnits :=
  page (CodeUnits.ofString "Quorum refusé")
    (html [lit "<p>Requête invalide : ", lit "</p><p><a href=\"/quorum\">Retour</a></p>"]
      [.string message])

def adminUnavailablePage : CodeUnits :=
  page (CodeUnits.ofString "Service indisponible")
    (html [lit "<p>admin-api est indisponible.</p>"] [])

/-! ## Values without markup -/

/-- Nothing in the value is marked as raw where that would be looked at. -/
def Value.RawFree : Value → Prop
  | rawHtml _ => False
  | array elements => ∀ v ∈ elements, ∀ fragment, v ≠ rawHtml fragment
  | _ => True

theorem ofJson_ne_rawHtml {j : JsonValue} {v : Value} (h : Value.ofJson j = some v)
    (fragment : CodeUnits) : v ≠ .rawHtml fragment := by
  rintro rfl
  cases j with
  | null | bool | number | string => cases h
  | array elements =>
      obtain ⟨vs, -, heq⟩ := Option.map_eq_some_iff.mp h
      cases heq
  | object members =>
      rw [Value.ofJson] at h
      split at h <;> cases h

/-- Each value of a list comes from an element. -/
theorem mem_ofJsons {js : List JsonValue} {vs : List Value} (h : Value.ofJsons js = some vs) :
    ∀ v ∈ vs, ∃ j ∈ js, Value.ofJson j = some v := by
  induction js generalizing vs with
  | nil =>
      obtain rfl := Option.some.inj h
      intro v hv
      cases hv
  | cons j js ih =>
      obtain ⟨v, hj, h⟩ := Option.bind_eq_some_iff.mp h
      obtain ⟨vs, hjs, rfl⟩ := Option.map_eq_some_iff.mp h
      intro w hw
      rcases List.mem_cons.mp hw with rfl | hw
      · exact ⟨j, List.mem_cons_self, hj⟩
      · obtain ⟨j', hj', hw⟩ := ih hjs w hw
        exact ⟨j', List.mem_cons_of_mem j hj', hw⟩

/-- JSON marks nothing as raw. -/
theorem rawFree_ofJson {j : JsonValue} {v : Value} (h : Value.ofJson j = some v) : v.RawFree := by
  cases j with
  | null | bool | number | string =>
      obtain rfl := Option.some.inj h
      trivial
  | array elements =>
      obtain ⟨vs, hvs, rfl⟩ := Option.map_eq_some_iff.mp h
      intro v hv fragment
      obtain ⟨j, -, hj⟩ := mem_ofJsons hvs v hv
      exact ofJson_ne_rawHtml hj fragment
  | object members =>
      rw [Value.ofJson] at h
      split at h
      · cases h
      · obtain rfl := Option.some.inj h
        trivial

theorem markup_append (s t : CodeUnits) : markup (s ++ t) = markup s ++ markup t :=
  List.filter_append ..

theorem markup_element {v : Value} (h : ∀ fragment, v ≠ .rawHtml fragment) :
    markup (element v) = [] := by
  cases v with
  | rawHtml fragment => exact absurd rfl (h fragment)
  | string | null | undefined | other | array => exact markup_escapeHtml _

theorem markup_interpolated {v : Value} (h : v.RawFree) : markup (interpolated v) = [] := by
  cases v with
  | rawHtml fragment => exact h.elim
  | array elements =>
      rw [interpolated, markup, List.filter_flatten, List.map_map, List.flatten_eq_nil_iff]
      intro s hs
      obtain ⟨v, hv, rfl⟩ := List.mem_map.mp hs
      exact markup_element (h v hv)
  | string | null | undefined | other => exact markup_escapeHtml _

/-! ## Templates with the same markup -/

/-- Interpolated, the two bring the same markup. -/
def Alike (v w : Value) : Prop := markup (interpolated v) = markup (interpolated w)

theorem alike_of_rawFree {v w : Value} (hv : v.RawFree) (hw : w.RawFree) : Alike v w :=
  (markup_interpolated hv).trans (markup_interpolated hw).symm

theorem alike_rawHtml {s t : CodeUnits} (h : markup s = markup t) :
    Alike (.rawHtml s) (.rawHtml t) := h

theorem markup_htmlLoop (strings : List (Option CodeUnits)) {vs ws : List Value}
    (h : List.Forall₂ Alike vs ws) (i : Nat) {out out' : CodeUnits}
    (hout : markup out = markup out') :
    markup (htmlLoop strings vs i out) = markup (htmlLoop strings ws i out') := by
  induction h generalizing i out out' with
  | nil => exact hout
  | cons hvw _ ih =>
      rw [htmlLoop, htmlLoop]
      apply ih
      rw [markup_append, markup_append, markup_append, markup_append, hout, hvw]

theorem markup_html (strings : List (Option CodeUnits)) {vs ws : List Value}
    (h : List.Forall₂ Alike vs ws) : markup (html strings vs) = markup (html strings ws) :=
  markup_htmlLoop strings h 0 rfl

theorem alike_listItem {v w : Value} (hv : v.RawFree) (hw : w.RawFree) :
    Alike (listItem v) (listItem w) :=
  alike_rawHtml (markup_html _ (.cons (alike_of_rawFree hv hw) .nil))

/-- Lists of one length with items of no markup of their own. -/
theorem alike_items {vs : List Value} (h : ∀ v ∈ vs, v.RawFree) :
    Alike (.array (vs.map listItem)) (.array ((vs.map fun _ => .string []).map listItem)) := by
  induction vs with
  | nil => exact rfl
  | cons v vs ih =>
      have hhead : Alike (listItem v) (listItem (.string [])) :=
        alike_listItem (h v List.mem_cons_self) trivial
      have htail := ih fun w hw => h w (List.mem_cons_of_mem v hw)
      rw [Alike, interpolated, interpolated] at htail ⊢
      rw [List.map_cons, List.map_cons, List.map_cons, List.map_cons, List.map_cons,
        List.flatten_cons, List.flatten_cons, markup_append, markup_append, htail]
      exact congrArg (· ++ _) hhead

theorem markup_page (title title' : CodeUnits) {body body' : CodeUnits}
    (h : markup body = markup body') : markup (page title body) = markup (page title' body') :=
  markup_html _ (.cons (alike_of_rawFree trivial trivial) (.cons (alike_rawHtml h) .nil))

/-! ## What the pages have in common -/

/-- A page with what is put into it. -/
inductive Page
  | register
  | login
  | accessRequest (subjectId : CodeUnits)
  | accessDecision (subjectId : CodeUnits) (decision : Decision)
  | quorum
  | quorumResult (operationId : CodeUnits) (result : QuorumResult)
  | requestRefused (message : CodeUnits)
  | brokerUnavailable
  | quorumRefused (reason : CodeUnits)
  | quorumInvalid (message : CodeUnits)
  | adminUnavailable

namespace Page

def text : Page → CodeUnits
  | register => registerPage
  | login => loginPage
  | accessRequest subjectId => accessRequestPage subjectId
  | accessDecision subjectId decision => accessDecisionPage subjectId decision
  | quorum => quorumPage
  | quorumResult operationId result => quorumResultPage operationId result
  | requestRefused message => requestRefusedPage message
  | brokerUnavailable => brokerUnavailablePage
  | quorumRefused reason => quorumRefusedPage reason
  | quorumInvalid message => quorumInvalidPage message
  | adminUnavailable => adminUnavailablePage

/-- The page with every text left out; a list keeps its length. -/
def blank : Page → Page
  | accessRequest _ => accessRequest []
  | accessDecision _ decision =>
      accessDecision [] ⟨false, decision.reasons.map fun _ => .string [], none⟩
  | quorumResult _ result =>
      quorumResult [] ⟨false, result.distinctSubjects.map fun _ => .string []⟩
  | requestRefused _ => requestRefused []
  | quorumRefused _ => quorumRefused []
  | quorumInvalid _ => quorumInvalid []
  | p => p

/-- Nothing in the page is marked as raw but by the page itself. -/
def Plain : Page → Prop
  | accessDecision _ decision => ∀ v ∈ decision.reasons, v.RawFree
  | quorumResult _ result => ∀ v ∈ result.distinctSubjects, v.RawFree
  | _ => True

end Page

theorem markup_navBar (subjectId subjectId' : CodeUnits) :
    markup (navBar subjectId) = markup (navBar subjectId') :=
  markup_html _ (.cons (alike_of_rawFree trivial trivial) .nil)

/-- **The markup of a page is that of its kind.** Whoever is logged in, whatever was asked
and whatever a backend answered, the tags of a page are those it has with every text left
out. -/
theorem Page.markup_text {p : Page} (h : p.Plain) : markup p.text = markup p.blank.text := by
  have htext : ∀ v w : CodeUnits, Alike (.string v) (.string w) :=
    fun v w => alike_of_rawFree trivial trivial
  cases p with
  | register | login | quorum | brokerUnavailable | adminUnavailable => rfl
  | accessRequest subjectId =>
      apply markup_page
      apply markup_html
      exact .cons (alike_rawHtml (markup_navBar subjectId [])) .nil
  | accessDecision subjectId decision =>
      apply markup_page
      apply markup_html
      exact .cons (htext _ _) (.cons (htext _ _) (.cons (alike_items h) .nil))
  | quorumResult operationId result =>
      apply markup_page
      apply markup_html
      exact .cons (htext _ _) (.cons (htext _ _) (.cons (alike_items h) .nil))
  | requestRefused message | quorumRefused message | quorumInvalid message =>
      apply markup_page
      apply markup_html
      exact .cons (htext _ _) .nil

end ZeroSecret.Console
