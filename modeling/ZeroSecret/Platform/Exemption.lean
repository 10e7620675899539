import ZeroSecret.Base.Rego

/-!
# `exemption.rego`: the context of an evaluation and the exemptions

An exemption is a label of the service it is for: the rule it lifts is in the
key, a reference to a decision record and a review date are in the value.
Everything is read from the input, also the date of the evaluation.
-/

namespace ZeroSecret.Platform

open Rego

/-! ## Access to the input -/

/-- `services`, undefined when `compose` or its services are not objects. -/
def services (input : Value) : Option (List (String × Value)) :=
  (input.get "compose").bind fun compose => compose.getObject "services"

/-- `service_objects` -/
def serviceObjects (input : Value) : List (String × Value) :=
  ((services input).getD []).filter fun service => service.2.isObject

/-! ## Context -/

def knownEnvironments : List String := ["dev", "staging", "production"]

def maxExemptionDays : Int := 366

def maxExemptionNs : Int := maxExemptionDays * 24 * 3600 * 1000000000

def minJustificationChars : Nat := 32

/-- Rules that no exemption lifts. -/
def nonExemptable : List String := ["PLT-000", "PLT-003"]

def digit : Regex := .char Char.isDigit

/-- `0[1-9]|1[0-2]` -/
def month : Regex :=
  .oneOf [.seq (.text "0") (.char fun c => '1' ≤ c && c ≤ '9'),
    .seq (.text "1") (.char fun c => '0' ≤ c && c ≤ '2')]

/-- `0[1-9]|[12][0-9]|3[01]` -/
def dayOfMonth : Regex :=
  .oneOf [.seq (.text "0") (.char fun c => '1' ≤ c && c ≤ '9'),
    .seq (.char fun c => '1' ≤ c && c ≤ '2') digit,
    .seq (.text "3") (.char fun c => '0' ≤ c && c ≤ '1')]

/-- `20[0-9]{2}-(?:0[1-9]|1[0-2])-(?:0[1-9]|[12][0-9]|3[01])` -/
def isoDate : Regex :=
  .all [.text "20", digit, digit, .text "-", month, .text "-", dayOfMonth]

def isoDateAnchored : Regex := .all [.startOfText, isoDate, .endOfText]

/-- `evaluated_at_ns` -/
def evaluatedAtNs (input : Value) : Option Int := do
  let context ← input.get "context"
  let evaluatedAt ← context.getString "evaluated_at"
  if isoDateAnchored.search (Json.chars evaluatedAt) then parseNs (Json.chars evaluatedAt) else none

/-- `input.context.environment`, when it is a string. -/
def environment (input : Value) : Option String :=
  (input.get "context").bind fun context => context.getString "environment"

def validContext (input : Value) : Bool :=
  (evaluatedAtNs input).isSome && (environment input).any (· ∈ knownEnvironments)

/-! ## Exemptions -/

def exemptionLabelPrefix : String := "io.zero-secret.exemption."

/-- `key` -/
def exemptionLabel (ruleId : String) : String := exemptionLabelPrefix ++ ruleId

/-- The labels of a service, as an object only. -/
def labelsOf (input : Value) (service : String) : Option (List (String × Value)) :=
  ((serviceObjects input).lookup service).bind fun svc => svc.getObject "labels"

/-- `reexamen=(…)` -/
def reviewMarker : Regex := .seq (.text "reexamen=") (.group 1 isoDate)

/-- `ADR-[0-9]{3,}` -/
def adrReference : Regex := .seq (.text "ADR-") (digit.atLeast 3)

/-- Undefined when the marker is absent, ambiguous or not a date. -/
def reviewDate (j : List Char) : Option Int :=
  match reviewMarker.findAll j with
  | [captures] => (captures.lookup 1).bind parseNs
  | _ => none

/-- `justification_valid` -/
def justificationValid (input text : Value) : Bool :=
  match text.string? with
  | none => false
  | some text =>
      let j := trimSpace (Json.chars text)
      minJustificationChars ≤ j.length && adrReference.search j &&
        match evaluatedAtNs input, reviewDate j with
        | some now, some review => now < review && review - now ≤ maxExemptionNs
        | _, _ => false

def exempted (input : Value) (ruleId service : String) : Bool :=
  ruleId ∉ nonExemptable && validContext input && environment input == some "dev" &&
    match (labelsOf input service).bind (List.lookup (exemptionLabel ruleId)) with
    | some value => justificationValid input value
    | none => false

end ZeroSecret.Platform
