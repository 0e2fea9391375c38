/-
This file reads and writes named properties, verdicts and reports as JSON.
-/

import PetriLogic.Formula.Json
import PetriLogic.Verification.Report

namespace PetriLogic

open Json (Member Reader Value)

namespace NamedProperty

def fields : List (Member NamedProperty) :=
  [.ofReader "name" true Json.text fun name named => { named with name },
    .ofReader "formula" true Property.reader fun property named => { named with property }]

def reader : Reader NamedProperty := Json.record "NamedFormula" fields ⟨"", .place, .truth⟩

def toJson (named : NamedProperty) : Value :=
  .object [("name", .text named.name), ("formula", named.property.toJson)]

end NamedProperty

namespace Verdict

def fields : List (Member Verdict) :=
  [.ofReader "name" true Json.text fun name verdict => { verdict with name },
    .ofReader "formula" true Json.text fun formula verdict => { verdict with formula },
    .ofReader "holds" true Json.boolean fun holds verdict => { verdict with holds }]

def reader : Reader Verdict := Json.record "Verdict" fields ⟨"", "", false⟩

def toJson (verdict : Verdict) : Value :=
  .object [("name", .text verdict.name), ("formula", .text verdict.formula),
    ("holds", .boolean verdict.holds)]

end Verdict

namespace Report

/-- A run id is written in lower case. -/
def runIdReader : Reader String
  | .text (some value) =>
      if RunId.isValid value then pure (String.ofList (value.toList.map Char.toLower))
      else throw (.refused "UUID parsing failed")
  | tree => throw (Json.mismatch "a UUID string" tree)

def fields : List (Member Report) :=
  [.ofReader "run_id" true runIdReader fun runId report => { report with runId },
    .ofReader "net" true Json.text fun net report => { report with net },
    .ofReader "start" true Json.text fun start report => { report with start },
    .ofReader "paths" true Json.size fun paths report => { report with paths },
    .ofReader "verdicts" true (Json.list Verdict.reader) fun verdicts report =>
      { report with verdicts }]

def reader : Reader Report := Json.record "Report" fields ⟨"", "", "", 0, []⟩

def toJson (report : Report) : Value :=
  .object [("run_id", .text report.runId), ("net", .text report.net),
    ("start", .text report.start), ("paths", .natural report.paths),
    ("verdicts", .list (report.verdicts.map Verdict.toJson))]

end Report

end PetriLogic
