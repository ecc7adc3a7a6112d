import VbaLint.Failure
import VbaLint.Text.Blank
import VbaLint.Text.Caseless

/-!
# Severities and categories

A severity says how serious a finding is. A category groups rules for presentation.
-/

namespace VbaLint

open Text

/-- How serious a finding is, from the least to the most. -/
inductive Severity where
  | hint
  | suggestion
  | warning
  | error
  deriving DecidableEq, Repr, Hashable, Inhabited

namespace Severity

/-- Every severity, from the least to the most serious. -/
def all : List Severity := [hint, suggestion, warning, error]

def label : Severity → String
  | hint => "hint"
  | suggestion => "suggestion"
  | warning => "warning"
  | error => "error"

def rank : Severity → Nat
  | hint => 0
  | suggestion => 1
  | warning => 2
  | error => 3

/-- The less serious comes first. -/
def order (left right : Severity) : Ordering := compare left.rank right.rank

/-- The severity is `minimum` or more serious. -/
def atLeast (severity minimum : Severity) : Bool := minimum.rank ≤ severity.rank

def ofLabel? (text : String) : Option Severity := all.find? fun severity ↦ severity.label == text

/-- Read a severity as the user writes it: in any ASCII case, with blanks around it. -/
def parse (text : String) : Except Failure Severity :=
  match all.find? fun severity ↦ sameName severity.label (trimString text) with
  | some severity => .ok severity
  | none =>
    .error <| .invalidArgument <|
      "unknown severity '" ++ text ++ "' (expected hint, suggestion, warning or error)"

end Severity

inductive Category where
  | codeQualityIssues
  | languageOpportunities
  | maintainabilityAndReadabilityIssues
  deriving DecidableEq, Repr, Inhabited

namespace Category

def all : List Category :=
  [codeQualityIssues, languageOpportunities, maintainabilityAndReadabilityIssues]

def label : Category → String
  | codeQualityIssues => "CodeQualityIssues"
  | languageOpportunities => "LanguageOpportunities"
  | maintainabilityAndReadabilityIssues => "MaintainabilityAndReadabilityIssues"

def title : Category → String
  | codeQualityIssues => "Code Quality Issues"
  | languageOpportunities => "Language Opportunities"
  | maintainabilityAndReadabilityIssues => "Maintainability and Readability Issues"

def ofLabel? (text : String) : Option Category := all.find? fun category ↦ category.label == text

def rank : Category → Nat
  | codeQualityIssues => 0
  | languageOpportunities => 1
  | maintainabilityAndReadabilityIssues => 2

def order (left right : Category) : Ordering := compare left.rank right.rank

end Category

end VbaLint
