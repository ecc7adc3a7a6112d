import VbaLint.Rules.ObjectVariableNotSet
import VbaLint.Rules.ObsoleteLetStatement
import VbaLint.Rules.OptionBase
import VbaLint.Rules.OptionExplicit
import VbaLint.Rules.VariableNotUsed
import VbaLint.Text.Quoted

/-!
# Catalogs of rules

A catalog makes rules from configurations. It lists them by name, and so in the order of their results
in a pass. No two of its names agree in all but ASCII case.
-/

namespace VbaLint

open Text

abbrev RuleFactory (σ : Type) := Config → Inspection σ

structure Catalog (σ : Type) where
  factories : NameTable (RuleFactory σ)

namespace Catalog

variable {σ : Type}

def empty : Catalog σ := ⟨.empty⟩

def builtIn : Catalog Collector :=
  ⟨.ofList
    [(ObjectVariableNotSet.info.name, fun config ↦
        ObjectVariableNotSet.inspection (config.settingsFor ObjectVariableNotSet.info.name)),
      (ObsoleteLetStatement.info.name, fun _ ↦ ObsoleteLetStatement.inspection),
      (OptionBase.info.name, fun _ ↦ OptionBase.inspection),
      (OptionExplicit.info.name, fun _ ↦ OptionExplicit.inspection),
      (VariableNotUsed.info.name, fun _ ↦ VariableNotUsed.inspection)]⟩

def names (catalog : Catalog σ) : List String := catalog.factories.names

def listing (catalog : Catalog σ) : String :=
  "\x7b" ++ ", ".intercalate (catalog.names.map quoted) ++ "\x7d"

/-- The catalog has a rule of the name, in any ASCII case. -/
def contains (catalog : Catalog σ) (name : String) : Bool := catalog.names.any (sameName name)

def register (catalog : Catalog σ) (name : String) (factory : RuleFactory σ) :
    Except Failure (Catalog σ) :=
  if catalog.contains name then
    .error <| .invalidArgument <| "inspection '" ++ name ++ "' is already registered"
  else .ok ⟨catalog.factories.insert name factory⟩

def instantiate (catalog : Catalog σ) (config : Config) : List (Inspection σ) :=
  catalog.factories.entries.map fun entry ↦ entry.2 config

/-- The rules that the configuration leaves enabled under their names in the catalog. -/
def instantiateEnabled (catalog : Catalog σ) (config : Config) : List (Inspection σ) :=
  (catalog.factories.entries.filter fun entry ↦ config.isEnabled entry.1).map fun entry ↦
    entry.2 config

def unknownNames (catalog : Catalog σ) (config : Config) : List String :=
  config.mentionedNames.filter fun name ↦ !catalog.contains name

end Catalog

end VbaLint
