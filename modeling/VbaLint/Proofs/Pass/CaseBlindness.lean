import VbaLint.Proofs.Pass.Configuration
import VbaLint.Proofs.Rules.Lowering

/-!
# Texts in other cases

A pass of the built-in rules does not tell the cases of ASCII letters apart. Texts that differ in
them alone have the same findings at the same places, in the same order; only the names that
findings mention are spelled as the texts spell them.
-/

namespace VbaLint

open Source Text

/-- The same component, of the same type, with a text that differs in the case of ASCII letters
alone. -/
structure ModuleText.SameButCase (left right : ModuleText) : Prop where
  component : left.component = right.component
  type : left.type = right.type
  text : sameName left.text right.text = true

theorem ModuleText.SameButCase.lowered_eq {left right : ModuleText} (h : left.SameButCase right) :
    left.lowered = right.lowered := by
  have htext : lowerAscii left.text.toList = lowerAscii right.text.toList := eq_of_beq h.text
  rw [lowered, lowered, h.component, h.type, lowerAsciiString, htext, lowerAsciiString]

theorem ModuleText.map_lowered_eq {left right : Option ModuleText}
    (h : Option.Rel SameButCase left right) : left.map lowered = right.map lowered := by
  cases h with
  | some hsame => exact congrArg some hsame.lowered_eq
  | none => rfl

/-- Targets of one kind at one place, whose names differ in the case of ASCII letters alone. -/
inductive Target.SameButCase : Target → Target → Prop where
  | context (module : ModuleName) (node : Nat) (selection : Selection) :
    SameButCase (.context module node selection) (.context module node selection)
  | reference (module : ModuleName) (node : Nat) (selection : Selection)
      {identifier identifier' : String} (h : sameName identifier identifier' = true)
      (declaration : Nat) :
    SameButCase (.reference module node selection identifier declaration)
      (.reference module node selection identifier' declaration)

/-- Findings of one rule at one place, whose messages and names differ in the case of ASCII letters
alone. -/
structure Finding.SameButCase (left right : Finding) : Prop where
  inspection : left.inspection = right.inspection
  category : left.category = right.category
  severity : left.severity = right.severity
  message : sameName left.message right.message = true
  target : left.target.SameButCase right.target

theorem Target.sameButCase_of_lowered_eq {left right : Target} (h : left.lowered = right.lowered) :
    left.SameButCase right := by
  cases left with
  | context module node selection =>
    cases right with
    | context module' node' selection' =>
      cases h
      exact .context module node selection
    | reference => cases h
  | reference module node selection identifier declaration =>
    cases right with
    | context => cases h
    | reference module' node' selection' identifier' declaration' =>
      injection h with hmodule hnode hselection hidentifier hdeclaration
      subst hmodule hnode hselection hdeclaration
      exact .reference module node selection (sameName_of_lowerAsciiString_eq hidentifier)
        declaration

theorem Finding.sameButCase_of_lowered_eq {left right : Finding}
    (h : left.lowered = right.lowered) : left.SameButCase right := by
  obtain ⟨inspection, category, severity, message, target, version⟩ := left
  obtain ⟨inspection', category', severity', message', target', version'⟩ := right
  injection h with hinspection hcategory hseverity hmessage htarget
  exact ⟨hinspection, hcategory, hseverity, sameName_of_lowerAsciiString_eq hmessage,
    Target.sameButCase_of_lowered_eq htarget⟩

namespace RunOutcome

theorem findings_lowered (outcome : RunOutcome) :
    outcome.lowered.findings = outcome.findings.map Finding.lowered := by
  cases outcome <;> rfl

end RunOutcome

/-- In a snapshot and in its lowered form built-in rules find the same but for case. -/
theorem Runner.lowered_findings_builtInSet (config : Config) {snapshot : Snapshot}
    (h : snapshot.IsRead) :
    (builtInSet config snapshot.lowered).findings.map Finding.lowered =
      (builtInSet config snapshot).findings.map Finding.lowered := by
  have hrule := forall_mem_ofCatalog (Catalog.isCaseless_builtIn config)
  apply map_findings_builtInSet
  intro rule hmem
  rw [← RunOutcome.findings_lowered, ← RunOutcome.findings_lowered]
  exact congrArg RunOutcome.findings (hrule rule hmem ⟨snapshot, config.overrides⟩ rule.state h)

/-- A pass does not tell the cases of ASCII letters apart. Let two projects have the same components
of the same types, the later of two with one name counting, with texts that differ in the case of
ASCII letters alone. Under every configuration a pass of the built-in rules over the one has as many
findings as a pass over the other, and they agree one by one: in rule, category, severity, module,
node, selection and declaration, and but for case in the message and the identifier. -/
theorem findings_agree_but_for_case (config : Config) {project : String}
    {left right : List ModuleText}
    (h : ∀ component, Option.Rel ModuleText.SameButCase
      (left.reverse.find? (·.component == component))
      (right.reverse.find? (·.component == component)))
    (version version' : Nat) (order order' : List Nat) :
    let pass (modules : List ModuleText) (version : Nat) (order : List Nat) :=
      ((Runner.ofCatalog .builtIn config).runPassIn order
        ((Assembly.ofModules project modules).build version) .clear).1
    ∃ set set' : ResultSet,
      pass left version order = .ok set ∧ pass right version' order' = .ok set' ∧
      List.Forall₂ Finding.SameButCase set.findings set'.findings := by
  intro pass
  let snapshot := (Assembly.ofModules project left).build version
  let snapshot' := (Assembly.ofModules project right).build version'
  have hsnapshots : snapshot.lowered = snapshot'.lowered :=
    Assembly.lowered_build_eq (fun component ↦ ModuleText.map_lowered_eq (h component)) version
      version'
  have hfindings : (Runner.builtInSet config snapshot).findings.map Finding.lowered =
      (Runner.builtInSet config snapshot').findings.map Finding.lowered := by
    rw [← Runner.lowered_findings_builtInSet config (Assembly.isRead_build project left version),
      hsnapshots, Runner.lowered_findings_builtInSet config
        (Assembly.isRead_build project right version')]
  refine ⟨Runner.builtInSet config snapshot, Runner.builtInSet config snapshot',
    Runner.runPassIn_builtIn config order snapshot,
    Runner.runPassIn_builtIn config order' snapshot', ?_⟩
  rw [← List.forall₂_eq_eq_eq, List.forall₂_map_left_iff, List.forall₂_map_right_iff] at hfindings
  exact hfindings.imp fun _ _ ↦ Finding.sameButCase_of_lowered_eq

def ledger : List ModuleText :=
  [⟨"Main", .classModule, ""⟩, ⟨"Main", .standardModule, "Dim Total As Worksheet"⟩]

/-- The module as it was given last, with other letters in capitals. -/
def respelledLedger : List ModuleText := [⟨"Main", .standardModule, "DIM TOTAL as worksheet"⟩]

theorem findings_agree_in_capitals :
    (∀ component, Option.Rel ModuleText.SameButCase
      (ledger.reverse.find? (·.component == component))
      (respelledLedger.reverse.find? (·.component == component))) ∧
    ∃ set set' : ResultSet,
      ((Runner.ofCatalog .builtIn .default).runPassIn []
        ((Assembly.ofModules "Ledger" ledger).build 1) .clear).1 = .ok set ∧
      ((Runner.ofCatalog .builtIn .default).runPassIn [2, 0]
        ((Assembly.ofModules "Ledger" respelledLedger).build 7) .clear).1 = .ok set' ∧
      List.Forall₂ Finding.SameButCase set.findings set'.findings := by
  have hsame : ModuleText.SameButCase ⟨"Main", .standardModule, "Dim Total As Worksheet"⟩
      ⟨"Main", .standardModule, "DIM TOTAL as worksheet"⟩ := ⟨rfl, rfl, by decide⟩
  have hmodules : ∀ component, Option.Rel ModuleText.SameButCase
      (ledger.reverse.find? (·.component == component))
      (respelledLedger.reverse.find? (·.component == component)) := by
    intro component
    cases hmain : "Main" == component with
    | true => simpa [ledger, respelledLedger, hmain] using hsame
    | false => simp [ledger, respelledLedger, hmain]
  exact ⟨hmodules, findings_agree_but_for_case .default hmodules 1 7 [] [2, 0]⟩

end VbaLint
