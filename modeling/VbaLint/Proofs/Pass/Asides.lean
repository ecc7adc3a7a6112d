import VbaLint.Proofs.Module.Asides
import VbaLint.Proofs.Pass.Configuration
import VbaLint.Proofs.Rules.Placeless

/-!
# Passes over texts with asides

A blank line or a comment that is put into a module moves what is found behind it, and has no other
influence on a pass: the same rules report the same nodes with the same messages.
-/

namespace VbaLint

open Source Statement Text Tree

theorem Tree.SyntaxTree.MovesTo.placeless_eq {insertion : Insertion} {left right : SyntaxTree}
    (h : left.MovesTo insertion right) : left.placeless = right.placeless := by
  apply SyntaxTree.eq_of_node?_eq
  intro id
  rw [SyntaxTree.node?_placeless, SyntaxTree.node?_placeless]
  cases hnode : left.node? id with
  | none => rw [SyntaxTree.node?_eq_none_of_size_eq h.size_eq hnode]
  | some node =>
    obtain ⟨selection, hnode', -⟩ := h.node? hnode
    rw [hnode']
    rfl

/-- A text and the text with an aside in it are read alike but for places. -/
theorem placeless_readModule_aside (component : String) {before line : String}
    (hbefore : EndsLine before.toList) (hline : IsAside line.toList) (behind : String) :
    (readModule component (before ++ behind)).placeless =
      (readModule component (before ++ line ++ "\n" ++ behind)).placeless := by
  obtain ⟨htree, hannotations⟩ := readModule_aside component hbefore hline behind
  rw [ParsedModule.placeless, ParsedModule.placeless, htree.placeless_eq, hannotations, List.map_map]
  rfl

/-- The findings of passes over projects whose texts agree but for places agree but for places. -/
theorem Runner.findings_agree_but_for_places (config : Config) (project : String)
    {left right : List ModuleText}
    (h : List.Forall₂ ModuleText.SameButPlaces left right) (version version' : Nat) :
    (builtInSet config ((Assembly.ofModules project left).build version)).findings.map Finding.placeless =
      (builtInSet config ((Assembly.ofModules project right).build version')).findings.map
        Finding.placeless := by
  rw [← placeless_findings_builtInSet, Assembly.placeless_build_eq project h version version',
    placeless_findings_builtInSet]

/-- Blank lines and comments have no influence on the tree. Let a line without statements and directives be
put into a text at a place between two lines of which the earlier does not continue. Then the tree has the
same nodes, with the same numbers, kinds, texts and links, and the annotations have the same targets. In all
ranges but that of the root the numbers of the lines behind the place are greater by one, and the others
stay. Under every configuration a pass over a project with the one text has the findings of a pass over the
project with the other, in the same order, with the same rules, severities, messages and nodes. -/
theorem asides_have_no_influence (component : String) {before line : String}
    (hbefore : EndsLine before.toList) (hline : IsAside line.toList) (behind : String) :
    let plain := before ++ behind
    let full := before ++ line ++ "\n" ++ behind
    (readModule component plain).tree.MovesTo (asideBehind before) (readModule component full).tree ∧
      (readModule component full).annotations =
        (readModule component plain).annotations.map (·.moved (asideBehind before)) ∧
      ∀ (config : Config) (project : String) (type : ComponentType) (earlier later : List ModuleText)
        (version version' : Nat) (order order' : List Nat),
        let pass (text : String) (version : Nat) (order : List Nat) :=
          ((Runner.ofCatalog .builtIn config).runPassIn order
            ((Assembly.ofModules project (earlier ++ ⟨component, type, text⟩ :: later)).build version)
            .clear).1
        ∃ set set' : ResultSet, pass plain version order = .ok set ∧ pass full version' order' = .ok set' ∧
          set.findings.map Finding.placeless = set'.findings.map Finding.placeless := by
  intro plain full
  obtain ⟨htree, hannotations⟩ := readModule_aside component hbefore hline behind
  refine ⟨htree, hannotations, ?_⟩
  intro config project type earlier later version version' order order' pass
  have hmodule : ModuleText.SameButPlaces ⟨component, type, plain⟩ ⟨component, type, full⟩ :=
    ⟨rfl, rfl, placeless_readModule_aside component hbefore hline behind⟩
  have hmodules : List.Forall₂ ModuleText.SameButPlaces (earlier ++ ⟨component, type, plain⟩ :: later)
      (earlier ++ ⟨component, type, full⟩ :: later) :=
    List.rel_append (List.forall₂_same.2 fun module _ ↦ .refl module)
      (.cons hmodule (List.forall₂_same.2 fun module _ ↦ .refl module))
  exact ⟨_, _, Runner.runPassIn_builtIn config order _, Runner.runPassIn_builtIn config order' _,
    Runner.findings_agree_but_for_places config project hmodules version version'⟩

/-- A comment as one would write it behind the options of a module. -/
theorem isAside_checked : IsAside "  ' checked".toList :=
  @isAside_of_apostrophe "  ".toList " checked".toList (by decide) (List.all_eq_true.1 (by decide))
    (by decide) (by decide +kernel)

theorem comment_has_no_influence :
    EndsLine "Option Base 1\n".toList ∧ IsAside "  ' checked".toList ∧
      (readModule "Main" ("Option Base 1\n" ++ "Dim total\n")).tree.MovesTo ⟨1, 1⟩
        (readModule "Main" ("Option Base 1\n" ++ "  ' checked" ++ "\n" ++ "Dim total\n")).tree ∧
      ∃ set set' : ResultSet,
        ((Runner.ofCatalog .builtIn .default).runPassIn []
          ((Assembly.ofModules "Ledger"
            [⟨"Main", .standardModule, "Option Base 1\n" ++ "Dim total\n"⟩]).build 1) .clear).1 = .ok set ∧
        ((Runner.ofCatalog .builtIn .default).runPassIn [2, 0]
          ((Assembly.ofModules "Ledger" [⟨"Main", .standardModule,
            "Option Base 1\n" ++ "  ' checked" ++ "\n" ++ "Dim total\n"⟩]).build 7) .clear).1 = .ok set' ∧
        set.findings.map Finding.placeless = set'.findings.map Finding.placeless := by
  have hbefore : EndsLine "Option Base 1\n".toList := .of_getLast? (by decide) (by decide)
  have hlines : asideBehind "Option Base 1\n" = ⟨1, 1⟩ := by decide
  obtain ⟨htree, -, hpasses⟩ :=
    asides_have_no_influence "Main" hbefore isAside_checked "Dim total\n"
  rw [hlines] at htree
  exact ⟨hbefore, isAside_checked, htree,
    hpasses .default "Ledger" .standardModule [] [] 1 7 [] [2, 0]⟩

end VbaLint
