import VbaLint.Proofs.Project.Binding

/-!
# Where declarations come from

Every declaration of a project is that of one of its modules or what a node of one of them declares.
So the node of a variable is always one item of a variable statement.
-/

namespace VbaLint

open Tree

/-- The declaration is that of one of the modules, or what one of its nodes declares. -/
def Declaration.StemsFrom (modules : List ScopedModule) (declaration : Declaration) : Prop :=
  ∃ module ∈ modules, module.name = declaration.module ∧
    (declaration.kind = .module ∨
      ∃ declared, module.tree.declared? declaration.node = some declared ∧
        declared.kind = declaration.kind)

namespace Declaring

variable {modules : List ScopedModule} {state : Declaring} {module : ScopedModule}

/-- All declarations so far come from the modules. -/
def Grounded (modules : List ScopedModule) (state : Declaring) : Prop :=
  ∀ declaration ∈ state.declarations, declaration.StemsFrom modules

/-- The declaration of a module comes from the module. -/
theorem Grounded.beginModule (h : state.Grounded modules) (hmodule : module ∈ modules) :
    (state.beginModule module).Grounded modules := by
  intro declaration hdeclaration
  rcases Array.mem_push.1 hdeclaration with hold | rfl
  · exact h declaration hold
  · exact ⟨module, hmodule, rfl, .inl rfl⟩

/-- A declared name comes from a node of its module. -/
theorem Grounded.declareNode (h : state.Grounded modules) (hmodule : module ∈ modules)
    (moduleId node : Nat) : (declareNode module moduleId state node).Grounded modules := by
  unfold Declaring.declareNode
  cases hdeclared : module.tree.declared? node with
  | none => exact h
  | some declared =>
    intro declaration hdeclaration
    rcases Array.mem_push.1 hdeclaration with hold | rfl
    · exact h declaration hold
    · exact ⟨module, hmodule, rfl, .inr ⟨declared, hdeclared, rfl⟩⟩

theorem grounded_ofModules (modules : List ScopedModule) :
    (ofModules modules).Grounded modules := by
  apply ofModules_induct (P := Grounded modules) (Q := fun _ _ ↦ Grounded modules)
  · intro declaration hdeclaration
    cases Array.not_mem_empty declaration hdeclaration
  · exact fun module hmodule state hstate ↦ hstate.beginModule hmodule
  · intro module hmodule moduleId state node hstate
    exact hstate.declareNode hmodule moduleId node
  · exact fun _ _ _ _ hstate ↦ hstate

end Declaring

/-- Every declaration comes from a node of a module. -/
theorem stemsFrom_of_mem_bindNames {modules : List ScopedModule} {declaration : Declaration}
    (h : declaration ∈ bindNames modules) : declaration.StemsFrom modules := by
  obtain ⟨id, hid⟩ := Array.mem_iff_getElem?.1 h
  -- References are all that is added to what was declared.
  have hadded := getElem?_foldl_addReference
    (referencesOf (Declaring.ofModules modules).scopes modules)
    (Declaring.ofModules modules).declarations id
  obtain ⟨bare, hbare, rfl⟩ := Option.map_eq_some_iff.1 (hadded.symm.trans hid)
  exact Declaring.grounded_ofModules modules bare (Array.mem_of_getElem? hbare)

theorem kind?_of_declaredVariable {tree : SyntaxTree} {id : Nat} {declared : Declared}
    (h : tree.declared? id = some declared) (hkind : declared.kind = .variableItem) :
    tree.kind? id = some .variableSubStmt := by
  obtain ⟨node, hnode, h⟩ := Option.bind_eq_some_iff.1 h
  rw [SyntaxTree.kind?, hnode, Option.map_some]
  split at h
  case h_6 =>
    rw [kind_of_declaredParameter? h] at hkind
    cases hkind
  case h_7 hnode => rw [hnode]
  case h_8 =>
    rw [kind_of_declaredConstant? h] at hkind
    cases hkind
  case h_9 | h_10 =>
    rw [kind_of_declaredBlock? h] at hkind
    split at hkind <;> cases hkind
  case h_11 => cases h
  all_goals
    rw [kind_of_declaredMember? h] at hkind
    cases hmember : node.kind <;> rw [hmember] at hkind <;> cases hkind

/-- The node of a variable is one item of a variable statement. -/
theorem kind?_of_variable {modules : List ScopedModule} {declaration : Declaration}
    (h : declaration ∈ bindNames modules) (hkind : declaration.kind = .variableItem) :
    ∃ module ∈ modules, module.name = declaration.module ∧
      module.tree.kind? declaration.node = some .variableSubStmt := by
  obtain ⟨module, hmodule, hname, hmade⟩ := stemsFrom_of_mem_bindNames h
  refine ⟨module, hmodule, hname, ?_⟩
  rcases hmade with hmade | ⟨declared, hdeclared, hsame⟩
  · rw [hkind] at hmade
    cases hmade
  · exact kind?_of_declaredVariable hdeclared (hsame.trans hkind)

end VbaLint
