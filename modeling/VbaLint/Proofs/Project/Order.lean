import VbaLint.Proofs.Project.Navigation
import VbaLint.Proofs.Tree.Visits

/-!
# The order of declarations

The declarations of a project are numbered module by module, and within a module as a walk comes to the
nodes that declare something. So the members of a module are numbered in the order of their nodes.
-/

namespace VbaLint

open Tree

def Declaration.place (declaration : Declaration) : ModuleName × Nat :=
  (declaration.module, declaration.node)

/-- Where the declarations of a module stand: its own at the root, then one at each declaring node. -/
def ScopedModule.declaringPlaces (module : ScopedModule) : List (ModuleName × Nat) :=
  (module.name, 0) ::
    (module.tree.preorder.filter fun node ↦ (module.tree.declared? node).isSome).map (module.name, ·)

namespace Declaring

variable {modules : List ScopedModule} {state : Declaring}

theorem places_declareNode (module : ScopedModule) (moduleId node : Nat) :
    (declareNode module moduleId state node).declarations.toList.map Declaration.place =
      state.declarations.toList.map Declaration.place ++
        if (module.tree.declared? node).isSome then [(module.name, node)] else [] := by
  unfold declareNode
  cases module.tree.declared? node with
  | none => simp
  | some declared => simp [Declaration.place]

theorem places_declareModule (module : ScopedModule) :
    (state.declareModule module).declarations.toList.map Declaration.place =
      state.declarations.toList.map Declaration.place ++ module.declaringPlaces := by
  have hnodes (moduleId : Nat) (nodes : List Nat) (begun : Declaring) :
      (nodes.foldl (declareNode module moduleId) begun).declarations.toList.map Declaration.place =
        begun.declarations.toList.map Declaration.place ++
          (nodes.filter fun node ↦ (module.tree.declared? node).isSome).map (module.name, ·) := by
    induction nodes generalizing begun with
    | nil => simp
    | cons node rest ih =>
      rw [List.foldl_cons, ih, places_declareNode, List.filter_cons, List.append_assoc]
      split <;> rfl
  have hbegun : (state.beginModule module).declarations.toList.map Declaration.place =
      state.declarations.toList.map Declaration.place ++ [(module.name, 0)] := by
    simp [beginModule, moduleDeclaration, Declaration.place]
  rw [declareModule, hnodes, hbegun, List.append_assoc, ScopedModule.declaringPlaces]
  rfl

theorem places_ofModules (modules : List ScopedModule) :
    (ofModules modules).declarations.toList.map Declaration.place =
      modules.flatMap ScopedModule.declaringPlaces := by
  have hrest (rest : List ScopedModule) (state : Declaring) :
      (rest.foldl declareModule state).declarations.toList.map Declaration.place =
        state.declarations.toList.map Declaration.place ++
          rest.flatMap ScopedModule.declaringPlaces := by
    induction rest generalizing state with
    | nil => simp
    | cons module rest ih =>
      rw [List.foldl_cons, ih, places_declareModule, List.flatMap_cons, List.append_assoc]
  exact hrest modules _

end Declaring

/-- The declarations stand, in their order, at the modules and their declaring nodes. -/
theorem places_bindNames {modules : List ScopedModule} (hnames : (modules.map (·.name)).Nodup) :
    (bindNames modules).toList.map Declaration.place =
      modules.flatMap ScopedModule.declaringPlaces := by
  rw [← Declaring.places_ofModules, ← map_withoutReferences_bindNames hnames, Array.toList_map,
    List.map_map]
  rfl

/-- A member is declared by a node of a member. -/
theorem isProcedure_of_declared? {tree : SyntaxTree} {id : Nat} {declared : Declared}
    (h : tree.declared? id = some declared) (hkind : declared.kind.isMember = true) :
    ∃ kind, tree.kind? id = some kind ∧ kind.isProcedure = true := by
  obtain ⟨node, hnode, h⟩ := Option.bind_eq_some_iff.1 h
  refine ⟨node.kind, by rw [SyntaxTree.kind?, hnode, Option.map_some], ?_⟩
  split at h
  case h_6 =>
    rw [kind_of_declaredParameter? h] at hkind
    cases hkind
  case h_7 =>
    rw [kind_of_declaredVariable? h] at hkind
    cases hkind
  case h_8 =>
    rw [kind_of_declaredConstant? h] at hkind
    cases hkind
  case h_9 | h_10 =>
    rw [kind_of_declaredBlock? h] at hkind
    split at hkind <;> cases hkind
  case h_11 => cases h
  all_goals
    next hmember => rw [hmember]; rfl

namespace Snapshot.IsRead

variable {snapshot : Snapshot} (h : snapshot.IsRead)
include h

/-- The node of a member is that of a member of its module. -/
theorem exists_source_of_isMember {declaration : Declaration}
    (hdeclaration : declaration ∈ snapshot.declarations) (hkind : declaration.kind.isMember = true) :
    ∃ source ∈ snapshot.modules, source.name = declaration.module ∧
      ∃ kind, source.parsed.tree.kind? declaration.node = some kind ∧ kind.isProcedure = true := by
  rw [h.declarations_eq] at hdeclaration
  obtain ⟨module, hmodule, hname, hmade⟩ := stemsFrom_of_mem_bindNames hdeclaration
  obtain ⟨source, hsource, rfl⟩ := List.mem_map.1 hmodule
  refine ⟨source, hsource, hname, ?_⟩
  rcases hmade with hmade | ⟨declared, hdeclared, hsame⟩
  · rw [hmade] at hkind
    cases hkind
  · exact isProcedure_of_declared? hdeclared (hsame ▸ hkind)

/-- The places at which members are declared come in the order of their nodes. -/
theorem pairwise_declaringPlaces {source : ModuleSource} (hsource : source ∈ snapshot.modules) :
    (snapshot.scopedModules.flatMap ScopedModule.declaringPlaces).Pairwise fun left right ↦
      left.1 = source.name → right.1 = source.name →
        (source.parsed.tree.kind? left.2).any (·.isProcedure) = true →
          (source.parsed.tree.kind? right.2).any (·.isProcedure) = true → left.2 < right.2 := by
  have hobeys := h.obeys source hsource
  have hplaced {module : ScopedModule} {place : ModuleName × Nat}
      (hplace : place ∈ module.declaringPlaces) : place.1 = module.name := by
    rcases List.mem_cons.1 hplace with rfl | hplace
    · rfl
    · obtain ⟨node, -, rfl⟩ := List.mem_map.1 hplace
      rfl
  rw [List.pairwise_flatMap]
  constructor
  · intro module hmodule
    obtain ⟨other, hother, rfl⟩ := List.mem_map.1 hmodule
    by_cases hname : other.name = source.name
    · cases List.inj_on_of_nodup_map (nodup_names_of_pairwise h.ordered) hother hsource hname
      refine .cons ?_ ?_
      · intro place _ _ _ hroot
        rw [hobeys.root] at hroot
        cases hroot
      · rw [List.pairwise_map]
        exact (hobeys.pairwise_members_preorder.filter _).imp fun hmembers _ _ ↦ hmembers
    · exact List.pairwise_iff_forall_sublist.2 fun hsub hleft ↦
        absurd ((hplaced (hsub.subset List.mem_cons_self)).symm.trans hleft) hname
  · refine (List.pairwise_map.1 h.nodup_scopedModules).imp ?_
    intro first second hne left hleft right hright hname hname'
    exact absurd ((hplaced hleft).symm.trans (hname.trans (hname'.symm.trans (hplaced hright)))) hne

/-- The members of a module are numbered in the order of their nodes. -/
theorem node_lt_of_id_lt {left right : Declaration} (hleft : left ∈ snapshot.declarations)
    (hright : right ∈ snapshot.declarations) (hmodule : left.module = right.module)
    (hkind : left.kind.isMember = true) (hkind' : right.kind.isMember = true)
    (hlt : left.id < right.id) : left.node < right.node := by
  let places := snapshot.scopedModules.flatMap ScopedModule.declaringPlaces
  have hplaces : snapshot.declarations.toList.map Declaration.place = places := by
    rw [h.declarations_eq]
    exact places_bindNames h.nodup_scopedModules
  have hat {declaration : Declaration} (hmem : declaration ∈ snapshot.declarations) :
      places[declaration.id]? = some declaration.place := by
    obtain ⟨id, hid⟩ := Array.mem_iff_getElem?.1 hmem
    rw [h.id_eq_of_declaration? hid, ← hplaces, List.getElem?_map, Array.getElem?_toList, hid,
      Option.map_some]
  obtain ⟨source, hsource, hname, kind, hknown, hmember⟩ := h.exists_source_of_isMember hleft hkind
  obtain ⟨other, hother, hname', kind', hknown', hmember'⟩ :=
    h.exists_source_of_isMember hright hkind'
  have hsame : other = source := List.inj_on_of_nodup_map (nodup_names_of_pairwise h.ordered) hother
    hsource (hname'.trans (hmodule.symm.trans hname.symm))
  rw [hsame] at hknown'
  obtain ⟨hidLeft, hplaceLeft⟩ := List.getElem?_eq_some_iff.1 (hat hleft)
  obtain ⟨hidRight, hplaceRight⟩ := List.getElem?_eq_some_iff.1 (hat hright)
  have hordered := List.pairwise_iff_getElem.1 (h.pairwise_declaringPlaces hsource) left.id right.id
    hidLeft hidRight hlt
  rw [hplaceLeft, hplaceRight] at hordered
  apply hordered hname.symm (hmodule.symm.trans hname.symm)
  · rw [Declaration.place, hknown, Option.any_some, hmember]
  · rw [Declaration.place, hknown', Option.any_some, hmember']

/-- The order of their numbers is the order of their nodes. -/
theorem id_lt_iff_node_lt {left right : Declaration} (hleft : left ∈ snapshot.declarations)
    (hright : right ∈ snapshot.declarations) (hmodule : left.module = right.module)
    (hkind : left.kind.isMember = true) (hkind' : right.kind.isMember = true) :
    left.id < right.id ↔ left.node < right.node := by
  refine ⟨h.node_lt_of_id_lt hleft hright hmodule hkind hkind', fun hnode ↦ ?_⟩
  rcases Nat.lt_trichotomy left.id right.id with hlt | heq | hlt
  · exact hlt
  · obtain ⟨id, hid⟩ := Array.mem_iff_getElem?.1 hleft
    obtain ⟨id', hid'⟩ := Array.mem_iff_getElem?.1 hright
    rw [h.id_eq_of_declaration? hid, h.id_eq_of_declaration? hid'] at heq
    rw [heq, hid'] at hid
    cases hid
    exact absurd hnode (Nat.lt_irrefl _)
  · exact absurd (h.node_lt_of_id_lt hright hleft hmodule.symm hkind' hkind hlt)
      (Nat.lt_asymm hnode)

end Snapshot.IsRead

end VbaLint
