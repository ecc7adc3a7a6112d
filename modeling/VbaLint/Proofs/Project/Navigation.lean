import VbaLint.Proofs.Module.Directives
import VbaLint.Proofs.Project.Origins
import VbaLint.Proofs.Rules.Lowering

/-!
# Closed snapshots

Declarations, references and annotations name modules, nodes and declarations by their numbers. In a
snapshot that is read from texts each such number leads to something of the right kind in the same
snapshot.
-/

namespace VbaLint

open Source Tree

/-- Going from the declaration `id` to the declaration around it, each time to one of a lower number,
ends at the declaration of the module `name`, and all declarations on the way stand in this module. -/
inductive ReachesModule (declarations : Array Declaration) (name : ModuleName) : Nat → Prop
  | ofModule {id : Nat} {declaration : Declaration} (hat : declarations[id]? = some declaration)
    (hname : declaration.module = name) (hkind : declaration.kind = .module)
    (houtermost : declaration.parentScope = none) : ReachesModule declarations name id
  | within {id scope : Nat} {declaration : Declaration} (hat : declarations[id]? = some declaration)
    (hname : declaration.module = name) (hscope : declaration.parentScope = some scope)
    (hlt : scope < id) (hreaches : ReachesModule declarations name scope) :
    ReachesModule declarations name id

/-- The way outwards depends only on the kinds, modules and scopes of the declarations. -/
theorem ReachesModule.mono {declarations later : Array Declaration} {name : ModuleName} {id : Nat}
    (h : ReachesModule declarations name id)
    (hlater : ∀ (other : Nat) (declaration : Declaration), declarations[other]? = some declaration →
      ∃ same, later[other]? = some same ∧ same.module = declaration.module ∧
        same.kind = declaration.kind ∧ same.parentScope = declaration.parentScope) :
    ReachesModule later name id := by
  induction h with
  | ofModule hat hname hkind houtermost =>
    obtain ⟨same, hsame, hmodule, hkinds, hscopes⟩ := hlater _ _ hat
    exact .ofModule hsame (hmodule.trans hname) (hkinds.trans hkind) (hscopes.trans houtermost)
  | within hat hname hscope hlt _ ih =>
    obtain ⟨same, hsame, hmodule, -, hscopes⟩ := hlater _ _ hat
    exact .within hsame (hmodule.trans hname) (hscopes.trans hscope) hlt ih

theorem getElem?_push_of_some {declarations : Array Declaration} {id : Nat}
    {declaration : Declaration} (h : declarations[id]? = some declaration) (added : Declaration) :
    (declarations.push added)[id]? = some declaration := by
  have hlt : id < declarations.size := (Array.getElem?_eq_some_iff.1 h).1
  rw [Array.getElem?_push, if_neg (Nat.ne_of_lt hlt), h]

/-- A module is reached as well when a declaration is added. -/
theorem ReachesModule.push {declarations : Array Declaration} {name : ModuleName} {id : Nat}
    (h : ReachesModule declarations name id) (added : Declaration) :
    ReachesModule (declarations.push added) name id :=
  h.mono fun _ known hknown ↦ ⟨known, getElem?_push_of_some hknown added, rfl, rfl, rfl⟩

namespace Declaring

variable {modules : List ScopedModule} {module : ScopedModule} {moduleId : Nat} {state : Declaring}

/-- Every declaration stands at a node of one of the modules, and is somewhere within it. -/
structure Linked (modules : List ScopedModule) (state : Declaring) : Prop where
  node_lt {declaration : Declaration} : declaration ∈ state.declarations →
    ∃ module ∈ modules, module.name = declaration.module ∧ declaration.node < module.tree.size
  reaches {id : Nat} {declaration : Declaration} : state.declarations[id]? = some declaration →
    ReachesModule state.declarations declaration.module id

/-- Within a module its own declaration and those of its members are known. -/
structure LinkedWithin (modules : List ScopedModule) (module : ScopedModule) (moduleId : Nat)
    (state : Declaring) : Prop extends state.Linked modules where
  module_known : ∃ declaration, state.declarations[moduleId]? = some declaration ∧
    declaration.module = module.name
  member_known {node id : Nat} : state.members[node]? = some id →
    ∃ declaration, state.declarations[id]? = some declaration ∧ declaration.module = module.name

/-- One declaration more, with the way outwards from it. -/
theorem Linked.push (h : state.Linked modules) {added : Declaration} (hmodule : module ∈ modules)
    (hname : added.module = module.name) (hnode : added.node < module.tree.size)
    (hreaches : ReachesModule (state.declarations.push added) module.name state.declarations.size)
    (scopes : Scopes) (members : Std.HashMap Nat Nat) :
    Linked modules ⟨state.declarations.push added, scopes, members⟩ := by
  constructor
  · intro declaration hdeclaration
    rcases Array.mem_push.1 hdeclaration with hold | rfl
    · exact h.node_lt hold
    · exact ⟨module, hmodule, hname.symm, hnode⟩
  · intro id declaration hat
    dsimp only at hat ⊢
    rw [Array.getElem?_push] at hat
    split at hat
    · next hlast =>
      cases hat
      rw [hlast, hname]
      exact hreaches
    · exact (h.reaches hat).push added

/-- The declaration of a module is known within it. -/
theorem Linked.beginModule (h : state.Linked modules) (hmodule : module ∈ modules) :
    (state.beginModule module).LinkedWithin modules module state.declarations.size := by
  let added := moduleDeclaration module state.declarations.size
  have hat : (state.declarations.push added)[state.declarations.size]? = some added :=
    Array.getElem?_push_size
  refine ⟨h.push hmodule rfl module.tree.size_pos (.ofModule hat rfl rfl rfl) _ _,
    ⟨added, hat, rfl⟩, fun hmember ↦ ?_⟩
  change (∅ : Std.HashMap Nat Nat)[_]? = some _ at hmember
  simp at hmember

/-- What encloses a declaration is the member around it, or else its module. -/
theorem LinkedWithin.scope_known (h : state.LinkedWithin modules module moduleId)
    (enclosing : Option Nat) :
    ∃ declaration,
      state.declarations[(enclosing.bind fun member ↦ state.members[member]?).getD moduleId]? =
        some declaration ∧ declaration.module = module.name := by
  cases hmember : enclosing.bind fun member ↦ state.members[member]? with
  | none => exact h.module_known
  | some id =>
    obtain ⟨member, -, hid⟩ := Option.bind_eq_some_iff.1 hmember
    exact h.member_known hid

/-- Declaring a name keeps the way outwards from every declaration. -/
theorem LinkedWithin.declareNode (h : state.LinkedWithin modules module moduleId)
    (hmodule : module ∈ modules) (node : Nat) :
    (declareNode module moduleId state node).LinkedWithin modules module moduleId := by
  unfold Declaring.declareNode
  cases hdeclared : module.tree.declared? node with
  | none => exact h
  | some declared =>
    obtain ⟨outer, houter, hname⟩ := h.scope_known (module.tree.enclosingProcedure? node)
    have hnode : node < module.tree.size := by
      obtain ⟨known, hknown, -⟩ := Option.bind_eq_some_iff.1 hdeclared
      exact SyntaxTree.lt_size_of_node? hknown
    have hlt := (Array.getElem?_eq_some_iff.1 houter).1
    have hreaches := hname ▸ h.reaches houter
    refine ⟨h.toLinked.push hmodule rfl hnode
      (.within Array.getElem?_push_size rfl rfl hlt (hreaches.push _)) _ _, ?_, ?_⟩
    · obtain ⟨home, hhome, hsame⟩ := h.module_known
      exact ⟨home, getElem?_push_of_some hhome _, hsame⟩
    · intro other id hmember
      dsimp only at hmember ⊢
      by_cases hnew : declared.kind.isMember = true ∧ node = other
      · obtain ⟨hkind, rfl⟩ := hnew
        rw [if_pos hkind, Std.HashMap.getElem?_insert_self] at hmember
        cases hmember
        exact ⟨_, Array.getElem?_push_size, rfl⟩
      · have hold : state.members[other]? = some id := by
          split at hmember
          · next hkind =>
            have hne : (node == other) = false := beq_false_of_ne fun heq ↦ hnew ⟨hkind, heq⟩
            rw [Std.HashMap.getElem?_insert, hne] at hmember
            exact hmember
          · exact hmember
        obtain ⟨known, hknown, hsame⟩ := h.member_known hold
        exact ⟨known, getElem?_push_of_some hknown _, hsame⟩

theorem linked_ofModules (modules : List ScopedModule) : (ofModules modules).Linked modules := by
  apply ofModules_induct (P := Linked modules) (Q := LinkedWithin modules)
  · refine ⟨fun hdeclaration ↦ ?_, fun hat ↦ ?_⟩
    · cases Array.not_mem_empty _ hdeclaration
    · cases hat
  · exact fun module hmodule state hstate ↦ hstate.beginModule hmodule
  · exact fun module hmodule moduleId state node hstate ↦ hstate.declareNode hmodule node
  · exact fun module hmodule moduleId state hstate ↦ hstate.toLinked

end Declaring

/-- Adding references changes neither nodes nor scopes. -/
theorem linked_bindNames {modules : List ScopedModule} {id : Nat} {declaration : Declaration}
    (h : (bindNames modules)[id]? = some declaration) :
    (∃ module ∈ modules, module.name = declaration.module ∧
        declaration.node < module.tree.size) ∧
      ReachesModule (bindNames modules) declaration.module id := by
  have hlinked := Declaring.linked_ofModules modules
  have hadded := getElem?_foldl_addReference
    (referencesOf (Declaring.ofModules modules).scopes modules)
    (Declaring.ofModules modules).declarations
  obtain ⟨bare, hbare, rfl⟩ := Option.map_eq_some_iff.1 ((hadded id).symm.trans h)
  have hnode := hlinked.node_lt (Array.mem_of_getElem? hbare)
  refine ⟨hnode, (hlinked.reaches hbare).mono ?_⟩
  intro other known hknown
  have hother := hadded other
  rw [hknown, Option.map_some] at hother
  exact ⟨_, hother, rfl, rfl, rfl⟩

namespace Snapshot

/-- Whatever the snapshot names by a number is there and is what it is said to be. -/
structure IsClosed (snapshot : Snapshot) : Prop where
  id_eq {id : Nat} {declaration : Declaration} : snapshot.declaration? id = some declaration →
    declaration.id = id
  module_known {id : Nat} {declaration : Declaration} :
    snapshot.declaration? id = some declaration →
      (snapshot.module? declaration.module).isSome = true
  node_known {id : Nat} {declaration : Declaration} : snapshot.declaration? id = some declaration →
    snapshot.containsNode declaration.module declaration.node = true
  scopes_end {id : Nat} {declaration : Declaration} : snapshot.declaration? id = some declaration →
    ReachesModule snapshot.declarations declaration.module id
  identifier_known {id : Nat} {declaration : Declaration} {reference : Reference} :
    snapshot.declaration? id = some declaration → reference ∈ declaration.references →
      ∃ node, snapshot.node? reference.module reference.node = some node ∧
        node.kind = .identifier ∧ node.selection = reference.selection ∧
          node.text = reference.identifier
  declaration_eq {id : Nat} {declaration : Declaration} {reference : Reference} :
    snapshot.declaration? id = some declaration → reference ∈ declaration.references →
      reference.declaration = id
  target_known {name : ModuleName} {note : Annotation} {node : Nat} :
    note ∈ snapshot.annotationsOf name → note.target = .node node →
      snapshot.containsNode name node = true

def scopedModules (snapshot : Snapshot) : List ScopedModule :=
  snapshot.modules.map fun module ↦ ⟨module.name, module.type, module.parsed.tree⟩

namespace IsRead

variable {snapshot : Snapshot} (h : snapshot.IsRead)
include h

/-- The modules of a snapshot have different names. -/
theorem nodup_scopedModules : (snapshot.scopedModules.map (·.name)).Nodup := by
  rw [scopedModules, List.map_map]
  exact nodup_names_of_pairwise h.ordered

theorem module?_eq {source : ModuleSource} (hsource : source ∈ snapshot.modules) :
    snapshot.module? source.name = some source :=
  (find?_eq_some_iff_of_pairwise h.ordered).2 ⟨hsource, rfl⟩

theorem containsNode_of_lt {source : ModuleSource} (hsource : source ∈ snapshot.modules) {id : Nat}
    (hlt : id < source.parsed.tree.size) : snapshot.containsNode source.name id = true := by
  have hnode : source.parsed.tree.node? id = some source.parsed.tree.nodes[id] :=
    Array.getElem?_eq_getElem hlt
  rw [containsNode, h.node?_eq hsource, hnode, Option.isSome_some]

theorem declaration?_eq (id : Nat) :
    snapshot.declaration? id = (bindNames snapshot.scopedModules)[id]? := by
  rw [declaration?, h.declarations_eq]
  rfl

/-- A declaration stands at a node of a module of the snapshot. -/
theorem home_known {id : Nat} {declaration : Declaration}
    (hat : snapshot.declaration? id = some declaration) :
    (snapshot.module? declaration.module).isSome = true ∧
      snapshot.containsNode declaration.module declaration.node = true := by
  rw [h.declaration?_eq] at hat
  obtain ⟨⟨module, hmodule, hname, hlt⟩, -⟩ := linked_bindNames hat
  obtain ⟨source, hsource, rfl⟩ := List.mem_map.1 hmodule
  rw [← hname]
  exact ⟨Option.isSome_of_eq_some (h.module?_eq hsource), h.containsNode_of_lt hsource hlt⟩

/-- A declaration is found by its own number. -/
theorem id_eq_of_declaration? {id : Nat} {declaration : Declaration}
    (hat : snapshot.declaration? id = some declaration) : declaration.id = id := by
  have hnames := h.nodup_scopedModules
  rw [h.declaration?_eq, getElem?_bindNames hnames] at hat
  obtain ⟨bare, hbare, rfl⟩ := Option.map_eq_some_iff.1 hat
  exact ((Declaring.faithful_ofModules hnames).isNew hbare).id_eq

/-- A reference says which declaration holds it, and what stands at its node. -/
theorem reference_known {id : Nat} {declaration : Declaration} {reference : Reference}
    (hat : snapshot.declaration? id = some declaration)
    (hreference : reference ∈ declaration.references) :
    reference.declaration = id ∧
      ∃ node, snapshot.node? reference.module reference.node = some node ∧
        node.kind = .identifier ∧ node.selection = reference.selection ∧
          node.text = reference.identifier := by
  rw [h.declaration?_eq] at hat
  obtain ⟨module, hmodule, node, huses, -, hmade⟩ :=
    exists_of_mem_references h.nodup_scopedModules hat hreference
  obtain ⟨source, hsource, rfl⟩ := List.mem_map.1 hmodule
  have hnode : snapshot.node? source.name reference.node = some node :=
    (h.node?_eq hsource reference.node).trans huses.node_eq
  rw [hmade]
  exact ⟨rfl, node, hnode, huses.kind_eq, rfl, rfl⟩

/-- A snapshot that was read is closed if its annotations are. -/
theorem isClosed (hnotes : ∀ source ∈ snapshot.modules, ∀ note ∈ source.parsed.annotations,
    ∀ node, note.target = .node node → node < source.parsed.tree.size) : snapshot.IsClosed := by
  constructor
  · exact h.id_eq_of_declaration?
  · exact fun hat ↦ (h.home_known hat).1
  · exact fun hat ↦ (h.home_known hat).2
  · intro id declaration hat
    rw [h.declaration?_eq] at hat
    rw [h.declarations_eq]
    exact (linked_bindNames hat).2
  · exact fun hat hreference ↦ (h.reference_known hat hreference).2
  · exact fun hat hreference ↦ (h.reference_known hat hreference).1
  · intro name note node hnote htarget
    cases hmodule : snapshot.module? name with
    | none =>
      rw [annotationsOf, hmodule] at hnote
      cases hnote
    | some source =>
      obtain ⟨hsource, rfl⟩ := (find?_eq_some_iff_of_pairwise h.ordered).1 hmodule
      rw [annotationsOf, hmodule] at hnote
      exact h.containsNode_of_lt hsource (hnotes source hsource note hnote node htarget)

end IsRead

end Snapshot

/-- Every snapshot that is built is closed. -/
theorem Assembly.isClosed_build (project : String) (modules : List ModuleText) (version : Nat) :
    ((ofModules project modules).build version).IsClosed := by
  apply (isRead_build project modules version).isClosed
  intro source hsource note hnote node htarget
  rw [build_eq_snapshot (nodup_components project modules)] at hsource
  obtain ⟨module, -, rfl⟩ := List.mem_map.1 (Snapshot.modules_ofModules_subset _ _ _ hsource)
  exact lt_size_of_mem_annotations hnote htarget

end VbaLint
