import VbaLint.Proofs.Module.Parts
import VbaLint.Proofs.Project.Order
import VbaLint.Proofs.Project.References

/-!
# Where return values are assigned

A function or a getter gives its result by an assignment to its own name. In its body the name stands for
the first declaration of that name which the module knows. This is the member itself, unless another
declaration of the name comes before it, such as a setter of the same property.
-/

namespace VbaLint

open Source Statement Text Tree

/-! ## Plain assignments -/

namespace Tree.SyntaxTree

/-- The statement assigns to a plain name, with `Set` or without. -/
def AssignsTo (tree : SyntaxTree) (statement : Nat) (name : List Char) : Prop :=
  statement ∈ tree.statementNodes ∧ ∃ text assignment,
    tree.text? statement = some (String.ofList text) ∧
      (shapeOf text).assignment? = some assignment ∧
        plainName? assignment.target.text = some name

end Tree.SyntaxTree

/-- The identifier is the name to which the statement assigns. -/
structure ScopedModule.IsAssigned (module : ScopedModule) (statement : Nat) (name : List Char)
    (id : Nat) (node : Node) : Prop extends module.Uses id node where
  only : module.tree.childrenOfKind statement .identifier = [id]
  text_eq : node.text = String.ofList name
  inside : module.tree.enclosingProcedure? id = module.tree.enclosingProcedure? statement
  isAssignment (target : Nat) : (module.referenceTo id node target).isAssignment = true

/-- Below the node of a plain assignment stands one identifier, the assigned name. -/
theorem exists_isAssigned (project : String) (text : ModuleText) {statement : Nat} {name : List Char}
    (h : (readModule text.component text.text).tree.AssignsTo statement name) :
    ∃ id node, (text.source project).scoped.IsAssigned statement name id node := by
  let tree := (readModule text.component text.text).tree
  obtain ⟨hstatement, source, assignment, htext, hshape, hname⟩ := h
  obtain ⟨hkind, hparts⟩ := sideParts_readModule text.component text.text hstatement htext hshape
  obtain ⟨id, hid, hknown⟩ : ∃ id, tree.childrenOfKind statement .identifier = [id] ∧
      tree.text? id = some (String.ofList name) := by
    apply List.map_eq_singleton_iff.1
    rw [tree.map_text?_childrenOfKind, hparts, SyntaxTree.sideParts, hname]
    rfl
  have hmem : id ∈ tree.childrenOfKind statement .identifier := by rw [hid]; exact List.mem_cons_self
  obtain ⟨hchild, hidentifier⟩ := SyntaxTree.kind?_of_mem_childrenOfKind hmem
  have hparent := SyntaxTree.mem_children.1 hchild
  obtain ⟨node, hnode, htext⟩ := Option.map_eq_some_iff.1 hknown
  have habove : (tree.parent? id).bind tree.kind? =
      some (SyntaxTree.statementKind (shapeOf source)) := by
    rw [hparent, Option.bind_some, hkind]
  refine ⟨id, node, ⟨hnode, SyntaxTree.kind_eq_of_kind? hnode hidentifier, ?_⟩, hid, htext, ?_, ?_⟩
  · change ((tree.parent? id).bind tree.kind?).any _ = false
    rw [habove]
    rcases Reading.statementKind_of_assignment? hshape with heq | heq <;> rw [heq] <;> rfl
  · refine SyntaxTree.enclosingProcedure?_of_parent hparent hkind ?_
    rcases Reading.statementKind_of_assignment? hshape with heq | heq <;> rw [heq] <;> rfl
  · intro target
    rw [(text.source project).scoped.isAssignment_referenceTo habove]
    rcases Reading.statementKind_of_assignment? hshape with heq | heq <;> rw [heq] <;> rfl

/-! ## Members -/

/-- The whole module knows its members. -/
theorem isKnownIn_of_isMember {modules : List ScopedModule} {declaration : Declaration}
    (h : declaration.kind.isMember = true) :
    isKnownIn modules declaration (.module declaration.module) = true := by
  have hkind : (declaration.kind != .module) = true := by
    rw [bne_iff_ne]
    intro hmodule
    rw [hmodule] at h
    cases h
  have hshared : localTo? modules declaration = none := by
    rw [localTo?, h, Bool.or_true, if_pos rfl]
  rw [isKnownIn, hkind, hshared, beq_self_eq_true]
  rfl

theorem isMember_of_returnsValue {kind : DeclarationKind} (h : kind.returnsValue = true) :
    kind.isMember = true := by
  cases kind <;> first | rfl | cases h

/-! ## What is recorded -/

/-- In a procedure that has no name of its own like it, a name stands for what the module knows by it. -/
theorem visible?_of_firstIn? {modules : List ScopedModule} {declarations : Array Declaration}
    {module : ModuleName} {procedure : Nat} {name : String} {first : Nat}
    (hlocal : ∀ other ∈ declarations, isKnownIn modules other (.procedure module procedure) = true →
      lowerAsciiString other.name ≠ lowerAsciiString name)
    (hfirst : firstIn? modules declarations (.module module) name = some first) :
    visible? modules declarations module (some procedure) name = some first := by
  have hnone : firstIn? modules declarations (.procedure module procedure) name = none := by
    rw [firstIn?, Array.findIdx?_eq_none_iff]
    intro other hother
    rw [Bool.and_eq_false_iff, beq_eq_false_iff_ne]
    by_cases hknown : isKnownIn modules other (.procedure module procedure) = true
    · exact .inl (hlocal other hother hknown)
    · exact .inr (Bool.eq_false_iff.2 hknown)
  rw [visible?, Option.bind_some, hnone, hfirst]
  rfl

/-- A plain assignment in the body of a function or a getter to its own name is recorded once, as an
assignment to the first declaration of the name that the module knows, if nothing of this name is declared
in the member. This is the member itself if and only if no other such declaration comes before it; of
several members the one whose node comes first does. -/
theorem return_values_go_to_first_of_name (project : String) (modules : List ModuleText)
    (version : Nat) :
    let snapshot := (Assembly.ofModules project modules).build version
    ∀ source ∈ snapshot.modules, ∀ member ∈ snapshot.declarations,
      member.module = source.name → member.kind.returnsValue = true →
      (∀ other ∈ snapshot.declarations,
        isKnownIn snapshot.scopedModules other (.procedure source.name member.node) = true →
          lowerAsciiString other.name ≠ lowerAsciiString member.name) →
      ∃ first, snapshot.IsFirstNamed (.module source.name) member.name first ∧
        (first.id = member.id ↔ ∀ other ∈ snapshot.declarations,
          isKnownIn snapshot.scopedModules other (.module source.name) = true →
            lowerAsciiString other.name = lowerAsciiString member.name → member.id ≤ other.id) ∧
        (∀ other ∈ snapshot.declarations, other.module = source.name →
          other.kind.isMember = true → (other.id < member.id ↔ other.node < member.node)) ∧
        ∀ statement name, source.parsed.tree.AssignsTo statement name →
          source.parsed.tree.enclosingProcedure? statement = some member.node →
          lowerAscii name = lowerAscii member.name.toList →
          ∃ id selection, source.parsed.tree.childrenOfKind statement .identifier = [id] ∧
            snapshot.Records
              ⟨source.name, id, selection, String.ofList name, true, first.id⟩ := by
  intro snapshot source hsource member hmember hmodule hkind hlocal
  have hread : snapshot.IsRead := Assembly.isRead_build project modules version
  obtain ⟨texts, -, hmodules⟩ := Assembly.exists_lastTexts_build project modules version
  have hisMember := isMember_of_returnsValue hkind
  have hknown : isKnownIn snapshot.scopedModules member (.module source.name) = true :=
    hmodule ▸ isKnownIn_of_isMember hisMember
  obtain ⟨first, hfirst, hfound⟩ := hread.exists_isFirstNamed hmember hknown
  refine ⟨first, hfirst, hfirst.id_eq_iff hmember hknown rfl, ?_, ?_⟩
  · intro other hother hplace hothers
    exact hread.id_lt_iff_node_lt hother hmember (hplace.trans hmodule.symm) hothers hisMember
  intro statement name hassigns hinside hname
  obtain ⟨id, node, hassigned⟩ : ∃ id node, source.scoped.IsAssigned statement name id node := by
    obtain ⟨text, -, rfl⟩ := List.mem_map.1 (hmodules ▸ hsource)
    exact exists_isAssigned project text hassigns
  have hmeans : lowerAsciiString node.text = lowerAsciiString member.name := by
    rw [hassigned.text_eq, lowerAsciiString, String.toList_ofList, hname]
    rfl
  have hprocedure : source.parsed.tree.enclosingProcedure? id = some member.node :=
    hassigned.inside.trans hinside
  have hvisible : visible? snapshot.scopedModules snapshot.declarations source.name
      (source.parsed.tree.enclosingProcedure? id) node.text = some first.id := by
    rw [hprocedure]
    apply visible?_of_firstIn?
    · rw [hmeans]
      exact hlocal
    · rw [← hfound, firstIn?, hmeans, firstIn?]
  refine ⟨id, node.selection, hassigned.only, ?_⟩
  rw [← hassigned.text_eq, ← hassigned.isAssignment first.id]
  exact hread.records hsource hassigned.toUses hvisible

/-! ## The order of a getter and its setter -/

def getterFirst : ModuleText where
  component := "M"
  type := .classModule
  text := "Property Get V() As Object\nV = x\nEnd Property\nProperty Set V(x)\nEnd Property\n"

theorem return_values_go_to_first_of_name_getter :
    let snapshot := (Assembly.ofModules "P" [getterFirst]).build 1
    let source := getterFirst.source "P"
    ∃ member ∈ snapshot.declarations, member.kind = .propertyGet ∧
      ∃ first, snapshot.IsFirstNamed (.module source.name) member.name first ∧
        ∃ id selection, source.parsed.tree.childrenOfKind 6 .identifier = [id] ∧
          snapshot.Records ⟨source.name, id, selection, "V", true, first.id⟩ := by
  intro snapshot source
  have hfacts :
      let tree := source.parsed.tree
      let declared := (Declaring.ofModules [source.scoped]).declarations
      6 ∈ tree.statementNodes ∧ tree.text? 6 = some "V = x" ∧ tree.enclosingProcedure? 6 = some 3 ∧
        (∃ bare ∈ declared, bare.module = ⟨"P", "M"⟩ ∧ bare.kind = .propertyGet ∧ bare.name = "V" ∧
          bare.node = 3) ∧
        ∀ bare ∈ declared, isKnownIn [source.scoped] bare (.procedure ⟨"P", "M"⟩ 3) = false := by
    decide +kernel
  obtain ⟨hstatement, htext, hinside, hdeclared, hlocal⟩ := hfacts
  obtain ⟨member, hmember, hmodule, hkind, hname, hnode⟩ :=
    Assembly.exists_declaration_build_singleton "P" getterFirst 1 (fun _ h ↦ h) hdeclared
  have hnone := Assembly.forall_declaration_build_singleton "P" getterFirst 1 (fun _ h ↦ h) hlocal
  rw [← Assembly.scopedModules_build_singleton "P" getterFirst 1, ← hnode] at hnone
  have hassigns : source.parsed.tree.AssignsTo 6 ['V'] :=
    ⟨hstatement, "V = x".toList, ⟨⟨['V'], 0⟩, ⟨['x'], 4⟩⟩, htext, by decide +kernel, by decide +kernel⟩
  obtain ⟨first, hfirst, -, -, hrecorded⟩ := return_values_go_to_first_of_name "P" [getterFirst] 1
    source (Assembly.mem_modules_build_singleton "P" getterFirst 1) member hmember hmodule
    (by rw [hkind]; rfl) fun other hother hknown ↦
      absurd hknown (Bool.eq_false_iff.1 (hnone other hother))
  obtain ⟨id, selection, hid, hlisted⟩ := hrecorded 6 ['V'] hassigns (hnode ▸ hinside)
    (by rw [hname]; rfl)
  exact ⟨member, hmember, hkind, first, hfirst, id, selection, hid, hlisted⟩

def setterFirst : ModuleText where
  component := "M"
  type := .classModule
  text := "Property Set V(x)\nEnd Property\nProperty Get V() As Object\nV = x\nEnd Property\n"

/-- The value that a getter returns is taken for one that is assigned to the setter, if the setter stands
first. -/
theorem setter_takes_value_of_getter :
    let snapshot := (Assembly.ofModules "P" [setterFirst]).build 1
    let source := setterFirst.source "P"
    source ∈ snapshot.modules ∧ source.parsed.tree.AssignsTo 11 ['V'] ∧
      ∃ getter ∈ snapshot.declarations, getter.module = source.name ∧ getter.kind = .propertyGet ∧
        getter.name = "V" ∧ source.parsed.tree.enclosingProcedure? 11 = some getter.node ∧
        (∀ other ∈ snapshot.declarations,
          isKnownIn snapshot.scopedModules other (.procedure source.name getter.node) = false) ∧
        ∃ setter ∈ snapshot.declarations, setter.kind = .propertySet ∧ setter.id ≠ getter.id ∧
          ∃ id selection, source.parsed.tree.childrenOfKind 11 .identifier = [id] ∧
            snapshot.Records ⟨source.name, id, selection, "V", true, setter.id⟩ := by
  intro snapshot source
  have hfacts :
      let tree := source.parsed.tree
      let declared := (Declaring.ofModules [source.scoped]).declarations
      11 ∈ tree.statementNodes ∧ tree.text? 11 = some "V = x" ∧
        tree.enclosingProcedure? 11 = some 8 ∧
        (∃ bare ∈ declared, bare.module = ⟨"P", "M"⟩ ∧ bare.kind = .propertyGet ∧ bare.name = "V" ∧
          bare.node = 8 ∧ bare.id = 3) ∧
        (∃ bare ∈ declared, bare.kind = .propertySet ∧ bare.id = 1) ∧
        (∀ bare ∈ declared, isKnownIn [source.scoped] bare (.procedure ⟨"P", "M"⟩ 8) = false) ∧
        visible? [source.scoped] declared ⟨"P", "M"⟩ (some 8) "V" = some 1 := by
    decide +kernel
  obtain ⟨hstatement, htext, hinside, hgetters, hsetters, hlocal, hmeant⟩ := hfacts
  obtain ⟨getter, hgetter, hmodule, hkind, hname, hnode, hid⟩ :=
    Assembly.exists_declaration_build_singleton "P" setterFirst 1 (fun _ h ↦ h) hgetters
  obtain ⟨setter, hsetter, hkind', hid'⟩ :=
    Assembly.exists_declaration_build_singleton "P" setterFirst 1 (fun _ h ↦ h) hsetters
  have hnone := Assembly.forall_declaration_build_singleton "P" setterFirst 1 (fun _ h ↦ h) hlocal
  rw [← Assembly.scopedModules_build_singleton "P" setterFirst 1, ← hnode] at hnone
  have hsource : source ∈ snapshot.modules :=
    Assembly.mem_modules_build_singleton "P" setterFirst 1
  have hassigns : source.parsed.tree.AssignsTo 11 ['V'] :=
    ⟨hstatement, "V = x".toList, ⟨⟨['V'], 0⟩, ⟨['x'], 4⟩⟩, htext, by decide +kernel, by decide +kernel⟩
  obtain ⟨id, node, hassigned⟩ := exists_isAssigned "P" setterFirst hassigns
  have hread : snapshot.IsRead := Assembly.isRead_build "P" [setterFirst] 1
  have hvisible : visible? snapshot.scopedModules snapshot.declarations source.name
      (source.parsed.tree.enclosingProcedure? id) node.text = some 1 := by
    have hdeclarations : snapshot.declarations = bindNames snapshot.scopedModules :=
      hread.declarations_eq
    rw [hdeclarations, visible?_bindNames hread.nodup_scopedModules,
      Assembly.scopedModules_build_singleton, hassigned.text_eq]
    exact (congrArg (visible? _ _ _ · _) (hassigned.inside.trans hinside)).trans hmeant
  have hname' : node.text = "V" := hassigned.text_eq
  refine ⟨hsource, hassigns, getter, hgetter, hmodule, hkind, hname, hnode ▸ hinside, hnone, setter,
    hsetter, hkind', by rw [hid, hid']; decide, id, node.selection, hassigned.only, ?_⟩
  rw [hid', ← hassigned.isAssignment 1, ← hname']
  exact hread.records hsource hassigned.toUses hvisible

end VbaLint
