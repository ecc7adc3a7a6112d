import VbaLint.Proofs.Module.Expressions
import VbaLint.Proofs.Project.References
import VbaLint.Proofs.Statement.Lowering

/-!
# Names in use

What is declared in a procedure is found wherever its name stands for itself in an expression of the
procedure, as long as a scan takes the whole name for a word. Any other name is never found.
-/

namespace VbaLint

open Source Statement Text Tree

/-! ## Identifiers in use -/

theorem Tree.NodeKind.eq_expression_of_mayHold {above : NodeKind}
    (h : above.mayHold identifier = true) (hnaming : above.declaresName = false)
    (hread : (above == letStmt || above == setStmt) = false) : above = expression := by
  cases above <;> first
    | rfl
    | exact absurd h Bool.false_ne_true
    | exact absurd hnaming.symm Bool.false_ne_true
    | exact absurd hread.symm Bool.false_ne_true

section Uses

variable {id parent target : Nat} {node : Node}

/-- An identifier below an expression is in use, and read. -/
theorem ScopedModule.uses_of_expression (module : ScopedModule) {text : String}
    (hpart : module.tree.part? id = some (.identifier, text))
    (hparent : module.tree.parent? id = some parent)
    (habove : module.tree.kind? parent = some .expression) :
    ∃ node, module.Uses id node ∧ node.text = text ∧
      ∀ target, (module.referenceTo id node target).isAssignment = false := by
  obtain ⟨node, hnode, heq⟩ := Option.map_eq_some_iff.1 hpart
  obtain ⟨hkind, htext⟩ := Prod.mk.inj heq
  have hholder : (module.tree.parent? id).bind module.tree.kind? = some .expression := by
    rw [hparent, Option.bind_some, habove]
  refine ⟨node, ⟨hnode, hkind, ?_⟩, htext, fun target ↦ ?_⟩
  · rw [hholder]
    rfl
  · rw [module.isAssignment_referenceTo hholder]
    rfl

/-- What is read stands below an expression. -/
theorem ScopedModule.Uses.exists_expression {module : ScopedModule} (h : module.Uses id node)
    (hobeys : module.tree.Obeys) (hread : (module.referenceTo id node target).isAssignment = false) :
    ∃ parent, module.tree.parent? id = some parent ∧
      module.tree.kind? parent = some .expression := by
  have hkind : module.tree.kind? id = some .identifier := by
    rw [SyntaxTree.kind?, h.node_eq, Option.map_some, h.kind_eq]
  have hroot : id ≠ 0 := by
    rintro rfl
    rw [hobeys.root] at hkind
    cases hkind
  obtain ⟨parent, above, hparent, habove, hholds⟩ := hobeys.exists_above hkind hroot
  have hholder : (module.tree.parent? id).bind module.tree.kind? = some above := by
    rw [hparent, Option.bind_some, habove]
  have hnaming := h.not_naming
  rw [hholder] at hnaming
  rw [module.isAssignment_referenceTo hholder] at hread
  exact ⟨parent, hparent, NodeKind.eq_expression_of_mayHold hholds hnaming hread ▸ habove⟩

end Uses

/-! ## What is found -/

theorem Assembly.isScanned_build (project : String) (modules : List ModuleText) (version : Nat)
    {source : ModuleSource} (hsource : source ∈ ((ofModules project modules).build version).modules) :
    source.parsed.tree.IsScanned := by
  obtain ⟨texts, -, hmodules⟩ := exists_lastTexts_build project modules version
  rw [hmodules] at hsource
  obtain ⟨text, -, rfl⟩ := List.mem_map.1 hsource
  exact isScanned_readModule text.component text.text

namespace Snapshot.IsRead

variable {snapshot : Snapshot} (h : snapshot.IsRead)
include h

/-- A word of an expression is on record with the first declaration of that name in the procedure. -/
theorem records_word {source : ModuleSource} (hsource : source ∈ snapshot.modules)
    (hscanned : source.parsed.tree.IsScanned) {procedure offset first : Nat}
    {word : List Char}
    (hfirst : firstIn? snapshot.scopedModules snapshot.declarations
      (.procedure source.name procedure) (String.ofList word) = some first)
    {expression index : Nat} {text : List Char}
    (hpart : source.parsed.tree.part? expression = some (.expression, String.ofList text))
    (hinside : source.parsed.tree.enclosingProcedure? expression = some procedure)
    (hword : (occurrences text)[index]? = some ⟨word, offset⟩) :
    ∃ id selection, (source.parsed.tree.children expression)[index]? = some id ∧
      snapshot.Records ⟨source.name, id, selection, String.ofList word, false, first⟩ := by
  obtain ⟨id, hchild, hknown⟩ := hscanned.getElem?_children hpart hword
  have hparent := SyntaxTree.mem_children.1 (List.mem_of_getElem? hchild)
  have hexpression := (SyntaxTree.part?_eq_some_iff.1 hpart).1
  obtain ⟨node, huses, htext, hread⟩ :=
    source.scoped.uses_of_expression hknown hparent hexpression
  have hvisible : visible? snapshot.scopedModules snapshot.declarations source.name
      (source.parsed.tree.enclosingProcedure? id) node.text = some first := by
    rw [SyntaxTree.enclosingProcedure?_of_parent hparent hexpression rfl, hinside, htext, visible?,
      Option.bind_some, hfirst, Option.some_or]
  refine ⟨id, node.selection, hchild, ?_⟩
  rw [← htext, ← hread first]
  exact h.records hsource huses hvisible

/-- Nothing with a name that no scan takes is ever read. -/
theorem reads_eq_nil (hscanned : ∀ source ∈ snapshot.modules, source.parsed.tree.IsScanned)
    {declaration : Declaration} (hmem : declaration ∈ snapshot.declarations)
    {c : Char} (hc : c ∈ declaration.name.toList) (hmark : isIdentifierChar c = false) :
    declaration.reads = [] := by
  rw [Declaration.reads, List.filter_eq_nil_iff]
  intro reference hreference hread
  obtain ⟨source, hsource, node, huses, hmade, hname⟩ :=
    h.exists_use hmem (Array.mem_toList_iff.1 hreference)
  rw [Bool.not_eq_true', hmade] at hread
  obtain ⟨parent, hparent, habove⟩ := huses.exists_expression (h.obeys source hsource) hread
  have htext : source.parsed.tree.text? reference.node = some node.text :=
    congrArg (Option.map Node.text) huses.node_eq
  have hword : node.text.toList.all isIdentifierChar = true := List.all_eq_true.2 fun _ hother ↦
    (hscanned source hsource).isIdentifierChar_of_mem hparent habove htext hother
  have hsame : lowerAscii node.text.toList = lowerAscii declaration.name.toList :=
    String.ofList_inj.1 hname
  rw [← all_lowerAscii _ isIdentifierChar_toLower, hsame, all_lowerAscii _ isIdentifierChar_toLower]
    at hword
  exact Bool.false_ne_true (hmark.symm.trans (List.all_eq_true.1 hword c hc))

end Snapshot.IsRead

/-- All forms of declarations take the same words for names. A name that is not reserved is one word of a
scan if and only if it has nothing but alphanumeric characters and underscores. Such a name, declared in a
procedure, is on record with the first declaration of the name there wherever it stands for itself in an
expression of the procedure. What has any other name is never read. -/
theorem names_are_read_unless_marked (project : String) (modules : List ModuleText) (version : Nat) :
    (∀ word,
      ((∃ declared, declaredItem? word = some declared ∧ declared.name = word) ↔ IsName word) ∧
      ((∃ parameter, parameter? word = some parameter ∧ parameter.name = word) ↔ IsName word) ∧
      ((∃ signature, signature? ("Sub ".toList ++ word) = some signature ∧
        signature.name.text = word) ↔ IsName word) ∧
      (plainName? word = some word ↔ IsName word) ∧
      (IsName word → isReserved word = false →
        (occurrences word = [⟨word, 0⟩] ↔ ∀ c ∈ word, isIdentifierChar c = true))) ∧
    let snapshot := (Assembly.ofModules project modules).build version
    ∀ declaration ∈ snapshot.declarations,
      ((∃ c ∈ declaration.name.toList, isIdentifierChar c = false) → declaration.reads = []) ∧
      ∀ source ∈ snapshot.modules, ∀ procedure word,
        isKnownIn snapshot.scopedModules declaration (.procedure source.name procedure) = true →
        declaration.name = String.ofList word → IsName word →
        (∀ c ∈ word, isIdentifierChar c = true) →
        ∃ first,
          snapshot.IsFirstNamed (.procedure source.name procedure) declaration.name first ∧
          ∀ expression before behind,
            source.parsed.tree.part? expression =
              some (.expression, String.ofList (before ++ (word ++ behind))) →
            source.parsed.tree.enclosingProcedure? expression = some procedure →
            IsUsed before word behind →
            ∃ (index id : Nat) (selection : Selection),
              (occurrences (before ++ (word ++ behind)))[index]? = some ⟨word, byteLength before⟩ ∧
              (source.parsed.tree.children expression)[index]? = some id ∧
              snapshot.Records
                ⟨source.name, id, selection, String.ofList word, false, first.id⟩ := by
  refine ⟨fun word ↦ ⟨exists_declaredItem?_iff, exists_parameter?_iff, exists_signature?_iff,
    plainName?_eq_self_iff, fun hname ↦ hname.occurrences_eq_self_iff⟩, ?_⟩
  intro snapshot declaration hdeclaration
  have hread : snapshot.IsRead := Assembly.isRead_build project modules version
  have hscanned : ∀ source ∈ snapshot.modules, source.parsed.tree.IsScanned :=
    fun _ ↦ Assembly.isScanned_build project modules version
  constructor
  · rintro ⟨c, hc, hmark⟩
    exact hread.reads_eq_nil hscanned hdeclaration hc hmark
  intro source hsource procedure word hknown hnamed hname hword
  obtain ⟨first, hfirst, hfound⟩ := hread.exists_isFirstNamed hdeclaration hknown
  refine ⟨first, hfirst, fun expression before behind hpart hinside hused ↦ ?_⟩
  obtain ⟨index, hindex⟩ := List.getElem?_of_mem (hname.mem_occurrences hword hused)
  rw [hnamed] at hfound
  obtain ⟨id, selection, hchild, hrecords⟩ :=
    hread.records_word hsource (hscanned source hsource) hfound hpart hinside hindex
  exact ⟨index, id, selection, hindex, hchild, hrecords⟩

/-! ## A name with an umlaut -/

/-- A variable whose name has a letter beyond ASCII, and a use of it. -/
def umlautUse : ModuleText where
  component := "M"
  type := .standardModule
  text := "Sub Foo()\n    Dim Zähler As Long\n    Debug.Print Zähler\nEnd Sub\n"

theorem names_are_read_unless_marked_umlaut :
    let snapshot := (Assembly.ofModules "P" [umlautUse]).build 1
    let source := umlautUse.source "P"
    occurrences "Zähler".toList = [⟨"Zähler".toList, 0⟩] ∧
      ∃ first, snapshot.IsFirstNamed (.procedure source.name 3) "Zähler" first ∧
        ∃ (index id : Nat) (selection : Selection),
          (source.parsed.tree.children 10)[index]? = some id ∧
            snapshot.Records ⟨source.name, id, selection, "Zähler", false, first.id⟩ := by
  intro snapshot source
  have hname : IsName "Zähler".toList := by decide +kernel
  have hword : ∀ c ∈ "Zähler".toList, isIdentifierChar c = true :=
    List.all_eq_true.1 (by decide +kernel)
  obtain ⟨hforms, hnames⟩ := names_are_read_unless_marked "P" [umlautUse] 1
  refine ⟨((hforms "Zähler".toList).2.2.2.2 hname (by decide +kernel)).2 hword, ?_⟩
  have hsource : source ∈ snapshot.modules :=
    Assembly.mem_modules_build_singleton "P" umlautUse 1
  have hfacts :
      let tree := source.parsed.tree
      (∃ bare ∈ (Declaring.ofModules [source.scoped]).declarations, bare.name = "Zähler" ∧
        isKnownIn [source.scoped] bare (.procedure ⟨"P", "M"⟩ 3) = true) ∧
        tree.part? 10 = some (.expression, "Debug.Print Zähler") ∧
        tree.enclosingProcedure? 10 = some 3 := by
    decide +kernel
  obtain ⟨hdeclared, hpart, hinside⟩ := hfacts
  obtain ⟨declaration, hdeclaration, hnamed, hknown⟩ :=
    Assembly.exists_declaration_build_singleton "P" umlautUse 1 (fun _ h ↦ h) hdeclared
  rw [← Assembly.scopedModules_build_singleton "P" umlautUse 1] at hknown
  obtain ⟨first, hfirst, huses⟩ :=
    (hnames declaration hdeclaration).2 source hsource 3 "Zähler".toList hknown hnamed hname hword
  have hapart : ∀ c ∈ "Debug.Print ".toList.getLast?, IsSeparator c := by
    intro c hc
    cases hc
    exact isSeparator_of_isBlank (by decide +kernel)
  have hused : IsUsed "Debug.Print ".toList "Zähler".toList [] :=
    ⟨by decide +kernel, hapart, by decide +kernel, nofun⟩
  obtain ⟨index, id, selection, -, hchild, hrecords⟩ :=
    huses 10 "Debug.Print ".toList [] hpart hinside hused
  exact ⟨first, hnamed ▸ hfirst, index, id, selection, hchild, hrecords⟩

/-! ## A name with a combining mark -/

/-- The same letter written as a vowel with a combining diaeresis. -/
def markedUse : ModuleText where
  component := "M"
  type := .standardModule
  text := "Sub Foo()\n    Dim Za\u0308hler As Long\n    Debug.Print Za\u0308hler\nEnd Sub\n"

/-- All forms of declarations take a name with a combining mark. A scan cuts it in two, and the variable
of this name that is used in its procedure is not read. -/
theorem marked_name_is_not_read :
    let word := "Za\u0308hler".toList
    let snapshot := (Assembly.ofModules "P" [markedUse]).build 1
    let source := markedUse.source "P"
    declaredItem? word = some ⟨word, false, false, none⟩ ∧
      parameter? word = some ⟨word, false, none⟩ ∧
      signature? ("Sub ".toList ++ word) = some ⟨.subStmt, ⟨word, 4⟩, true, none, none⟩ ∧
      plainName? word = some word ∧ isReserved word = false ∧
      occurrences word = [⟨"Za".toList, 0⟩, ⟨"hler".toList, 4⟩] ∧
      source ∈ snapshot.modules ∧
      ∃ declaration ∈ snapshot.declarations, declaration.kind = .variableItem ∧
        declaration.name = String.ofList word ∧
        isKnownIn snapshot.scopedModules declaration (.procedure source.name 3) = true ∧
        source.parsed.tree.part? 10 =
          some (.expression, String.ofList ("Debug.Print ".toList ++ word)) ∧
        source.parsed.tree.enclosingProcedure? 10 = some 3 ∧ declaration.reads = [] := by
  intro word snapshot source
  have hname : IsName word := by decide +kernel
  have hread : snapshot.IsRead := Assembly.isRead_build "P" [markedUse] 1
  have hfacts :
      let tree := source.parsed.tree
      (∃ bare ∈ (Declaring.ofModules [source.scoped]).declarations, bare.kind = .variableItem ∧
        bare.name = String.ofList word ∧
        isKnownIn [source.scoped] bare (.procedure ⟨"P", "M"⟩ 3) = true) ∧
        tree.part? 10 = some (.expression, String.ofList ("Debug.Print ".toList ++ word)) ∧
        tree.enclosingProcedure? 10 = some 3 := by
    decide +kernel
  obtain ⟨hdeclared, hpart, hinside⟩ := hfacts
  obtain ⟨declaration, hdeclaration, hkind, hnamed, hknown⟩ :=
    Assembly.exists_declaration_build_singleton "P" markedUse 1 (fun _ h ↦ h) hdeclared
  rw [← Assembly.scopedModules_build_singleton "P" markedUse 1] at hknown
  have hmark : '\u0308' ∈ declaration.name.toList := by
    rw [hnamed]
    decide +kernel
  refine ⟨hname.declaredItem?_eq, hname.parameter?_eq, hname.signature?_eq, hname.plainName?_eq,
    by decide +kernel, by decide +kernel, Assembly.mem_modules_build_singleton "P" markedUse 1,
    declaration, hdeclaration, hkind, hnamed, hknown, hpart, hinside, ?_⟩
  exact hread.reads_eq_nil (fun _ ↦ Assembly.isScanned_build "P" [markedUse] 1) hdeclaration hmark
    (by decide +kernel)

end VbaLint
