import VbaLint.Proofs.ListLemmas
import VbaLint.Proofs.Tree.Enclosing
import VbaLint.Proofs.Tree.Making
import VbaLint.Proofs.Tree.Visits

/-!
# The walks through a tree agree

The way up follows the links to the parents. Of the two walks downwards one keeps on a stack the nodes that
it has still to come to, and the other walks through the children of each node in turn. They end although
nothing counts their steps, because links lead to smaller numbers, and they come to the same nodes in the
same order.
-/

namespace VbaLint.Tree

open Source

/-! ## Loops -/

/-- From a state on, a loop makes a number of steps and then stops in the final state. -/
inductive Halts {State : Type} (step : State → Option State) : State → Nat → State → Prop
  | stop {state : State} (h : step state = none) : Halts step state 0 state
  | step {state next final : State} {count : Nat} (h : step state = some next)
      (hrest : Halts step next count final) : Halts step state (count + 1) final

namespace Visit

def entered? : Visit → Option Nat
  | enter _ id => some id
  | leave _ _ => none

/-- The nodes that are open after some visits, innermost first, unless one of the visits leaves a node that
is not the innermost open one. -/
def openAfter (opened : List Nat) : List Visit → Option (List Nat)
  | [] => some opened
  | enter kind id :: visits => openAfter (if kind.encloses then id :: opened else opened) visits
  | leave _ id :: visits => if opened.head? = some id then openAfter opened.tail visits else none

end Visit

namespace SyntaxTree

variable {tree : SyntaxTree} {id top parent : Nat} {kind : NodeKind}

/-- A step of the way up: the node that is next is noted, and its parent is next. -/
def climb (tree : SyntaxTree) : List Nat × Option Nat → Option (List Nat × Option Nat)
  | (_, none) => none
  | (noted, some id) => some (noted ++ [id], tree.parent? id)

/-- A step of the walk with a stack: the topmost node is noted, and its children are put on the stack, the
last one first. -/
def descend (tree : SyntaxTree) : List Nat × List Nat → Option (List Nat × List Nat)
  | (_, []) => none
  | (noted, id :: stack) =>
    some (noted ++ [id], (tree.children id).reverse.foldl (fun stack child ↦ child :: stack) stack)

/-- The visits from entering a node up to leaving it are those of the nodes below it. -/
structure IsEnclosed (tree : SyntaxTree) (id : Nat) (kind : NodeKind) (before inner behind : List Visit) :
    Prop where
  visits_eq : tree.visits =
    before ++ (.enter kind id :: inner ++ if kind.encloses then [.leave kind id] else []) ++ behind
  inside : ∀ visit ∈ inner, id ∈ tree.ancestors visit.node
  outside : ∀ visit ∈ before ++ behind, visit.node ≠ id ∧ id ∉ tree.ancestors visit.node

/-- What the walks through a tree have in common. -/
structure WalksAgree (tree : SyntaxTree) : Prop where
  /-- Each node but the root has a parent with a smaller number, which alone lists it and lists it once. -/
  parent (id : Nat) (hroot : 0 < id) (hid : id < tree.size) : ∃ parent < id,
    tree.parent? id = some parent ∧ (tree.children parent).count id = 1 ∧
      ∀ other, id ∈ tree.children other → other = parent
  /-- The way up goes from parent to parent, down in numbers, and ends at the root. -/
  ancestors (id : Nat) (hid : id < tree.size) :
    Halts tree.climb ([], tree.parent? id) (tree.ancestors id).length (tree.ancestors id, none) ∧
      (id :: tree.ancestors id).Pairwise (· > ·) ∧
      (id :: tree.ancestors id).IsChain (fun child parent ↦ tree.parent? child = some parent) ∧
      (id :: tree.ancestors id).getLast? = some 0
  /-- The walk with a stack ends when it has come to each node once. -/
  preorder_halts : Halts tree.descend ([], [0]) tree.size (tree.preorder, [])
  preorder_perm : tree.preorder.Perm (List.range tree.size)
  parents_first {id parent : Nat} : tree.parent? id = some parent → [parent, id].Sublist tree.preorder
  siblings_in_order {left right parent : Nat} : left < right → tree.parent? left = some parent →
    tree.parent? right = some parent → [left, right].Sublist tree.preorder
  /-- The other walk enters the nodes in the same order. -/
  entered_eq : tree.visits.filterMap (·.entered?) = tree.preorder
  kind_eq : ∀ visit ∈ tree.visits, tree.kind? visit.node = some visit.kind
  enclosed {id : Nat} {kind : NodeKind} : tree.kind? id = some kind →
    ∃ before inner behind, tree.IsEnclosed id kind before inner behind
  openAfter_eq : Visit.openAfter [] tree.visits = some []

/-! ## The way up -/

theorem exists_parent?_of_pos (hroot : 0 < id) (hid : id < tree.size) :
    ∃ parent, tree.parent? id = some parent := by
  cases hparent : tree.parent? id with
  | none =>
    have habove : 0 ∈ tree.ancestors id := zero_mem_ancestors_iff.2 ⟨hroot, hid⟩
    rw [ancestors_of_no_parent hparent] at habove
    cases habove
  | some parent => exact ⟨parent, rfl⟩

theorem parent?_zero (tree : SyntaxTree) : tree.parent? 0 = none := by
  cases hparent : tree.parent? 0 with
  | none => rfl
  | some parent => exact absurd (parent_lt hparent) (Nat.not_lt_zero parent)

theorem halts_climb (tree : SyntaxTree) (noted : List Nat) (id : Nat) :
    Halts tree.climb (noted, tree.parent? id) (tree.ancestors id).length
      (noted ++ tree.ancestors id, none) := by
  induction id using Nat.strongRecOn generalizing noted with
  | ind id ih =>
    cases hparent : tree.parent? id with
    | none =>
      rw [ancestors_of_no_parent hparent, List.append_nil]
      exact .stop rfl
    | some parent =>
      have hrest := ih parent (parent_lt hparent) (noted ++ [parent])
      rw [List.append_assoc, List.singleton_append, ← ancestors_of_parent hparent] at hrest
      rw [ancestors_of_parent hparent, List.length_cons, ← ancestors_of_parent hparent]
      exact .step rfl hrest

theorem pairwise_ancestors (tree : SyntaxTree) (id : Nat) :
    (id :: tree.ancestors id).Pairwise (· > ·) := by
  induction id using Nat.strongRecOn with
  | ind id ih =>
    refine List.pairwise_cons.2 ⟨fun ancestor hancestor ↦ lt_of_mem_ancestors hancestor, ?_⟩
    cases hparent : tree.parent? id with
    | none =>
      rw [ancestors_of_no_parent hparent]
      exact .nil
    | some parent =>
      rw [ancestors_of_parent hparent]
      exact ih parent (parent_lt hparent)

theorem isChain_ancestors (tree : SyntaxTree) (id : Nat) :
    (id :: tree.ancestors id).IsChain fun child parent ↦ tree.parent? child = some parent := by
  induction id using Nat.strongRecOn with
  | ind id ih =>
    cases hparent : tree.parent? id with
    | none =>
      rw [ancestors_of_no_parent hparent]
      exact .singleton id
    | some parent =>
      rw [ancestors_of_parent hparent]
      exact .cons_cons hparent (ih parent (parent_lt hparent))

theorem getLast?_ancestors (hid : id < tree.size) : (id :: tree.ancestors id).getLast? = some 0 := by
  induction id using Nat.strongRecOn with
  | ind id ih =>
    rcases Nat.eq_zero_or_pos id with rfl | hroot
    · rw [ancestors_of_no_parent tree.parent?_zero]
      rfl
    · obtain ⟨parent, hparent⟩ := exists_parent?_of_pos hroot hid
      have hlt := parent_lt hparent
      rw [ancestors_of_parent hparent, List.getLast?_cons_cons]
      exact ih parent hlt (Nat.lt_trans hlt hid)

/-! ## The walk with a stack -/

theorem descend_cons (tree : SyntaxTree) (noted : List Nat) (id : Nat) (stack : List Nat) :
    tree.descend (noted, id :: stack) = some (noted ++ [id], tree.children id ++ stack) := by
  rw [descend, List.foldl_reverse, List.foldr_cons_eq_append, List.map_id']

/-- A node on top of the stack is worked off together with all that is below it, before the rest of the
stack is touched. -/
theorem halts_descend {noted stack : List Nat} {count : Nat} {final : List Nat × List Nat} (id : Nat)
    (h : Halts tree.descend (noted ++ tree.preorderFrom id, stack) count final) :
    Halts tree.descend (noted, id :: stack) ((tree.preorderFrom id).length + count) final := by
  induction hrank : tree.size - id using Nat.strongRecOn generalizing id noted stack count with
  | ind rank ih =>
    have hchildren (children : List Nat) (hknown : ∀ child ∈ children, child ∈ tree.children id)
        {noted : List Nat} {count : Nat}
        (h : Halts tree.descend (noted ++ children.flatMap tree.preorderFrom, stack) count final) :
        Halts tree.descend (noted, children ++ stack)
          ((children.flatMap tree.preorderFrom).length + count) final := by
      induction children generalizing noted with
      | nil => simpa using h
      | cons child children ihchildren =>
        obtain ⟨hchild, hknown⟩ := List.forall_mem_cons.1 hknown
        obtain ⟨hlt, hsize⟩ := lt_of_mem_children hchild
        rw [List.flatMap_cons, ← List.append_assoc] at h
        have hbelow := ih (tree.size - child) (by omega) child (ihchildren hknown h) rfl
        rwa [← Nat.add_assoc, ← List.length_append, ← List.flatMap_cons] at hbelow
    rw [preorderFrom_eq, List.append_cons] at h
    have hrest := hchildren (tree.children id) (fun _ hchild ↦ hchild) h
    rw [preorderFrom_eq, List.length_cons, Nat.succ_add]
    exact .step (tree.descend_cons noted id stack) hrest

theorem perm_preorder (tree : SyntaxTree) : tree.preorder.Perm (List.range tree.size) :=
  (List.perm_ext_iff_of_nodup tree.nodup_preorder List.nodup_range).2 fun _ ↦
    mem_preorder.trans List.mem_range.symm

theorem halts_descend_preorder (tree : SyntaxTree) :
    Halts tree.descend ([], [0]) tree.size (tree.preorder, []) := by
  have hstop : Halts tree.descend ([] ++ tree.preorderFrom 0, []) 0 (tree.preorder, []) := .stop rfl
  have hlength : tree.preorder.length = tree.size := by
    rw [tree.perm_preorder.length_eq, List.length_range]
  have hall := halts_descend 0 hstop
  rwa [← preorder, hlength] at hall

/-! ## The order of the nodes -/

theorem parent_sublist_preorderFrom (hparent : tree.parent? id = some parent)
    (h : parent ∈ tree.preorderFrom top) : [parent, id].Sublist (tree.preorderFrom top) := by
  induction hrank : tree.size - top using Nat.strongRecOn generalizing top with
  | ind rank ih =>
    rw [preorderFrom_eq] at h ⊢
    rcases List.mem_cons.1 h with rfl | h
    · have hchild := mem_children.2 hparent
      have hlisted : id ∈ (tree.children parent).flatMap tree.preorderFrom :=
        List.mem_flatMap.2 ⟨id, hchild, mem_preorderFrom.2 (.inl rfl)⟩
      exact (List.singleton_sublist.2 hlisted).cons_cons parent
    · obtain ⟨child, hchild, hbelow⟩ := List.mem_flatMap.1 h
      obtain ⟨hlt, hsize⟩ := lt_of_mem_children hchild
      have hinner := ih (tree.size - child) (by omega) hbelow rfl
      exact (hinner.trans (sublist_flatMap_of_mem tree.preorderFrom hchild)).cons top

theorem siblings_sublist_preorder {left right : Nat} (hlt : left < right)
    (hleft : tree.parent? left = some parent) (hright : tree.parent? right = some parent) :
    [left, right].Sublist tree.preorder := by
  have hlisted {child : Nat} (h : tree.parent? child = some parent) : child ∈ tree.preorder :=
    mem_preorder.2 (lt_of_mem_children (mem_children.2 h)).2
  refine pair_sublist_of_pairwise (tree.pairwise_siblings_preorderFrom 0) (hlisted hleft) (hlisted hright)
    (Nat.ne_of_lt hlt) fun h ↦ ?_
  exact Nat.lt_asymm hlt (h parent hright hleft)

/-! ## The walk through the children -/

theorem entered_visitsFrom (hid : id < tree.size) :
    (tree.visitsFrom id).filterMap (·.entered?) = tree.preorderFrom id := by
  induction hrank : tree.size - id using Nat.strongRecOn generalizing id with
  | ind rank ih =>
    obtain ⟨kind, hkind⟩ := exists_kind?_of_lt hid
    have hbelow : ((tree.children id).flatMap tree.visitsFrom).filterMap (·.entered?) =
        (tree.children id).flatMap tree.preorderFrom := by
      rw [List.filterMap_flatMap]
      apply List.flatMap_congr
      intro child hchild
      obtain ⟨hlt, hsize⟩ := lt_of_mem_children hchild
      exact ih (tree.size - child) (by omega) hsize rfl
    have hleft : (if kind.encloses then [Visit.leave kind id] else []).filterMap (·.entered?) = [] := by
      split <;> rfl
    rw [visitsFrom_of_kind hkind, preorderFrom_eq, List.filterMap_append, hleft, List.append_nil,
      List.filterMap_cons_some (show (Visit.enter kind id).entered? = some id from rfl), hbelow]

/-- What the walk has opened it leaves, innermost first. -/
theorem openAfter_visitsFrom (opened : List Nat) (visits : List Visit) :
    Visit.openAfter opened (tree.visitsFrom id ++ visits) = Visit.openAfter opened visits := by
  induction hrank : tree.size - id using Nat.strongRecOn generalizing id opened visits with
  | ind rank ih =>
    cases hkind : tree.kind? id with
    | none => rw [visitsFrom_of_no_kind hkind, List.nil_append]
    | some kind =>
      have hchildren (children : List Nat) (hknown : ∀ child ∈ children, child ∈ tree.children id)
          (opened : List Nat) (visits : List Visit) :
          Visit.openAfter opened (children.flatMap tree.visitsFrom ++ visits) =
            Visit.openAfter opened visits := by
        induction children with
        | nil => rfl
        | cons child children ihchildren =>
          obtain ⟨hchild, hknown⟩ := List.forall_mem_cons.1 hknown
          obtain ⟨hlt, hsize⟩ := lt_of_mem_children hchild
          rw [List.flatMap_cons, List.append_assoc, ih (tree.size - child) (by omega) _ _ rfl,
            ihchildren hknown]
      rw [visitsFrom_of_kind hkind, List.append_assoc, List.cons_append, Visit.openAfter,
        hchildren (tree.children id) (fun _ hchild ↦ hchild)]
      split
      · rw [List.singleton_append, Visit.openAfter, List.head?_cons, if_pos rfl, List.tail_cons]
      · rw [List.nil_append]

/-- What is at or below a node is at or below each node that the first is at or below. -/
theorem mem_preorderFrom_trans {below : Nat} (hid : id ∈ tree.preorderFrom top)
    (hbelow : below ∈ tree.preorderFrom id) : below ∈ tree.preorderFrom top := by
  have hencloses {above below : Nat} : below ∈ tree.preorderFrom above ↔ tree.Encloses above below := by
    rw [mem_preorderFrom, ← mem_ancestors_iff_encloses, List.mem_cons, eq_comm]
  exact hencloses.2 ((hencloses.1 hbelow).trans (hencloses.1 hid))

/-- The walk stays below a node until it is through with it. -/
theorem exists_visitsFrom_eq (hid : id ∈ tree.preorderFrom top) (hsize : top < tree.size) :
    ∃ before behind, tree.visitsFrom top = before ++ tree.visitsFrom id ++ behind ∧
      ∀ visit ∈ before ++ behind, visit.node ∉ tree.preorderFrom id := by
  induction hrank : tree.size - top using Nat.strongRecOn generalizing top with
  | ind rank ih =>
    rw [preorderFrom_eq] at hid
    rcases List.mem_cons.1 hid with rfl | hid
    · exact ⟨[], [], by simp, nofun⟩
    obtain ⟨child, hchild, hid⟩ := List.mem_flatMap.1 hid
    obtain ⟨hlt, hchildSize⟩ := lt_of_mem_children hchild
    obtain ⟨before, behind, hvisits, houtside⟩ := ih (tree.size - child) (by omega) hid hchildSize rfl
    obtain ⟨kind, hkind⟩ := exists_kind?_of_lt hsize
    obtain ⟨front, rest, hsplit⟩ := List.append_of_mem hchild
    refine ⟨.enter kind top :: front.flatMap tree.visitsFrom ++ before,
      behind ++ rest.flatMap tree.visitsFrom ++ if kind.encloses then [.leave kind top] else [], ?_, ?_⟩
    · rw [visitsFrom_of_kind hkind, hsplit, List.flatMap_append, List.flatMap_cons, hvisits]
      simp only [List.append_assoc, List.cons_append]
    -- Visits of the top and of the other children are not below the child that holds the node.
    have htop : top ∉ tree.preorderFrom id := fun h ↦ by
      have hle := le_of_mem_preorderFrom h
      have hle' := le_of_mem_preorderFrom hid
      omega
    have hnodup : child ∉ front ++ rest := by
      have h := tree.nodup_children top
      rw [hsplit] at h
      exact (List.nodup_middle.1 h).notMem
    have hother {visit : Visit} {sibling : Nat} (hsibling : sibling ∈ front ++ rest)
        (hvisit : visit ∈ tree.visitsFrom sibling) : visit.node ∉ tree.preorderFrom id := fun h ↦ by
      have hmem : sibling ∈ tree.children top := by
        rw [hsplit]
        exact (List.perm_middle.mem_iff).2 (List.mem_cons_of_mem child hsibling)
      have hne : child ≠ sibling := by
        rintro rfl
        exact hnodup hsibling
      exact not_mem_preorderFrom_sibling hchild hmem hne (mem_preorderFrom_trans hid h)
        (kind?_of_mem_visitsFrom hvisit).2
    intro visit hvisit
    simp only [List.mem_append, List.mem_cons, List.mem_flatMap] at hvisit houtside
    rcases hvisit with ((rfl | ⟨sibling, hsibling, hvisit⟩) | hvisit) |
      (hvisit | ⟨sibling, hsibling, hvisit⟩) | hvisit
    · exact htop
    · exact hother (List.mem_append_left _ hsibling) hvisit
    · exact houtside visit (.inl hvisit)
    · exact houtside visit (.inr hvisit)
    · exact hother (List.mem_append_right _ hsibling) hvisit
    · split at hvisit
      · cases List.mem_singleton.1 hvisit
        exact htop
      · cases hvisit

theorem exists_isEnclosed (hkind : tree.kind? id = some kind) :
    ∃ before inner behind, tree.IsEnclosed id kind before inner behind := by
  have hid : id ∈ tree.preorder := mem_preorder.2 (lt_size_of_kind? hkind)
  obtain ⟨before, behind, hvisits, houtside⟩ := exists_visitsFrom_eq hid tree.size_pos
  refine ⟨before, (tree.children id).flatMap tree.visitsFrom, behind, ?_, ?_, ?_⟩
  · rw [visits, hvisits, visitsFrom_of_kind hkind]
  · intro visit hvisit
    obtain ⟨child, hchild, hvisit⟩ := List.mem_flatMap.1 hvisit
    have hbelow := mem_preorderFrom.1 (kind?_of_mem_visitsFrom hvisit).2
    exact mem_ancestors_iff_exists_child.2 ⟨child, hchild, hbelow⟩
  · intro visit hvisit
    simpa only [mem_preorderFrom, not_or] using houtside visit hvisit

/-! ## Agreement -/

theorem walksAgree (tree : SyntaxTree) : tree.WalksAgree where
  parent id hroot hid := by
    obtain ⟨parent, hparent⟩ := exists_parent?_of_pos hroot hid
    have hlisted := mem_children.2 hparent
    refine ⟨parent, parent_lt hparent, hparent,
      List.count_eq_one_of_mem (tree.nodup_children parent) hlisted, fun other hother ↦ ?_⟩
    exact Option.some.inj ((mem_children.1 hother).symm.trans hparent)
  ancestors id hid :=
    ⟨tree.halts_climb [] id, tree.pairwise_ancestors id, tree.isChain_ancestors id,
      getLast?_ancestors hid⟩
  preorder_halts := tree.halts_descend_preorder
  preorder_perm := tree.perm_preorder
  parents_first hparent := by
    have hlt := Nat.lt_trans (parent_lt hparent) (lt_of_mem_children (mem_children.2 hparent)).2
    exact parent_sublist_preorderFrom hparent (mem_preorder.2 hlt)
  siblings_in_order := siblings_sublist_preorder
  entered_eq := entered_visitsFrom tree.size_pos
  kind_eq _ hvisit := (kind?_of_mem_visitsFrom hvisit).1
  enclosed := exists_isEnclosed
  openAfter_eq := by
    have h : Visit.openAfter [] (tree.visitsFrom 0 ++ []) = Visit.openAfter [] [] :=
      openAfter_visitsFrom [] []
    rwa [List.append_nil] at h

/-- In a tree that is made by any changes, in which the nodes are numbered as they are added, the way up from
each node ends at the root, the walk with a stack and the walk through the children come to each node once
and in the same order, and nodes that enclose others are left when the walk is through with these. -/
theorem walks_agree_in_made (text : String) (selection : Selection) (changes : List Change) :
    (made text selection changes).IsMadeOf text (changes.filterMap (·.addition?)) ∧
      (made text selection changes).WalksAgree := by
  have hmade := (isMadeOf_ofRoot text selection).foldl changes
  exact ⟨hmade, walksAgree _⟩

end SyntaxTree

end VbaLint.Tree
