import Mathlib.Data.List.Basic
import VbaLint.Files.Path

/-!
# Paths by their parts

A name that is joined to a path becomes its last part. In the order of paths, two are equal if they have
the same parts, and sorting puts paths with different parts into strictly increasing order.
-/

namespace VbaLint.Files

/-- The text can name an entry of a directory. -/
structure IsFileName (name : String) : Prop where
  ne_empty : name ≠ ""
  ne_current : name ≠ "."
  ne_parent : name ≠ ".."
  no_slash : '/' ∉ name.toList

instance (name : String) : Decidable (IsFileName name) :=
  decidable_of_iff (name ≠ "" ∧ name ≠ "." ∧ name ≠ ".." ∧ '/' ∉ name.toList)
    ⟨fun h ↦ ⟨h.1, h.2.1, h.2.2.1, h.2.2.2⟩,
      fun h ↦ ⟨h.ne_empty, h.ne_current, h.ne_parent, h.no_slash⟩⟩

theorem splitAtSlashes_ne_nil (text : List Char) : splitAtSlashes text ≠ [] := by
  cases text with
  | nil => simp [splitAtSlashes]
  | cons c rest =>
    rw [splitAtSlashes]
    split
    · simp
    · split <;> simp

theorem splitAtSlashes_cons (c : Char) (rest : List Char) :
    ∃ piece more, splitAtSlashes rest = piece :: more ∧ splitAtSlashes (c :: rest) =
      if c = '/' then [] :: piece :: more else (c :: piece) :: more := by
  obtain ⟨piece, more, hrest⟩ := List.exists_cons_of_ne_nil (splitAtSlashes_ne_nil rest)
  refine ⟨piece, more, hrest, ?_⟩
  rw [splitAtSlashes, hrest]

theorem splitAtSlashes_of_not_mem {text : List Char} (h : '/' ∉ text) :
    splitAtSlashes text = [text] := by
  induction text with
  | nil => rfl
  | cons c rest ih =>
    obtain ⟨hc, hrest⟩ := List.ne_and_not_mem_of_not_mem_cons h
    obtain ⟨piece, more, hpieces, hcons⟩ := splitAtSlashes_cons c rest
    rw [ih hrest] at hpieces
    cases hpieces
    rw [hcons, if_neg hc.symm]

theorem splitAtSlashes_append (front rest : List Char) :
    splitAtSlashes (front ++ '/' :: rest) = splitAtSlashes front ++ splitAtSlashes rest := by
  induction front with
  | nil =>
    obtain ⟨piece, more, hpieces, hcons⟩ := splitAtSlashes_cons '/' rest
    rw [List.nil_append, hcons, if_pos rfl, hpieces]
    rfl
  | cons c front ih =>
    obtain ⟨piece, more, hpieces, hcons⟩ := splitAtSlashes_cons c front
    obtain ⟨piece', more', hpieces', hcons'⟩ := splitAtSlashes_cons c (front ++ '/' :: rest)
    rw [ih, hpieces, List.cons_append] at hpieces'
    cases hpieces'
    rw [List.cons_append, hcons', hcons]
    split <;> rfl

theorem eq_nil_of_splitAtSlashes {text : List Char} (h : splitAtSlashes text = [[]]) : text = [] := by
  cases text with
  | nil => rfl
  | cons c rest =>
    obtain ⟨piece, more, -, hcons⟩ := splitAtSlashes_cons c rest
    rw [hcons] at h
    split at h <;> simp at h

theorem exists_segments (path : String) : ∃ first rest, segments path = first :: rest :=
  List.exists_cons_of_ne_nil (by simp [segments, splitAtSlashes_ne_nil])

theorem eq_empty_of_segments {path : String} (h : segments path = [""]) : path = "" := by
  obtain ⟨piece, hpieces, hpiece⟩ := List.map_eq_singleton_iff.1 h
  rw [← String.toList_inj, String.toList_ofList] at hpiece
  rw [← String.toList_inj]
  exact eq_nil_of_splitAtSlashes (by simpa [hpiece] using hpieces)

section Join

variable {path name : String}

theorem segments_of_no_slash (h : '/' ∉ name.toList) : segments name = [name] := by
  rw [segments, splitAtSlashes_of_not_mem h, List.map_singleton, String.ofList_toList]

theorem segments_append (front : String) (h : '/' ∉ name.toList) :
    segments (front ++ "/" ++ name) = segments front ++ [name] := by
  have htext : (front ++ "/" ++ name).toList = front.toList ++ '/' :: name.toList := by
    simp [String.toList_append]
  rw [segments, htext, splitAtSlashes_append, List.map_append, splitAtSlashes_of_not_mem h,
    List.map_singleton, String.ofList_toList, segments]

theorem partOfSegment?_name (h : IsFileName name) : partOfSegment? name = some (.name name) := by
  simp [partOfSegment?, h.ne_empty, h.ne_current, h.ne_parent]

/-- The parts that a path of several segments has for all but its last one. -/
def frontParts (first : String) (rest : List String) : List PathPart :=
  (if first = "" then some .root else if first = "." then some .current
    else partOfSegment? first).toList ++ rest.filterMap partOfSegment?

theorem parts_of_segments {first last : String} {rest : List String}
    (h : segments path = first :: rest ++ [last]) :
    parts path = frontParts first rest ++ (partOfSegment? last).toList := by
  have hlast : [last].filterMap partOfSegment? = (partOfSegment? last).toList := by
    cases hpart : partOfSegment? last <;> simp [hpart]
  rw [parts, h, List.cons_append]
  dsimp only
  rw [List.filterMap_append, hlast, frontParts, List.append_assoc]
  simp

/-- The segments of a path with a name joined to it. -/
theorem exists_segments_join (hname : '/' ∉ name.toList) (hpath : path ≠ "") :
    ∃ first rest, segments (join path name) = first :: rest ++ [name] ∧
      parts path = frontParts first rest := by
  by_cases hslash : path.toList.getLast? = some '/'
  · -- The slash at the end of the path is the one before the name.
    obtain ⟨front, hfront⟩ := List.getLast?_eq_some_iff.1 hslash
    have hends : path = String.ofList front ++ "/" ++ "" := by
      rw [← String.toList_inj, hfront]
      simp [String.toList_append]
    obtain ⟨first, rest, hsegments⟩ := exists_segments (String.ofList front)
    have hbefore : segments path = first :: rest ++ [""] := by
      rw [hends, segments_append _ (by simp), hsegments]
    refine ⟨first, rest, ?_, ?_⟩
    · rw [join, if_pos (by simp [hslash]), hends, String.append_empty, segments_append _ hname,
        hsegments]
    · rw [parts_of_segments hbefore]
      simp [partOfSegment?]
  · obtain ⟨first, rest, hsegments⟩ := exists_segments path
    refine ⟨first, rest, ?_, ?_⟩
    · rw [join, if_neg (by simp [hpath, hslash]), segments_append _ hname, hsegments]
    · have hroot : first = "" → rest.isEmpty = false := by
        rintro rfl
        cases rest with
        | nil => exact absurd (eq_empty_of_segments hsegments) hpath
        | cons => rfl
      rw [parts, hsegments, frontParts]
      dsimp only
      split
      · next hfirst => rw [hroot hfirst]; rfl
      · rfl

/-- A name that is joined to a path becomes its last part. -/
theorem parts_join (hname : IsFileName name) (path : String) :
    parts (join path name) = parts path ++ [.name name] := by
  by_cases hempty : path = ""
  · subst hempty
    have hjoin : join "" name = name := by simp [join]
    rw [hjoin, parts, segments_of_no_slash hname.no_slash]
    simp [hname.ne_empty, hname.ne_current, partOfSegment?_name hname, parts, segments,
      splitAtSlashes]
  · obtain ⟨first, rest, hsegments, hparts⟩ := exists_segments_join hname.no_slash hempty
    rw [parts_of_segments hsegments, partOfSegment?_name hname, hparts]
    rfl

/-- The name of a path that was joined is the part that was added. -/
theorem fileName?_join (hname : IsFileName name) (path : String) :
    fileName? (join path name) = some name := by
  rw [fileName?, parts_join hname, List.getLast?_concat]

/-- Names that are joined to a path one after another become its last parts. -/
theorem parts_foldl_join {trail : List String} (htrail : ∀ name ∈ trail, IsFileName name)
    (path : String) : parts (trail.foldl join path) = parts path ++ trail.map .name := by
  induction trail generalizing path with
  | nil => exact (List.append_nil _).symm
  | cons name rest ih =>
    obtain ⟨hname, hrest⟩ := List.forall_mem_cons.1 htrail
    rw [List.foldl_cons, ih hrest, parts_join hname, List.append_assoc]
    rfl

/-- Different names lead to different paths. -/
theorem foldl_join_inj {trail trail' : List String} (htrail : ∀ name ∈ trail, IsFileName name)
    (htrail' : ∀ name ∈ trail', IsFileName name)
    (h : parts (trail.foldl join path) = parts (trail'.foldl join path)) : trail = trail' := by
  rw [parts_foldl_join htrail, parts_foldl_join htrail'] at h
  exact List.map_injective_iff.2 (fun _ _ ↦ PathPart.name.inj) (List.append_cancel_left h)

end Join

def PathPart.text : PathPart → String
  | name text => text
  | _ => ""

theorem PathPart.order_eq :
    PathPart.order = compareLex (compareOn PathPart.rank) (compareOn PathPart.text) := by
  funext left right
  cases left <;> cases right <;> simp [order, compareLex, compareOn, rank, text, Nat.compare_eq_ite_lt]

instance : Std.TransCmp PathPart.order := by
  rw [PathPart.order_eq]
  infer_instance

instance : Std.LawfulEqCmp PathPart.order where
  eq_of_compare {left right} h := by
    cases left <;> cases right <;> simp_all [PathPart.order, PathPart.rank]

theorem orderParts_eq (left right : List PathPart) :
    order.orderParts left right = left.compareLex PathPart.order right := by
  induction left generalizing right with
  | nil => cases right <;> rfl
  | cons first rest ih =>
    cases right with
    | nil => rfl
    | cons => rw [order.orderParts, ih, List.compareLex_cons_cons]

theorem order_eq (left right : String) :
    order left right = (parts left).compareLex PathPart.order (parts right) :=
  orderParts_eq _ _

instance : Std.TransCmp order where
  eq_swap {left right} := by
    rw [order_eq, order_eq right]
    exact Std.OrientedCmp.eq_swap
  isLE_trans {left middle right} h h' := by
    rw [order_eq] at *
    exact Std.TransCmp.isLE_trans h h'

theorem order_eq_eq_iff {left right : String} : order left right = .eq ↔ parts left = parts right := by
  rw [order_eq, Std.LawfulEqCmp.compare_eq_iff_eq]

/-- Paths with different parts are in strictly increasing order when they are sorted. -/
theorem pairwise_mergeSort_order {paths : List String}
    (h : paths.Pairwise fun left right ↦ parts left ≠ parts right) :
    (paths.mergeSort fun left right ↦ order left right != .gt).Pairwise fun left right ↦
      order left right = .lt := by
  have htrans (left middle right : String) (h : (order left middle != .gt) = true)
      (h' : (order middle right != .gt) = true) : (order left right != .gt) = true := by
    rw [bne_iff_ne] at *
    exact Ordering.isLE_iff_ne_gt.1 <| Std.TransCmp.isLE_trans (Ordering.isLE_iff_ne_gt.2 h)
      (Ordering.isLE_iff_ne_gt.2 h')
  have htotal (left right : String) : (order left right != .gt || order right left != .gt) = true := by
    have hswap : order right left = (order left right).swap := Std.OrientedCmp.eq_swap
    rw [hswap]
    cases order left right <;> rfl
  have hsorted := List.pairwise_mergeSort htrans htotal paths
  have hdifferent := (List.mergeSort_perm paths fun left right ↦ order left right != .gt).symm.pairwise
    h (fun h ↦ h.symm)
  refine (hsorted.and hdifferent).imp ?_
  rintro left right ⟨hle, hne⟩
  cases horder : order left right with
  | lt => rfl
  | eq => exact absurd (order_eq_eq_iff.1 horder) hne
  | gt => simp [horder] at hle

end VbaLint.Files
