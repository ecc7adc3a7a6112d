import VbaLint.Proofs.Source.Comments
import VbaLint.Proofs.Source.Places
import VbaLint.Proofs.Text.Spans

/-!
# Reading across continued lines

The text of a logical line is what one reads in the source from the start of its first physical line, when
at the end of the code of a continued line one goes on with the code of the next line and reads a space
for the step. A logical line ends before the next one begins.
-/

namespace VbaLint.Source

open Text

variable {lines : List (List Char)} {p q r : Place} {text more : List Char} {c d : Char} {number : Nat}

/-! ## Code on a line -/

/-- The code on a line stands at its beginning. -/
theorem lineContent_isPrefix (line : List Char) : lineContent line <+: line := by
  rw [lineContent]
  split
  · exact (trimEnd_isPrefix _).trans ((List.dropLast_prefix _).trans (trimEnd_isPrefix line))
  · exact List.prefix_rfl

/-- Behind the code of a continued line stands a blank, unless there is no code on the line. -/
theorem exists_append_lineContent {line : List Char} (hcontinued : isContinued (trimEnd line) = true)
    (hcode : lineContent line ≠ []) :
    ∃ blank behind, line = lineContent line ++ blank :: behind ∧ isBlank blank = true := by
  have hcontent : lineContent line = trimEnd (trimEnd line).dropLast := if_pos hcontinued
  rw [hcontent] at hcode ⊢
  obtain ⟨outside, hline, -⟩ := exists_append_trimEnd line
  rcases Bool.or_eq_true_iff.1 hcontinued with halone | hmark
  · rw [eq_of_beq halone] at hcode
    exact absurd rfl hcode
  obtain ⟨front, hfront⟩ := List.isSuffixOf_iff_suffix.1 hmark
  have hsplit : trimEnd line = (front ++ [' ']) ++ ['_'] := by
    rw [← hfront, List.append_assoc]
    rfl
  rw [hsplit, List.dropLast_concat] at hcode ⊢
  obtain ⟨blanks, hblanks, hall⟩ := exists_append_trimEnd (front ++ [' '])
  cases blanks with
  | nil =>
    rw [List.append_nil] at hblanks
    have hlast : (trimEnd (front ++ [' '])).getLast? = some ' ' := by
      rw [← hblanks, List.getLast?_concat]
    exact absurd (not_isBlank_of_getLast_trimEnd hlast) (by decide)
  | cons blank blanks =>
    refine ⟨blank, blanks ++ '_' :: outside, ?_, hall blank List.mem_cons_self⟩
    calc line = (front ++ [' ']) ++ '_' :: outside := by
          rw [hline, hsplit, List.append_assoc, List.singleton_append]
      _ = trimEnd (front ++ [' ']) ++ blank :: (blanks ++ '_' :: outside) := by
          conv_lhs => rw [hblanks]
          rw [List.append_assoc, List.cons_append]

def codeAt (lines : List (List Char)) (number : Nat) : List Char := lineContent (lineAt lines number)

theorem charAt_of_codeAt {column : Nat} (h : (codeAt lines number)[column]? = some c) :
    charAt lines ⟨number, column + 1⟩ = some c := by
  obtain ⟨behind, hline⟩ := lineContent_isPrefix (lineAt lines number)
  have hlt : column < (lineContent (lineAt lines number)).length := (List.getElem?_eq_some_iff.1 h).1
  rw [charAt]
  dsimp only
  rw [← hline, List.getElem?_append_left hlt]
  exact h

/-- The line of the given number continues on the next one. -/
def ContinuesAt (lines : List (List Char)) (number : Nat) : Prop :=
  isContinued (trimEnd (lineAt lines number)) = true ∧ number < lines.length

/-- The place behind the code of a line. -/
def codeEnd (lines : List (List Char)) (number : Nat) : Place :=
  ⟨number, (codeAt lines number).length + 1⟩

/-- The place where the code of a line begins behind its leading blanks. -/
def codeStart (lines : List (List Char)) (number : Nat) : Place :=
  ⟨number, ((codeAt lines number).takeWhile isBlank).length + 1⟩

/-! ## Walks -/

/-- Reading the code of the lines from `p` on one reads the text and comes to `q`. -/
inductive Walk (lines : List (List Char)) : Place → List Char → Place → Prop
  /-- Nothing is read. -/
  | stay (p : Place) : Walk lines p [] p
  /-- The next character of the code on the line is read. -/
  | char {number column : Nat} {c : Char} {text : List Char} {q : Place}
      (hc : (codeAt lines number)[column]? = some c)
      (hrest : Walk lines ⟨number, column + 2⟩ text q) : Walk lines ⟨number, column + 1⟩ (c :: text) q
  /-- At the end of a continued line reading goes on behind the leading blanks of the next one. -/
  | next {number : Nat} {text : List Char} {q : Place} (hcontinues : ContinuesAt lines number)
      (hrest : Walk lines (codeStart lines (number + 1)) text q) :
      Walk lines (codeEnd lines number) (' ' :: text) q

namespace Walk

theorem eq_of_nil (h : Walk lines p [] q) : q = p := by
  cases h
  rfl

/-- Two walks, one behind the other, are a walk. -/
theorem append (h : Walk lines p text q) (hmore : Walk lines q more r) :
    Walk lines p (text ++ more) r := by
  induction h with
  | stay p => exact hmore
  | char hc _ ih => exact .char hc (ih hmore)
  | next hcontinues _ ih => exact .next hcontinues (ih hmore)

/-- A walk comes to a place between the two parts of what is read. -/
theorem exists_between (h : Walk lines p (text ++ more) r) :
    ∃ q, Walk lines p text q ∧ Walk lines q more r := by
  induction text generalizing p with
  | nil => exact ⟨p, .stay p, h⟩
  | cons c text ih =>
    rw [List.cons_append] at h
    cases h with
    | char hc hrest =>
      obtain ⟨q, hbefore, hbehind⟩ := ih hrest
      exact ⟨q, .char hc hbefore, hbehind⟩
    | next hcontinues hrest =>
      obtain ⟨q, hbefore, hbehind⟩ := ih hrest
      exact ⟨q, .next hcontinues hbefore, hbehind⟩

/-- A walk never goes back to an earlier line. -/
theorem line_le (h : Walk lines p text q) : p.line ≤ q.line := by
  induction h with
  | stay p => exact le_rfl
  | char _ _ ih => exact ih
  | next _ _ ih => exact (Nat.le_succ _).trans ih

/-- A walk that stays on its line goes right by one column for each character. -/
theorem column_eq (h : Walk lines p text q) (hline : p.line = q.line) :
    q.column = p.column + text.length := by
  induction h with
  | stay p => rfl
  | char _ _ ih =>
    rw [ih hline, List.length_cons]
    dsimp only
    omega
  | next _ hrest _ =>
    exact absurd hrest.line_le (Nat.not_le.2 (Nat.lt_succ_of_le hline.ge))

/-- A walk that stays on its line reads what stands there. -/
theorem isPrefix_drop (h : Walk lines p text q) (hline : p.line = q.line) :
    text <+: (lineAt lines p.line).drop (p.column - 1) := by
  induction h with
  | stay p => exact List.nil_prefix
  | @char number column c text q hc _ ih =>
    have hat : (lineAt lines number)[column]? = some c := charAt_of_codeAt hc
    obtain ⟨hlt, rfl⟩ := List.getElem?_eq_some_iff.1 hat
    change _ <+: (lineAt lines number).drop column
    rw [List.drop_eq_getElem_cons hlt]
    exact (List.prefix_cons_inj _).2 (ih hline)
  | next _ hrest _ =>
    exact absurd hrest.line_le (Nat.not_le.2 (Nat.lt_succ_of_le hline.ge))

/-- What is read first stands where the walk begins, unless it is a blank. -/
theorem charAt_eq (h : Walk lines p (c :: text) q) (hc : isBlank c = false) :
    charAt lines p = some c := by
  cases h with
  | char hc' _ => exact charAt_of_codeAt hc'
  | next _ _ => cases hc

/-- A line is read from any place in its code to the end of the code. -/
theorem code (before : List Char) {text : List Char} (h : codeAt lines number = before ++ text) :
    Walk lines ⟨number, before.length + 1⟩ text (codeEnd lines number) := by
  induction text generalizing before with
  | nil =>
    rw [List.append_nil] at h
    rw [codeEnd, h]
    exact .stay _
  | cons c text ih =>
    have hrest := ih (before ++ [c]) (by rw [h, List.append_assoc, List.singleton_append])
    rw [List.length_append] at hrest
    exact .char (by rw [h, List.getElem?_append_right le_rfl, Nat.sub_self]; rfl) hrest

end Walk

/-! ## Beside a walk -/

theorem charAt_codeStart_left {number : Nat}
    (h : charAt lines ⟨number, ((codeAt lines number).takeWhile isBlank).length⟩ = some c) :
    isBlank c = true := by
  cases hlength : ((codeAt lines number).takeWhile isBlank).length with
  | zero =>
    rw [hlength] at h
    cases h
  | succ column =>
    have hlt : column < ((codeAt lines number).takeWhile isBlank).length := by omega
    have hcode : (codeAt lines number)[column]? =
        some ((codeAt lines number).takeWhile isBlank)[column] := by
      conv_lhs => rw [← takeWhile_append_trimStart (codeAt lines number)]
      rw [List.getElem?_append_left hlt, List.getElem?_eq_getElem hlt]
    rw [hlength, charAt_of_codeAt hcode] at h
    cases h
    exact isBlank_of_mem_takeWhile (List.getElem_mem hlt)

/-- Behind the code of a line stands a blank or nothing, unless there is no code on the line. -/
theorem isBlank_of_charAt_codeEnd (hcode : codeAt lines number ≠ [])
    (h : charAt lines (codeEnd lines number) = some c) : isBlank c = true := by
  have hat : (lineAt lines number)[(lineContent (lineAt lines number)).length]? = some c := h
  by_cases hcontinued : isContinued (trimEnd (lineAt lines number)) = true
  · obtain ⟨blank, behind, hline, hblank⟩ := exists_append_lineContent hcontinued hcode
    have hnext : (lineAt lines number)[(lineContent (lineAt lines number)).length]? = _ :=
      congrArg (·[(lineContent (lineAt lines number)).length]?) hline
    rw [hat, List.getElem?_append_right le_rfl, Nat.sub_self] at hnext
    cases hnext
    exact hblank
  · rw [lineContent, if_neg hcontinued, List.getElem?_eq_none le_rfl] at hat
    cases hat

namespace Walk

/-- Left of where a walk comes to from the start of a line stands what it read last or a blank. -/
theorem left (h : Walk lines ⟨number, 1⟩ text p) (hc : charAt lines ⟨p.line, p.column - 1⟩ = some c) :
    text.getLast? = some c ∨ isBlank c = true := by
  rcases List.eq_nil_or_concat text with rfl | ⟨before, d, rfl⟩
  · cases h.eq_of_nil
    cases hc
  · rw [List.concat_eq_append] at h
    obtain ⟨q, -, hlast⟩ := h.exists_between
    cases hlast with
    | char hd hrest =>
      cases hrest.eq_of_nil
      cases (charAt_of_codeAt hd).symm.trans hc
      exact .inl (by rw [List.concat_eq_append, List.getLast?_concat])
    | next _ hrest =>
      cases hrest.eq_of_nil
      exact .inr (charAt_codeStart_left hc)

/-- A walk whose last character is no blank comes to a line that has code. -/
theorem codeAt_ne_nil (h : Walk lines p (text ++ [d]) q) (hd : isBlank d = false) :
    codeAt lines q.line ≠ [] := by
  obtain ⟨r, -, hlast⟩ := h.exists_between
  cases hlast with
  | char hcode hrest =>
    cases hrest.eq_of_nil
    rintro hnil
    rw [hnil] at hcode
    cases hcode
  | next _ _ => cases hd

/-- Right of where a walk comes to stands what is read next or a blank, if the line has code. -/
theorem right (hcode : codeAt lines q.line ≠ [])
    (hrest : Walk lines q more (codeEnd lines number)) (hc : charAt lines q = some c) :
    more.head? = some c ∨ isBlank c = true := by
  generalize hend : codeEnd lines number = r at hrest
  cases hrest with
  | stay =>
    subst hend
    exact .inr (isBlank_of_charAt_codeEnd hcode hc)
  | char hnext _ =>
    rw [charAt_of_codeAt hnext] at hc
    exact .inl hc
  | next _ _ => exact .inr (isBlank_of_charAt_codeEnd hcode hc)

end Walk

/-! ## Logical lines -/

/-- The text of the logical line is read from its start to its end. -/
def LogicalLine.IsRead (lines : List (List Char)) (line : LogicalLine) : Prop :=
  Walk lines ⟨line.startLine, 1⟩ line.text (codeEnd lines line.endLine)

theorem endLine_joined (pending : Option LogicalLine) (number : Nat) (line : List Char) :
    (joined pending number line).endLine = number := by
  cases pending <;> rfl

theorem lineAt_append_cons (before : List (List Char)) (line : List Char)
    (behind : List (List Char)) : lineAt (before ++ line :: behind) (before.length + 1) = line := by
  rw [lineAt, List.getElem?_append_right le_rfl, Nat.sub_self]
  rfl

/-- Joining the physical line that follows on a logical line reads on behind its leading blanks. -/
theorem isRead_joined {pending : Option LogicalLine} {line : List Char}
    (hline : lineAt lines number = line)
    (hpending : ∀ started ∈ pending, started.IsRead lines ∧ started.endLine + 1 = number ∧
      ContinuesAt lines started.endLine) :
    (joined pending number line).IsRead lines := by
  subst hline
  cases pending with
  | none => exact Walk.code [] rfl
  | some started =>
    obtain ⟨hread, rfl, hcontinues⟩ := hpending started rfl
    have hcode : codeAt lines (started.endLine + 1) = _ ++ _ :=
      (takeWhile_append_trimStart _).symm
    exact hread.append (.next hcontinues (Walk.code _ hcode))

/-- Logical lines that follow on `before` are read in the whole text. -/
theorem isRead_of_mem_joinLines (pending : Option LogicalLine) (before : List (List Char))
    {rest : List (List Char)} (hlines : lines = before ++ rest) (hnumber : number = before.length + 1)
    (hpending : ∀ started ∈ pending, started.IsRead lines ∧ started.endLine + 1 = number ∧
      isContinued (trimEnd (lineAt lines started.endLine)) = true) :
    ∀ logical ∈ joinLines pending number rest, logical.IsRead lines := by
  induction rest generalizing pending number before with
  | nil =>
    intro logical hlogical
    exact (hpending logical (by simpa [joinLines] using hlogical)).1
  | cons line rest ih =>
    have hline : lineAt lines number = line := by
      rw [hlines, hnumber, lineAt_append_cons]
    have hjoined : (joined pending number line).IsRead lines := by
      refine isRead_joined hline fun started hstarted ↦ ?_
      obtain ⟨hread, hend, hcontinued⟩ := hpending started hstarted
      refine ⟨hread, hend, hcontinued, ?_⟩
      rw [hlines, List.length_append, List.length_cons]
      omega
    have hlines' : lines = (before ++ [line]) ++ rest := by
      rw [hlines, List.append_assoc, List.singleton_append]
    have hnumber' : number + 1 = (before ++ [line]).length + 1 := by
      rw [hnumber, List.length_append, List.length_singleton]
    rw [joinLines_cons]
    split
    · next hcontinued =>
      refine ih _ _ hlines' hnumber' fun started hstarted ↦ ?_
      cases hstarted
      rw [endLine_joined, hline]
      exact ⟨hjoined, rfl, hcontinued⟩
    · refine List.forall_mem_cons.2 ⟨hjoined, ih none _ hlines' hnumber' fun started hstarted ↦ ?_⟩
      exact absurd hstarted (Option.not_mem_none started)

/-- Every logical line is read off the physical lines. -/
theorem isRead_of_mem_logicalLines {source : List Char} {line : LogicalLine}
    (h : line ∈ logicalLines source) : line.IsRead (physicalLines source) :=
  isRead_of_mem_joinLines none [] rfl rfl nofun line h

/-- Each logical line ends before the next one begins. -/
theorem pairwise_endLine_joinLines (pending : Option LogicalLine) (rest : List (List Char))
    (h : firstLine pending number ≤ number) :
    (joinLines pending number rest).Pairwise (·.endLine < ·.startLine) := by
  induction rest generalizing pending number with
  | nil => cases pending <;> simp [joinLines]
  | cons line rest ih =>
    rw [joinLines_cons]
    split
    · refine ih _ ?_
      rw [firstLine, Option.elim_some, startLine_joined]
      exact h.trans (Nat.le_succ number)
    · refine List.pairwise_cons.2 ⟨fun later hlater ↦ ?_, ih none le_rfl⟩
      rw [endLine_joined]
      exact (startLines_joinLines le_rfl rest).2 later hlater

/-- Logical lines follow each other without sharing a physical line. -/
theorem pairwise_endLine_logicalLines (source : List Char) :
    (logicalLines source).Pairwise (·.endLine < ·.startLine) :=
  pairwise_endLine_joinLines none _ le_rfl

end VbaLint.Source
