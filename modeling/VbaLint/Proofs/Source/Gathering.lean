import VbaLint.Proofs.Source.Walks

/-!
# How physical lines are gathered

The logical lines of a text take up its physical lines from the first to the last, in order and without
gaps. A logical line takes up lines as long as they are continued, and the next line.
-/

namespace VbaLint.Source

open Text

variable {lines group : List (List Char)} {logicals : List LogicalLine} {logical : LogicalLine}
  {pending : Option LogicalLine} {start number : Nat}

/-- The code of physical lines in a row. One space stands for the end of a line and the leading blanks of
the next one. -/
def joinedCode : List (List Char) → List Char
  | [] => []
  | line :: rest => lineContent line ++ rest.flatMap fun next ↦ ' ' :: trimStart (lineContent next)

theorem joinedCode_concat (line : List Char) (hgroup : group ≠ []) :
    joinedCode (group ++ [line]) = joinedCode group ++ ' ' :: trimStart (lineContent line) := by
  cases group with
  | nil => exact absurd rfl hgroup
  | cons first group =>
    rw [List.cons_append, joinedCode, joinedCode, List.flatMap_append, List.append_assoc,
      List.flatMap_singleton]

/-- The logical line is made of a group of physical lines, the first of which has the number `start`. All
but the last of the group are continued. -/
structure LogicalLine.Gathers (logical : LogicalLine) (start : Nat) (group : List (List Char)) : Prop where
  ne_nil : group ≠ []
  startLine_eq : logical.startLine = start
  endLine_eq : logical.endLine + 1 = start + group.length
  text_eq : logical.text = joinedCode group
  continued : ∀ line ∈ group.dropLast, isContinued (trimEnd line) = true

/-- The logical lines tile the physical ones, the first of which has the number `start`. The group of a
logical line ends with a line that is continued only where the text ends. -/
inductive Tiles : Nat → List (List Char) → List LogicalLine → Prop
  | nil (start : Nat) : Tiles start [] []
  | cons {start : Nat} {group rest : List (List Char)} {logical : LogicalLine}
      {logicals : List LogicalLine} (hgathers : logical.Gathers start group)
      (hends : ∀ line ∈ group.getLast?, isContinued (trimEnd line) = true → rest = [])
      (hrest : Tiles (start + group.length) rest logicals) :
      Tiles start (group ++ rest) (logical :: logicals)

namespace LogicalLine

theorem Gathers.startLine_le (h : logical.Gathers start group) : logical.startLine ≤ logical.endLine := by
  have hlength := List.length_pos_iff.2 h.ne_nil
  have hend := h.endLine_eq
  rw [h.startLine_eq]
  omega

/-- The physical lines that the logical line covers, by their numbers. -/
def numbers (logical : LogicalLine) : List Nat :=
  List.range' logical.startLine (logical.endLine + 1 - logical.startLine)

/-- A logical line covers as many lines as it gathers, one after another. -/
theorem Gathers.numbers_eq (h : logical.Gathers start group) :
    logical.numbers = List.range' start group.length := by
  rw [numbers, h.startLine_eq, h.endLine_eq, Nat.add_sub_cancel_left]

end LogicalLine

/-- A tiling covers each physical line once, in order. -/
theorem Tiles.numbers_eq (h : Tiles start lines logicals) :
    logicals.flatMap (·.numbers) = List.range' start lines.length := by
  induction h with
  | nil => rfl
  | cons hgathers _ _ ih =>
    rw [List.flatMap_cons, ih, hgathers.numbers_eq, List.length_append, List.range'_append_1]

theorem Tiles.startLine_le (h : Tiles start lines logicals) :
    ∀ logical ∈ logicals, logical.startLine ≤ logical.endLine := by
  induction h with
  | nil => exact nofun
  | cons hgathers _ _ ih => exact List.forall_mem_cons.2 ⟨hgathers.startLine_le, ih⟩

/-- What has been joined so far are the physical lines `group`, all of them continued. -/
def IsPending (pending : Option LogicalLine) (start : Nat) (group : List (List Char)) : Prop :=
  (∀ line ∈ group, isContinued (trimEnd line) = true) ∧
    pending.elim (group = []) (·.Gathers start group)

/-- The next physical line is gathered behind those that have been joined. -/
theorem IsPending.gathers (h : IsPending pending start group) (hnumber : number = start + group.length)
    (line : List Char) : (joined pending number line).Gathers start (group ++ [line]) := by
  obtain ⟨hcontinued, hpending⟩ := h
  cases pending with
  | none =>
    obtain rfl : group = [] := hpending
    obtain rfl : number = start := hnumber
    exact ⟨List.cons_ne_nil line [], rfl, rfl, (List.append_nil _).symm, nofun⟩
  | some started =>
    have hstarted : started.Gathers start group := hpending
    refine ⟨by simp, hstarted.startLine_eq, ?_, ?_, ?_⟩
    · rw [endLine_joined, hnumber, List.length_append, List.length_singleton, Nat.add_assoc]
    · rw [joinedCode_concat line hstarted.ne_nil, ← hstarted.text_eq]
      rfl
    · rwa [List.dropLast_concat]

/-- Joining tiles the physical lines, those that are pending included. -/
theorem IsPending.tiles (h : IsPending pending start group) (hnumber : number = start + group.length) :
    Tiles start (group ++ lines) (joinLines pending number lines) := by
  induction lines generalizing pending start number group with
  | nil =>
    cases pending with
    | none =>
      obtain rfl : group = [] := h.2
      exact .nil start
    | some started => exact .cons (show started.Gathers start group from h.2) (fun _ _ _ ↦ rfl) (.nil _)
  | cons line rest ih =>
    have hgathers := h.gathers hnumber line
    have hsplit : group ++ line :: rest = group ++ [line] ++ rest := by
      rw [List.append_assoc, List.singleton_append]
    have hnumber' : number + 1 = start + (group ++ [line]).length := by
      rw [hnumber, List.length_append, List.length_singleton, Nat.add_assoc]
    rw [joinLines_cons, hsplit]
    split
    · next hcontinued =>
      refine ih ⟨fun other hother ↦ ?_, hgathers⟩ hnumber'
      rcases List.mem_append.1 hother with hother | hother
      · exact h.1 other hother
      · rwa [List.mem_singleton.1 hother]
    · next hends =>
      refine .cons hgathers (fun last hlast hcontinued ↦ ?_) ?_
      · rw [List.getLast?_concat] at hlast
        cases hlast
        exact absurd hcontinued hends
      · have hnone : IsPending none (number + 1) [] := ⟨nofun, rfl⟩
        rw [← hnumber']
        exact ih hnone rfl

/-- The logical lines tile the physical ones. -/
theorem tiles_logicalLines (source : List Char) :
    Tiles 1 (physicalLines source) (logicalLines source) := by
  have hnone : IsPending none 1 [] := ⟨nofun, rfl⟩
  exact hnone.tiles rfl

end VbaLint.Source
