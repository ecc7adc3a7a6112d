import VbaLint.Proofs.Statement.Lowering
import VbaLint.Statement.Directive
import VbaLint.Statement.Shape
import VbaLint.Statement.Variable

/-!
# Shapes of lowered statements

A statement with its ASCII letters lowered has the shape of the statement, with the same places for
its parts, and each part has its letters lowered. A lowered comment holds the same directive.
-/

namespace VbaLint.Statement

open Text Tree

/-! ## Assignments -/

def Assignment.lowered (assignment : Assignment) : Assignment :=
  ⟨assignment.target.lowered, assignment.value.lowered⟩

theorem splitAtEquals_lowerAscii (text : List Char) :
    splitAtEquals (lowerAscii text) =
      (splitAtEquals text).map (Prod.map lowerAscii lowerAscii) := by
  induction text with
  | nil => rfl
  | cons c rest ih =>
    simp only [lowerAscii_cons, splitAtEquals,
      toLower_eq_iff (show ('=').isAlpha = false by decide),
      isEmpty_lowerAscii, ih]
    split
    · rfl
    · cases splitAtEquals rest <;> rfl

theorem assignTo_lowerAscii (text : List Char) (target : Span) (behind : List Char) :
    assignTo (lowerAscii text) target.lowered (lowerAscii behind) =
      (assignTo text target behind).lowered := by
  simp [assignTo, Assignment.lowered, Span.lowered]

theorem keywordAssignment?_lowerAscii (word : String) (text : List Char) :
    keywordAssignment? word (lowerAscii text) =
      (keywordAssignment? word text).map Assignment.lowered := by
  rw [keywordAssignment?, afterWord_lowerAscii, keywordAssignment?]
  cases afterWord word.toList text with
  | none => rfl
  | some blanks =>
    simp only [Option.map_some, Option.bind_eq_bind, Option.bind_some, afterBlanks_lowerAscii]
    cases afterBlanks blanks with
    | none => rfl
    | some body =>
      cases body with
      | nil => rfl
      | cons first rest =>
        simp only [Option.map_some, Option.bind_some, lowerAscii_cons, splitAtEquals_lowerAscii]
        cases splitAtEquals rest with
        | none =>
          simp only [Option.map_none, length_lowerAscii, byteLength_lowerAscii, byteLength_cons,
            utf8Size_toLower, isEmpty_lowerAscii, List.length_cons,
            toLower_eq_iff (show ('=').isAlpha = false by decide)]
          split
          · rw [drop_lowerAscii, take_lowerAscii, byteLength_lowerAscii]
            exact congrArg some (assignTo_lowerAscii text ⟨_, _⟩ rest)
          · rfl
        | some parts =>
          simp only [Option.map_some, Prod.map, byteLength_lowerAscii, byteLength_cons, utf8Size_toLower]
          rw [← lowerAscii_cons, trimEnd_lowerAscii]
          exact congrArg some (assignTo_lowerAscii text ⟨_, _⟩ parts.2)

/-- What follows a target is told from the first character, which is no letter. -/
theorem behindEquals_lowerAscii (taken text : List Char) :
    (match lowerAscii text with
      | '=' :: behind => some (lowerAscii taken, behind)
      | _ => none) =
      (match text with
        | '=' :: behind => some (taken, behind)
        | _ => none).map (Prod.map lowerAscii lowerAscii) := by
  cases text with
  | nil => rfl
  | cons c text =>
    by_cases hequals : c = '='
    · subst hequals
      rfl
    · have hlowered : c.toLower ≠ '=' := mt (toLower_eq_iff (by decide)).1 hequals
      simp [hequals, hlowered]

theorem takeTarget_lowerAscii (text : List Char) :
    takeTarget (lowerAscii text) = (takeTarget text).map (Prod.map lowerAscii lowerAscii) := by
  have hequals (text : List Char) :
      (lowerAscii text).takeWhile (· != '=') = lowerAscii (text.takeWhile (· != '=')) :=
    takeWhile_lowerAscii text fun c ↦ congrArg (!·) (toLower_beq (by decide))
  rw [takeTarget, takeDottedName_lowerAscii, takeTarget]
  cases takeDottedName text with
  | none => rfl
  | some taken =>
    obtain ⟨name, rest⟩ := taken
    simp only [Option.map_some, Option.bind_eq_bind, Option.bind_some, Prod.map,
      skipTypeSuffix_lowerAscii, head?_lowerAscii, hequals,
      map_toLower_eq_some (show ('(').isAlpha = false by decide)]
    generalize skipTypeSuffix rest = rest
    have hindex : (if rest.head? = some '(' then trimEnd (lowerAscii (rest.takeWhile (· != '=')))
        else []) =
        lowerAscii (if rest.head? = some '(' then trimEnd (rest.takeWhile (· != '=')) else []) := by
      rw [trimEnd_lowerAscii]
      split <;> rfl
    rw [hindex]
    generalize (if rest.head? = some '(' then trimEnd (rest.takeWhile (· != '=')) else []) = index
    simp only [getLast?_lowerAscii, bne,
      map_toLower_beq_some (show (')').isAlpha = false by decide)]
    split
    · rfl
    · simp only [length_lowerAscii, drop_lowerAscii, take_lowerAscii, trimStart_lowerAscii]
      exact behindEquals_lowerAscii _ _

theorem plainAssignment?_lowerAscii (text : List Char) :
    plainAssignment? (lowerAscii text) = (plainAssignment? text).map Assignment.lowered := by
  have hname (target : List Char) :
      (lowerAscii target).takeWhile (fun c ↦ c != '.' && c != '(') =
        lowerAscii (target.takeWhile fun c ↦ c != '.' && c != '(') := by
    apply takeWhile_lowerAscii
    intro c
    rw [bne, bne, toLower_beq (by decide), toLower_beq (by decide), bne, bne]
  rw [plainAssignment?, takeTarget_lowerAscii, plainAssignment?]
  cases takeTarget text with
  | none => rfl
  | some taken =>
    simp only [Option.map_some, Option.bind_eq_bind, Option.bind_some, Prod.map, isEmpty_lowerAscii,
      hname, isReserved_lowerAscii]
    split
    · rfl
    · exact congrArg some (assignTo_lowerAscii text ⟨taken.1, 0⟩ taken.2)

/-! ## Signatures -/

def Signature.lowered (signature : Signature) : Signature :=
  { signature with
    name := signature.name.lowered
    parameters := signature.parameters.map Span.lowered
    asType := signature.asType.map lowerAscii }

def Parameter.lowered (parameter : Parameter) : Parameter :=
  { parameter with
    name := lowerAscii parameter.name
    asType := parameter.asType.map lowerAscii }

theorem takeWord_lowerAscii (word : String) (text : List Char) :
    takeWord word (lowerAscii text) =
      (takeWord word text).map (Prod.map lowerAscii lowerAscii) := by
  rw [takeWord, afterWord_lowerAscii, takeWord, Option.map_map, Option.map_map]
  congr 1
  funext rest
  exact congrArg (·, lowerAscii rest) (take_lowerAscii text word.length)

theorem takeMemberWord_lowerAscii (text : List Char) :
    takeMemberWord (lowerAscii text) =
      (takeMemberWord text).map (Prod.map lowerAscii lowerAscii) := by
  simp only [takeMemberWord, takeWord_lowerAscii, afterKeyword_lowerAscii, Option.map_or]
  congr 2
  cases afterKeyword "property" text with
  | none => rfl
  | some rest => simp only [Option.map_some, Option.bind_some, takeWord_lowerAscii, Option.map_or]

theorem memberKind_lowerAscii (word : List Char) :
    memberKind (lowerAscii word) = memberKind word := by
  rw [memberKind, lowerAscii_lowerAscii, memberKind]

theorem resultType?_lowerAscii (text : List Char) :
    resultType? (lowerAscii text) = (resultType? text).map lowerAscii := by
  rw [resultType?, trimStart_lowerAscii, afterWord_lowerAscii, resultType?]
  cases afterWord "as".toList (trimStart text) with
  | none => rfl
  | some clause =>
    simp only [Option.map_some, Option.bind_eq_bind, Option.bind_some, afterBlanks_lowerAscii]
    cases afterBlanks clause with
    | none => rfl
    | some type =>
      have hvisible : (lowerAscii (clause.drop 1)).any (· != '\n') =
          (clause.drop 1).any (· != '\n') :=
        any_lowerAscii _ fun c ↦ congrArg (!·) (toLower_beq (by decide))
      simp only [Option.map_some, Option.bind_some, lowerAscii_eq_nil, drop_lowerAscii, hvisible,
        trimEnd_lowerAscii, contains_lowerAscii _ (show ('\n').isAlpha = false by decide)]
      split
      · split <;> rfl
      · split <;> rfl

theorem signatureEnd?_lowerAscii (text : List Char) :
    signatureEnd? (lowerAscii text) = (signatureEnd? text).map (·.map lowerAscii) := by
  rw [signatureEnd?, resultType?_lowerAscii, signatureEnd?, allBlank_lowerAscii]
  cases resultType? text with
  | none =>
    dsimp only [Option.map_none]
    split <;> rfl
  | some type => rfl

theorem parameterList?_lowerAscii (text : List Char) :
    parameterList? (lowerAscii text) =
      (parameterList? text).map (Prod.map lowerAscii (·.map lowerAscii)) := by
  induction text with
  | nil => rfl
  | cons c text ih =>
    simp only [lowerAscii_cons, parameterList?, ih, signatureEnd?_lowerAscii,
      toLower_eq_iff (show (')').isAlpha = false by decide),
      toLower_eq_iff (show ('\n').isAlpha = false by decide)]
    have hlonger :
        ((parameterList? text).map (Prod.map lowerAscii (·.map lowerAscii))).map
            (Prod.map (c.toLower :: ·) id) =
          ((parameterList? text).map (Prod.map (c :: ·) id)).map
            (Prod.map lowerAscii (·.map lowerAscii)) := by
      cases parameterList? text <;> rfl
    split
    · cases signatureEnd? text with
      | none => exact hlonger
      | some type => rfl
    · split
      · rfl
      · exact hlonger

theorem afterMemberName?_lowerAscii (text : List Char) :
    afterMemberName? (lowerAscii text) =
      (afterMemberName? text).map (Prod.map (·.map lowerAscii) (·.map lowerAscii)) := by
  have hending (ending : List Char) :
      (signatureEnd? (lowerAscii ending)).map (fun type ↦ ((none : Option (List Char)), type)) =
        ((signatureEnd? ending).map fun type ↦ (none, type)).map
          (Prod.map (·.map lowerAscii) (·.map lowerAscii)) := by
    rw [signatureEnd?_lowerAscii]
    cases signatureEnd? ending <;> rfl
  rw [afterMemberName?, skipTypeSuffix_lowerAscii, trimStart_lowerAscii, afterMemberName?]
  cases trimStart (skipTypeSuffix text) with
  | nil => exact hending []
  | cons c inner =>
    by_cases hopen : c = '('
    · subst hopen
      change (parameterList? (lowerAscii inner)).map _ = ((parameterList? inner).map _).map _
      rw [parameterList?_lowerAscii]
      cases parameterList? inner <;> rfl
    · have hlowered : c.toLower ≠ '(' := mt (toLower_eq_iff (by decide)).1 hopen
      simpa [hopen, hlowered] using hending (c :: inner)

theorem takeAccess_lowerAscii (text : List Char) :
    takeAccess (lowerAscii text) = (takeAccess text).map id lowerAscii := by
  have hword (word : String) :
      (afterKeyword word (lowerAscii text)).map (fun rest ↦ (word, rest)) =
        ((afterKeyword word text).map fun rest ↦ (word, rest)).map (Prod.map id lowerAscii) := by
    rw [afterKeyword_lowerAscii, Option.map_map, Option.map_map]
    rfl
  simp only [takeAccess, hword]
  rw [← Function.comp_def (Option.map (Prod.map id lowerAscii)), ← List.map_findSome?]
  cases List.findSome? _ _ <;> rfl

theorem parameterSpan_lowerAscii (text nameRest list : List Char) :
    parameterSpan (lowerAscii text) (lowerAscii nameRest) (lowerAscii list) =
      (parameterSpan text nameRest list).lowered := by
  have hopening : (lowerAscii nameRest).takeWhile (· != '(') =
      lowerAscii (nameRest.takeWhile (· != '(')) :=
    takeWhile_lowerAscii nameRest fun c ↦ congrArg (!·) (toLower_beq (by decide))
  simp [parameterSpan, hopening, Span.lowered]

/-- Headers are read alike in any case. -/
theorem signature?_lowerAscii (text : List Char) :
    signature? (lowerAscii text) = (signature? text).map Signature.lowered := by
  simp only [signature?, takeAccess_lowerAscii, Prod.map, skipOneOf_lowerAscii,
    takeMemberWord_lowerAscii]
  cases takeMemberWord (skipOneOf ["static"] (takeAccess text).2) with
  | none => rfl
  | some member =>
    simp only [Option.map_some, Option.bind_eq_bind, Option.bind_some, Prod.map,
      afterBlanks_lowerAscii]
    cases afterBlanks member.2 with
    | none => rfl
    | some afterMember =>
      simp only [Option.map_some, Option.bind_some, takeName_lowerAscii]
      cases takeName afterMember with
      | none => rfl
      | some taken =>
        obtain ⟨name, rest⟩ := taken
        simp only [Option.map_some, Option.bind_some, Prod.map, afterMemberName?_lowerAscii]
        cases afterMemberName? rest with
        | some ending =>
          obtain ⟨list, type⟩ := ending
          have hlist : ((list.map lowerAscii).filter (!allBlank ·)).map
              (parameterSpan (lowerAscii text) (lowerAscii rest)) =
              ((list.filter (!allBlank ·)).map (parameterSpan text rest)).map Span.lowered := by
            rw [Option.filter_map, Option.map_map, Option.map_map]
            simp [Function.comp_def, parameterSpan_lowerAscii]
          simp only [Option.map_some, Prod.map, memberKind_lowerAscii, spanBefore_lowerAscii, hlist]
          rfl
        | none =>
          simp only [Option.map_none, length_lowerAscii]
          split
          · rfl
          · rw [drop_lowerAscii, ← lowerAscii_append, resultType?_lowerAscii]
            cases resultType? (name.drop (name.length - 2) ++ rest) with
            | none => rfl
            | some type =>
              simp only [Option.map_some, Option.bind_some, memberKind_lowerAscii, take_lowerAscii,
                spanBefore_lowerAscii]
              rfl

theorem asClause?_lowerAscii (text : List Char) :
    asClause? (lowerAscii text) = (asClause? text).map lowerAscii := by
  rw [asClause?, afterBlanks_lowerAscii, asClause?]
  cases afterBlanks text with
  | none => rfl
  | some clause =>
    simp only [Option.map_some, Option.bind_some, Option.bind_eq_bind, afterKeyword_lowerAscii]
    cases afterKeyword "as" clause with
    | none => rfl
    | some type =>
      simp only [Option.map_some, Option.bind_some, takeDottedName_lowerAscii]
      cases takeDottedName type <;> rfl

theorem takeParameterName_lowerAscii (text : List Char) :
    takeParameterName (lowerAscii text) =
      (takeParameterName text).map (Prod.map lowerAscii lowerAscii) := by
  simp only [takeParameterName, skipOneOf_lowerAscii, takeName_lowerAscii, Option.map_or]

theorem afterEmptyParentheses_lowerAscii (text : List Char) :
    afterEmptyParentheses (lowerAscii text) = (afterEmptyParentheses text).map lowerAscii := by
  rw [afterEmptyParentheses, trimStart_lowerAscii, afterEmptyParentheses]
  cases trimStart text with
  | nil => rfl
  | cons c inner =>
    by_cases hopen : c = '('
    · subst hopen
      simp only [lowerAscii_cons, show ('(').toLower = '(' by decide, trimStart_lowerAscii]
      cases trimStart inner with
      | nil => rfl
      | cons d rest =>
        by_cases hclose : d = ')'
        · subst hclose
          rfl
        · have hlowered : d.toLower ≠ ')' := mt (toLower_eq_iff (by decide)).1 hclose
          simp [hclose, hlowered]
    · have hlowered : c.toLower ≠ '(' := mt (toLower_eq_iff (by decide)).1 hopen
      simp [hopen, hlowered]

/-- Parameters are read alike in any case. -/
theorem parameter?_lowerAscii (text : List Char) :
    parameter? (lowerAscii text) = (parameter? text).map Parameter.lowered := by
  rw [parameter?, trim_lowerAscii, takeParameterName_lowerAscii, parameter?]
  cases takeParameterName (trim text) with
  | none => rfl
  | some taken =>
    simp only [Option.map_some, Option.bind_eq_bind, Option.bind_some, Prod.map,
      skipTypeSuffix_lowerAscii, afterEmptyParentheses_lowerAscii]
    cases afterEmptyParentheses (skipTypeSuffix taken.2) with
    | none =>
      simp only [Option.map_none, asClause?_lowerAscii]
      rfl
    | some rest =>
      simp only [Option.map_some, asClause?_lowerAscii]
      rfl

/-! ## Variables -/

def Variable.lowered (declared : Variable) : Variable :=
  { declared with
    name := lowerAscii declared.name
    asType := declared.asType.map lowerAscii }

theorem takeVariableName_lowerAscii (text : List Char) :
    takeVariableName (lowerAscii text) =
      (takeVariableName text).map (Prod.map lowerAscii lowerAscii) := by
  simp only [takeVariableName, skipOneOf_lowerAscii, takeName_lowerAscii, Option.map_or]

theorem afterBounds_lowerAscii (text : List Char) :
    afterBounds (lowerAscii text) = (afterBounds text).map lowerAscii := by
  have hclose (inner : List Char) :
      (lowerAscii inner).dropWhile (· != ')') = lowerAscii (inner.dropWhile (· != ')')) :=
    dropWhile_lowerAscii inner fun c ↦ congrArg (!·) (toLower_beq (by decide))
  rw [afterBounds, trimStart_lowerAscii, afterBounds]
  cases trimStart text with
  | nil => rfl
  | cons c inner =>
    by_cases hopen : c = '('
    · subst hopen
      simp only [lowerAscii_cons, show ('(').toLower = '(' by decide, hclose]
      cases inner.dropWhile (· != ')') <;> rfl
    · have hlowered : c.toLower ≠ '(' := mt (toLower_eq_iff (by decide)).1 hopen
      simp [hopen, hlowered]

theorem newClause?_lowerAscii (text : List Char) :
    newClause? (lowerAscii text) = (newClause? text).map (Prod.map id lowerAscii) := by
  rw [newClause?, afterBlanks_lowerAscii, newClause?]
  cases afterBlanks text with
  | none => rfl
  | some behind =>
    simp only [Option.map_some, Option.bind_some, Option.bind_eq_bind, afterKeyword_lowerAscii]
    cases afterKeyword "as" behind with
    | none => rfl
    | some clause =>
      have hnew : ((afterKeyword "new" clause).map lowerAscii).bind takeDottedName =
          ((afterKeyword "new" clause).bind takeDottedName).map
            (Prod.map lowerAscii lowerAscii) := by
        cases afterKeyword "new" clause with
        | none => rfl
        | some rest => exact takeDottedName_lowerAscii rest
      simp only [Option.map_some, Option.bind_some, afterKeyword_lowerAscii, hnew,
        takeDottedName_lowerAscii]
      cases (afterKeyword "new" clause).bind takeDottedName with
      | none => cases takeDottedName clause <;> rfl
      | some taken => rfl

/-- Variables are read alike in any case. -/
theorem declaredItem?_lowerAscii (text : List Char) :
    declaredItem? (lowerAscii text) = (declaredItem? text).map Variable.lowered := by
  rw [declaredItem?, trim_lowerAscii, takeVariableName_lowerAscii, declaredItem?]
  cases takeVariableName (trim text) with
  | none => rfl
  | some taken =>
    simp only [Option.map_some, Option.bind_eq_bind, Option.bind_some, Prod.map,
      skipTypeSuffix_lowerAscii, afterBounds_lowerAscii]
    cases afterBounds (skipTypeSuffix taken.2) with
    | none =>
      simp only [Option.map_none, newClause?_lowerAscii]
      cases newClause? (skipTypeSuffix taken.2) <;> rfl
    | some rest =>
      simp only [Option.map_some, newClause?_lowerAscii]
      cases newClause? rest <;> rfl

/-! ## Shapes -/

def Shape.lowered : Shape → Shape
  | .procedureStart signature => .procedureStart signature.lowered
  | .blockStart kind name => .blockStart kind name.lowered
  | .constants list => .constants list.lowered
  | .variables list => .variables list.lowered
  | .setAssignment assignment => .setAssignment assignment.lowered
  | .letAssignment assignment => .letAssignment assignment.lowered
  | .call expression => .call expression.lowered
  | .option kind => .option kind
  | .attribute => .attribute
  | .procedureEnd => .procedureEnd
  | .blockEnd => .blockEnd
  | .declare => .declare
  | .other => .other

theorem isWord_lowerAscii (word : String) (text : List Char) :
    isWord word (lowerAscii text) = isWord word text := by
  rw [isWord, afterWord_lowerAscii, isWord, Option.map_map,
    show allBlank ∘ lowerAscii = allBlank from funext allBlank_lowerAscii]

theorem isRun_lowerAscii {p : Char → Bool} (hp : ∀ c, p c.toLower = p c) (text : List Char) :
    isRun p (lowerAscii text) = isRun p text := by
  rw [isRun, takeWhile_lowerAscii text hp, dropWhile_lowerAscii text hp, isEmpty_lowerAscii,
    allBlank_lowerAscii, isRun]

theorem optionKind?_lowerAscii (text : List Char) :
    optionKind? (lowerAscii text) = optionKind? text := by
  have hdigits : isRun isDecimalDigit ∘ lowerAscii = isRun isDecimalDigit :=
    funext (isRun_lowerAscii isDecimalDigit_toLower)
  have hword : isRun isWordChar ∘ lowerAscii = isRun isWordChar :=
    funext (isRun_lowerAscii isWordChar_toLower)
  have hmodule : isWord "module" ∘ lowerAscii = isWord "module" :=
    funext (isWord_lowerAscii "module")
  rw [optionKind?, afterKeyword_lowerAscii, optionKind?]
  cases afterKeyword "option" text with
  | none => rfl
  | some setting =>
    simp only [Option.map_some, Option.bind_eq_bind, Option.bind_some, isWord_lowerAscii,
      afterKeyword_lowerAscii, Option.map_map, take_lowerAscii, lowerAscii_lowerAscii, hdigits,
      hword, hmodule]

theorem isEndOf_lowerAscii (words : List String) (text : List Char) :
    isEndOf words (lowerAscii text) = isEndOf words text := by
  rw [isEndOf, afterKeyword_lowerAscii, isEndOf]
  cases afterKeyword "end" text with
  | none => rfl
  | some rest => simp only [Option.map_some, isWord_lowerAscii]

theorem blockStart?_lowerAscii (text : List Char) :
    blockStart? (lowerAscii text) = (blockStart? text).map (Prod.map id Span.lowered) := by
  have hword (kind : NodeKind) (word : String) (text : List Char) :
      (afterKeyword word (lowerAscii text)).map (fun rest ↦ (kind, rest)) =
        ((afterKeyword word text).map fun rest ↦ (kind, rest)).map (Prod.map id lowerAscii) := by
    rw [afterKeyword_lowerAscii, Option.map_map, Option.map_map]
    rfl
  simp only [blockStart?, skipOneOf_lowerAscii, hword, ← Option.map_or]
  cases Option.or _ _ with
  | none => rfl
  | some opened =>
    simp only [Option.map_some, Option.bind_eq_bind, Option.bind_some, Prod.map,
      takeName_lowerAscii]
    cases takeName opened.2 with
    | none => rfl
    | some taken =>
      simp only [Option.map_some, Option.bind_some, Prod.map, allBlank_lowerAscii,
        spanBefore_lowerAscii]
      split <;> rfl

/-- The end of a lowered statement, which is there unless it is empty. -/
theorem ending?_lowerAscii (text : List Char) (ending? : Option (List Char)) :
    (ending?.map lowerAscii).bind (fun list ↦
        if list.isEmpty then none else some (spanBefore (lowerAscii text) list [])) =
      (ending?.bind fun list ↦ if list.isEmpty then none else some (spanBefore text list [])).map
        Span.lowered := by
  cases ending? with
  | none => rfl
  | some list =>
    have hspan := spanBefore_lowerAscii text list []
    simp only [Option.map_some, Option.bind_some, isEmpty_lowerAscii]
    split
    · rfl
    · exact congrArg some hspan

theorem constantList?_lowerAscii (text : List Char) :
    constantList? (lowerAscii text) = (constantList? text).map Span.lowered := by
  rw [constantList?, skipOneOf_lowerAscii, afterKeyword_lowerAscii]
  exact ending?_lowerAscii text _

theorem variableList?_lowerAscii (text : List Char) :
    variableList? (lowerAscii text) = (variableList? text).map Span.lowered := by
  rw [variableList?, afterOneOf_lowerAscii]
  exact ending?_lowerAscii text _

theorem callExpression?_lowerAscii (text : List Char) :
    callExpression? (lowerAscii text) = (callExpression? text).map Span.lowered := by
  rw [callExpression?, afterKeyword_lowerAscii]
  exact ending?_lowerAscii text _

/-- A lowered statement has the shape of the statement. -/
@[simp]
theorem shapeOf_lowerAscii (text : List Char) :
    shapeOf (lowerAscii text) = (shapeOf text).lowered := by
  simp only [shapeOf, optionKind?_lowerAscii, afterKeyword_lowerAscii, isEndOf_lowerAscii,
    signature?_lowerAscii, blockStart?_lowerAscii, skipOneOf_lowerAscii, constantList?_lowerAscii,
    variableList?_lowerAscii, keywordAssignment?_lowerAscii, plainAssignment?_lowerAscii,
    callExpression?_lowerAscii, Option.isSome_map]
  -- The forms are tried in the same order, and each fits both texts or neither.
  cases optionKind? text
  case some => rfl
  dsimp only
  split
  · rfl
  split
  · rfl
  cases signature? text
  case some => rfl
  dsimp only [Option.map_none]
  split
  · rfl
  cases blockStart? text
  case some => rfl
  dsimp only [Option.map_none]
  split
  · rfl
  cases constantList? text
  case some => rfl
  cases variableList? text
  case some => rfl
  cases keywordAssignment? "set" text
  case some => rfl
  cases keywordAssignment? "let" text
  case some => rfl
  cases plainAssignment? text
  case some => rfl
  cases callExpression? text <;> rfl

/-! ## Directives -/

def Directive.lowered : Directive → Directive
  | .ignore names => .ignore (names.map lowerAsciiString)
  | .ignoreModule names => .ignoreModule (names.map lowerAsciiString)
  | .folder text => .folder (lowerAsciiString text)
  | .description text => .description (lowerAsciiString text)

theorem stripChar_lowerAscii {c : Char} (hc : c.isAlpha = false) (text : List Char) :
    stripChar c (lowerAscii text) = lowerAscii (stripChar c text) := by
  have hsame (d : Char) : (d.toLower == c) = (d == c) := toLower_beq hc
  rw [stripChar, dropWhile_lowerAscii text hsame, dropEndWhile_lowerAscii _ hsame, stripChar]

theorem directiveNames_lowerAscii (list : List Char) :
    directiveNames (lowerAscii list) = (directiveNames list).map lowerAsciiString := by
  simp only [directiveNames, items_lowerAscii, List.map_map, List.filterMap_map, List.map_filterMap]
  congr 1
  funext item
  simp only [Function.comp_apply, text_lowered, isEmpty_lowerAscii,
    stripChar_lowerAscii (show ('"').isAlpha = false by decide)]
  split
  · rfl
  · rw [Option.map_some, lowerAsciiString_ofList]

theorem directiveText_lowerAscii (argument : List Char) :
    directiveText (lowerAscii argument) = lowerAsciiString (directiveText argument) := by
  have hopening (c : Char) : (c.toLower == '(') = (c == '(') := toLower_beq (by decide)
  have hclosing (c : Char) : (c.toLower == ')') = (c == ')') := toLower_beq (by decide)
  rw [directiveText, dropWhile_lowerAscii _ hopening, dropEndWhile_lowerAscii _ hclosing,
    trim_lowerAscii, stripChar_lowerAscii (by decide), directiveText, lowerAsciiString_ofList]

theorem takeDirective_lowerAscii (comment : List Char) :
    takeDirective (lowerAscii comment) =
      (takeDirective comment).map (Prod.map lowerAscii lowerAscii) := by
  rw [takeDirective, trim_lowerAscii, takeDirective]
  cases trim comment with
  | nil => rfl
  | cons mark word =>
    by_cases hmark : mark = '@'
    · subst hmark
      cases word with
      | nil => rfl
      | cons c rest =>
        simp only [lowerAscii_cons, show ('@').toLower = '@' by decide, isAlpha_toLower,
          takeWhile_lowerAscii rest isWordChar_toLower,
          dropWhile_lowerAscii rest isWordChar_toLower, trim_lowerAscii]
        split <;> rfl
    · have hlowered : mark.toLower ≠ '@' := mt (toLower_eq_iff (by decide)).1 hmark
      simp [hmark, hlowered]

/-- A lowered comment holds the lowered directive of the comment. -/
theorem directive?_lowerAscii (comment : List Char) :
    directive? (lowerAscii comment) = (directive? comment).map Directive.lowered := by
  rw [directive?, takeDirective_lowerAscii, directive?]
  cases takeDirective comment with
  | none => rfl
  | some taken =>
    simp only [Option.map_some, Option.bind_eq_bind, Option.bind_some, Prod.map,
      lowerAscii_lowerAscii, directiveNames_lowerAscii, directiveText_lowerAscii]
    split
    · rfl
    split
    · rfl
    split
    · rfl
    split <;> rfl

end VbaLint.Statement
