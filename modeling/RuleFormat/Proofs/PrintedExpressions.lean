import RuleFormat.Proofs.PrintedPatterns

/-!
# Expressions are copied

The rules for operators and expressions copy what they take from stable tokens.  Parentheses are added
to a cast in front of an angle bracket only, and a cast that would get some is not stable
(`after_cast`).

An expression is read from left to right, an operand first and then what extends it, so that the facts
about what has been read (`ExprFits`) are an invariant of the rules that extend it (`after_trailers`,
`after_operations`).
-/

namespace RuleFormat.Parser

variable {r : Nested} {pre s : Text} {ts place : Tokens}

/-- An expression of no shape in particular. -/
theorem exprFits_of_ink {tokens rest : Tokens} (h : s = ink tokens) :
    ExprFits ts { tokens } s rest where
  ink := h
  angle := fun _ => rfl
  braces := by simp
  verbatim := by simp
  range := by simp

theorem after_otherExpr {p : Parser Tokens} (hp : Copies id p) (ts : Tokens) :
    After [] (ExprFits ts) (otherExpr p) ts :=
  .copy hp fun _ _ _ => .pure (exprFits_of_ink rfl)

/-! ## Operators -/

theorem operatorAhead_le (j : Bool) (ts : Tokens) :
    operatorAhead (.punct '<' true :: .punct '=' j :: ts) = some (.binary "<=" .compare) := rfl

theorem operatorAhead_shl_assign (j : Bool) (ts : Tokens) :
    operatorAhead (.punct '<' true :: .punct '<' true :: .punct '=' j :: ts)
      = some (.binary "<<=" .assign) := rfl

/-- An operator that begins with an angle bracket is one that a path would take for its own. -/
theorem opensArguments_of_operatorAhead {o : Text} {p : Precedence}
    (h : operatorAhead ts = some (.binary o p)) (ho : opensAngle o = true) :
    opensArguments ts = true := by
  have hstarts : startsOp o ts = true := by
    unfold operatorAhead at h
    split at h
    · rename_i hfind
      cases h
      have hfound := List.find?_some hfind
      exact hfound
    · split at h
      · cases h
      · split at h
        · cases h
        · split at h <;> cases h
  have hlt : startsOp "<" ts = true := by
    simp only [opensAngle, Bool.or_eq_true, beq_iff_eq] at ho
    obtain rfl | rfl := ho
    · exact hstarts
    · obtain ⟨j, hj⟩ := exists_operatorWith hstarts
      rw [hj]
      rfl
  have hle : startsOp "<=" ts = false := by
    by_contra hcontra
    obtain ⟨j, hj⟩ := exists_operatorWith (Bool.of_not_eq_false hcontra)
    rw [hj] at h
    cases (operatorAhead_le j _).symm.trans h
    cases ho
  have hshl : startsOp "<<=" ts = false := by
    by_contra hcontra
    obtain ⟨j, hj⟩ := exists_operatorWith (Bool.of_not_eq_false hcontra)
    rw [hj] at h
    cases (operatorAhead_shl_assign j _).symm.trans h
    cases ho
  rw [opensArguments, hlt, hle, hshl]
  rfl

/-! ## Ranges -/

theorem after_exprDots (ts : Tokens) :
    After [] (fun x s _ => s = ink x.1 ∧ startsDots ts = true) exprDots ts := by
  refine .ahead (.guard fun hthree => .branch (fun hclosed => ?_) fun _ => ?_)
  · have hdots : startsOp ".." ts = true := by
      obtain ⟨j, hj⟩ := exists_operatorWith hclosed
      rw [hj]
      rfl
    exact .copy (copies_op _) fun _ _ _ => .pure ⟨rfl, by rw [startsDots, hdots, hthree]; rfl⟩
  · refine (after_op _ ts).bind ?_
    rintro _ _ rest _ ⟨rfl, rfl, j, rfl⟩
    exact .pure ⟨rfl, by rw [startsDots, hthree]; rfl⟩

theorem after_rangeBehind (hr : CopiesNested r) (allowStruct : Bool) (start : Tokens)
    (hts : ts <:+ place) :
    After (ink start) (ExprFits place) (rangeBehind r allowStruct start) ts := by
  refine (after_exprDots ts).bind ?_
  rintro ⟨dots, closed⟩ _ mid _ ⟨rfl, hdots⟩
  have hhas : Has startsDots place := (Has.here hdots).mono hts
  refine .ahead (.ite (fun _ => ?_) fun _ => ?_)
  · exact .pure ⟨by simp, fun _ => rfl, by simp, by simp, fun _ => hhas⟩
  · refine (hr.rightOperand allowStruct .range mid).bind fun last s rest _ h => ?_
    exact .pure ⟨by simp [h.ink], fun _ => rfl, by simp, by simp, fun _ => hhas⟩

/-! ## Chains of operations -/

/-- A cast to a type that ends bare is not stable in front of an angle bracket. -/
theorem after_cast (hr : CopiesNested r) {left : ExprForm} (hleft : ExprFits place left s ts) :
    After s (ExprFits place) (do
      let _ ← word "as"
      let type ← r.type false
      guard (!(← ahead startsTrailer))
      return left.cast type) ts := by
  refine .stable fun hts => (after_word _ ts).bind ?_
  rintro _ _ mid hmid ⟨rfl, rfl, rfl⟩
  refine (hr.type false mid).bind fun type s' rest _ htype => .ahead (.guard fun _ => .pure ?_)
  refine ⟨by simp [ExprForm.cast, hleft.ink, htype.ink], fun hopen => ?_, by simp [ExprForm.cast],
    by simp [ExprForm.cast], by simp [ExprForm.cast]⟩
  cases hbare : type.endsBare with
  | false => simp [ExprForm.cast, hbare]
  | true =>
    have hhas := any_tails.2 ((htype.bare rfl hbare hopen).mono hmid)
    have hencloses := hts.front (f := enclosesCast) (by simp [rewritten]) (by decide)
    rw [enclosesCast, hhas] at hencloses
    simp [startsWord] at hencloses

theorem after_operation (hr : CopiesNested r) (allowStruct : Bool) {left : ExprForm} {o : Operator}
    (hts : ts <:+ place) (hleft : ExprFits place left s ts) (ho : operatorAhead ts = some o) :
    After s (ExprFits place) (operation r allowStruct left o) ts := by
  cases o with
  | binary o p =>
    refine .guard fun _ => (after_op o ts).bind ?_
    rintro _ _ mid _ ⟨rfl, rfl, -⟩
    refine (hr.rightOperand allowStruct p mid).bind fun right s' rest _ hright => .pure ?_
    have hfront : ink (if opensAngle o then left.beforeAngle else left.tokens) = ink left.tokens := by
      split
      · exact hleft.angle (opensArguments_of_operatorAhead ho ‹_›)
      · rfl
    refine ⟨?_, fun hopen => ?_, ?_, ?_, ?_⟩
    · simp [ExprForm.binary, hfront, hleft.ink, hright.ink]
    · simp [ExprForm.binary, hright.angle hopen]
    all_goals
      simp only [ExprForm.binary]
      split <;> simp
  | assign =>
    refine .copy (copies_op _) fun eq mid _ => ?_
    refine (hr.rightOperand allowStruct .assign mid).bind fun right s' rest _ hright => .pure ?_
    exact exprFits_of_ink (by simp [hleft.ink, hright.ink])
  | range =>
    rw [hleft.ink]
    exact after_rangeBehind hr allowStruct left.tokens hts
  | cast => exact after_cast hr hleft

theorem after_operations (hr : CopiesNested r) (allowStruct : Bool) (least : Precedence) {e : ExprForm}
    (hts : ts <:+ place) (he : ExprFits place e s ts) :
    After s (ExprFits place) (operations r allowStruct least e) ts := by
  refine after_extend (fun left s mid hmid hleft => .get ?_) he
  cases ho : operatorAhead mid with
  | none => exact .pure hleft
  | some o =>
    refine .ite (fun _ => .pure hleft) fun _ => ?_
    exact (after_operation hr allowStruct (hmid.trans hts) hleft ho).seq fun _ _ _ _ h => .pure h

theorem after_tighterOperations (hr : CopiesNested r) (allowStruct : Bool) (p : Precedence)
    {e : ExprForm} (hts : ts <:+ place) (he : ExprFits place e s ts) :
    After s (ExprFits place) (tighterOperations r allowStruct p e) ts := by
  refine after_extend (fun right s mid hmid hright => .get ?_) he
  cases operatorAhead mid with
  | none => exact .pure hright
  | some o =>
    refine .ite (fun _ => ?_) fun _ => .pure hright
    exact (after_operations hr allowStruct _ (hmid.trans hts) hright).seq fun _ _ _ _ h => .pure h

/-! ## What may follow an operand -/

theorem copies_exprList (hr : CopiesNested r) : Copies id (exprList r) := copies_commaList hr.exprTokens

theorem copies_callArguments (hr : CopiesNested r) : Copies id (callArguments r) :=
  copies_group (copies_exprList hr)

theorem map_decimal {parts : List Text} {numbers : List Nat}
    (h : parts.mapM fieldNumber? = some numbers) (hparts : parts.any isRespelled = false) :
    numbers.map decimal = parts := by
  induction parts generalizing numbers with
  | nil =>
    cases h
    rfl
  | cons t parts ih =>
    rw [List.mapM_cons] at h
    obtain ⟨n, hn, hrest⟩ := Option.bind_eq_some_iff.1 h
    obtain ⟨ns, hns, heq⟩ := Option.bind_eq_some_iff.1 hrest
    cases heq
    rw [List.any_cons, Bool.or_eq_false_iff, isRespelled, hn] at hparts
    obtain rfl : decimal n = t := by simpa using hparts.1
    rw [List.map_cons, ih hns hparts.2]

theorem ink_intercalate (parts : List Text) :
    ink ([Token.punct '.' false].intercalate (parts.map fun t => [.literal t]))
      = compact (['.'].intercalate parts) := by
  induction parts with
  | nil => rfl
  | cons t parts ih =>
    cases parts with
    | nil => simp [Token.render]
    | cons u parts =>
      rw [List.map_cons] at ih ⊢
      rw [List.map_cons, List.intercalate_cons_cons, List.intercalate_cons_cons, ink_append, ink_append,
        ih, compact_append, compact_append]
      simp [Token.render]

/-- Numbers of fields with points between them, none of which is written in other digits. -/
theorem ink_fieldNumbers {parts : List Text} {out : Tokens} (h : fieldNumbers parts = some out)
    (hparts : parts.any isRespelled = false) : ink out = compact (['.'].intercalate parts) := by
  obtain ⟨numbers, hnumbers, heq⟩ := Option.bind_eq_some_iff.1 h
  cases heq
  have hmap : numbers.map (fun n => [Token.literal (decimal n)])
      = (numbers.map decimal).map fun t => [Token.literal t] := by simp
  rw [hmap, map_decimal hnumbers hparts, ink_intercalate]

theorem after_namedMember (hr : CopiesNested r) (hts : ∀ t rest, ts = .literal t :: rest → isRespelled t = false) :
    After [] (fun out s _ => s = ink out) (namedMember r) ts := by
  have hargs : Copies id (optional (startsOp "::") do return (← angleArguments r).1) :=
    copies_optional fun ts => (after_angleArguments hr ts).bind fun _ _ _ _ h => .pure h.1
  refine .branch (fun _ => copies_anyWord ts) fun _ => .branch (fun _ => ?_) fun _ => ?_
  · refine .copy copies_anyWord fun name _ _ => .copy hargs fun args _ _ => .ahead (.ite (fun h => ?_) fun _ => ?_)
    · obtain rfl : args = [] := by simp_all
      exact .pure (by simp)
    · exact .copy (copies_callArguments hr) fun _ _ _ => .pure (by simp)
  · refine (after_fieldNumber ts).imp ?_
    rintro out s rest _ ⟨t, heq, hink⟩
    exact hink (hts t rest heq)

theorem isRespelled_of_point {j : Bool} {t : Text} {rest : Tokens}
    (h : renumbersField (.punct '.' j :: .literal t :: rest) = false) :
    (t.splitOnP (· == '.')).any isRespelled = false ∧
      ∀ u rest', rest = .literal u :: rest' → isRespelled u = false := by
  refine ⟨(Bool.or_eq_false_iff.1 h).1, ?_⟩
  rintro u rest' rfl
  exact (Bool.or_eq_false_iff.1 h).2

theorem after_member (hr : CopiesNested r) {j : Bool} (hts : renumbersField (.punct '.' j :: ts) = false) :
    After [] (fun out s _ => s = ink out) (member r) ts := by
  intro hstable out rest h
  unfold member at h
  split at h
  · rename_i t rest'
    obtain ⟨hparts, hnext⟩ := isRespelled_of_point hts
    have hsplit : ['.'].intercalate (t.splitOnP (· == '.')) = t := List.intercalate_splitOn '.'
    split at h
    · rename_i a ha
      obtain ⟨front, hfront, hlast⟩ := Option.bind_eq_some_iff.1 h
      obtain ⟨⟨last, rest''⟩, hmember, heq⟩ := Option.bind_eq_some_iff.1 hlast
      cases heq
      obtain ⟨taken, rfl, hink⟩ := after_namedMember hr hnext hstable.tail _ _ hmember
      refine ⟨.literal t :: taken, rfl, ?_⟩
      have hink : ink taken = ink last := hink
      have hfirst : ink front = compact a := by
        rw [ha, List.any_cons, Bool.or_eq_false_iff] at hparts
        rw [ink_fieldNumbers hfront (by simpa using hparts.1)]
        simp
      have ht : compact t = compact a ++ compact ['.'] := by
        rw [← hsplit, ha, ← compact_append]
        simp
      simp [hink, hfirst, ht, Token.render]
    · obtain ⟨numbers, hnumbers, heq⟩ := Option.bind_eq_some_iff.1 h
      cases heq
      refine ⟨[.literal t], rfl, ?_⟩
      have hink := ink_fieldNumbers hnumbers hparts
      rw [hsplit] at hink
      simp [hink, Token.render]
  · rename_i hnone
    exact after_namedMember hr (fun t rest heq => absurd heq (hnone t rest)) hstable out rest h

/-- What follows an operand is copied, and nothing is taken when there is nothing. -/
theorem after_trailer (hr : CopiesNested r) (isRange : Bool) (ts : Tokens) :
    After [] (fun o s rest => (o = none ∧ s = [] ∧ rest = ts) ∨ ∃ out, o = some out ∧ s = ink out)
      (trailer? r isRange) ts := by
  refine .branch (fun _ => ?_) fun _ => .branch (fun _ => ?_) fun _ => .branch (fun _ => ?_) fun _ => ?_
  · exact .copy (copies_callArguments hr) fun _ _ _ => .pure (.inr ⟨_, rfl, rfl⟩)
  · refine .stable fun hts => (after_op _ ts).bind ?_
    rintro _ _ mid _ ⟨rfl, rfl, j, rfl⟩
    have hspelled := hts.front (f := renumbersField) (by simp [rewritten]) (by decide)
    refine (after_member hr hspelled).bind fun out s _ _ h => .pure (.inr ⟨_, rfl, ?_⟩)
    simp [h]
  · exact .copy (copies_group hr.exprTokens) fun _ _ _ => .pure (.inr ⟨_, rfl, rfl⟩)
  · refine .branch (fun _ => ?_) fun _ => .pure (.inl ⟨rfl, rfl, rfl⟩)
    exact .copy (copies_op _) fun _ _ _ => .pure (.inr ⟨_, rfl, rfl⟩)

theorem after_trailers (hr : CopiesNested r) {e : ExprForm} (he : ExprFits place e s ts) :
    After s (ExprFits place) (trailers r e) ts := by
  refine after_extend (fun e s mid _ he => (after_trailer hr _ mid).bind ?_) he
  rintro o _ rest _ (⟨rfl, rfl, rfl⟩ | ⟨out, rfl, rfl⟩)
  · exact .pure (by simpa using he)
  · exact .pure (exprFits_of_ink (by simp [he.ink]))

/-! ## Atoms in delimiters -/

theorem copies_squareExprContent (hr : CopiesNested r) : Copies id (squareExprContent r) := by
  refine fun ts => .branch (fun _ => .pure rfl) fun _ => .copy hr.exprTokens fun _ _ _ => ?_
  refine .branch (fun _ => ?_) fun _ => .branch (fun _ => .pure (by simp)) fun _ => ?_
  · exact .copy (copies_op _) fun _ _ _ => .copy hr.exprTokens fun _ _ _ => .pure (by simp)
  · exact .copy (copies_op _) fun _ _ _ => .copy (copies_exprList hr) fun _ _ _ => .pure (by simp)

theorem copies_fieldValue (hr : CopiesNested r) : Copies id (fieldValue r) := by
  have hvalue : Copies id (optional (startsOp ":") do return (← op ":") ++ (← r.exprTokens)) :=
    copies_optional fun _ => .copy (copies_op _) fun _ _ _ =>
      .copy hr.exprTokens fun _ _ _ => .pure (by simp)
  refine fun ts => .copy (copies_attributes hr) fun _ _ _ => .branch (fun _ => ?_) fun _ => ?_
  · exact .copy copies_anyWord fun _ _ _ => .copy hvalue fun _ _ _ => .pure (by simp)
  · exact .fieldColon fun _ _ _ _ => .copy hr.exprTokens fun _ _ _ => .pure (by simp)

theorem copies_structExprContent (hr : CopiesNested r) : Copies id (structExprContent r) := by
  have hone : Copies id (do
      if ← ahead (startsOp "..") then
        let dots ← op ".."
        let base ← if ← ahead List.isEmpty then pure [] else r.exprTokens
        guard (← ahead List.isEmpty)
        return dots ++ base
      separated List.isEmpty (fieldValue r)) := by
    refine fun ts => .branch (fun _ => ?_) fun _ => copies_separated (copies_fieldValue hr) ts
    refine .copy (copies_op _) fun dots _ _ => .branch (fun _ => ?_) fun _ => ?_
    · exact .pureBind (.ahead (.guard fun _ => .pure (by simp)))
    · exact .copy hr.exprTokens fun _ _ _ => .ahead (.guard fun _ => .pure (by simp))
  exact fun ts => .copy (copies_repeat hone) fun _ _ _ => .pure rfl

theorem after_pathExpr (hr : CopiesNested r) (allowStruct : Bool) (ts : Tokens) :
    After [] (ExprFits ts) (pathExpr r allowStruct) ts := by
  refine (after_qualifiedPath hr true ts).bind ?_
  rintro ⟨p, qualified⟩ _ mid hmid ⟨rfl, -, -, -⟩
  refine .ahead (.ite (fun _ => .ahead ((after_macroCall mid).bind ?_)) fun _ => ?_)
  · rintro _ _ rest _ ⟨rfl, j, d, inner, rfl⟩
    refine .pure ⟨by simp, fun _ => rfl, fun hshape => ⟨inner, ?_⟩, ?_, ?_⟩
    · obtain rfl : d = .curly := by
        cases d <;> simp [startsGroup] at hshape ⊢
      exact (List.suffix_cons ..).trans hmid
    all_goals
      dsimp only
      split <;> simp
  refine .ahead (.ite (fun _ => ?_) fun _ => ?_)
  · exact .copy (copies_group (copies_structExprContent hr)) fun _ _ _ =>
      .pure (exprFits_of_ink (by simp))
  · exact .pure (exprFits_of_ink (by simp))

/-! ## Closures -/

theorem copies_closureParameter (hr : CopiesNested r) : Copies id (closureParameter r) := by
  have htype : Copies id (optional (startsOp ":") do return (← op ":") ++ (← r.typeTokens)) :=
    copies_optional fun _ => .copy (copies_op _) fun _ _ _ =>
      .copy hr.typeTokens fun _ _ _ => .pure (by simp)
  refine fun ts => .stable fun hts => (after_attributes hr ts).bind ?_
  rintro attrs _ mid _ ⟨rfl, -, hattrs⟩
  refine (hr.pattern mid).bind fun p s m _ hp => .copy htype fun type _ _ => ?_
  split
  · rename_i hshape
    obtain ⟨rfl, -⟩ | ⟨-, j, inner, hlast⟩ := hattrs
    · exact .pure (by simp [hp.ink])
    · have hbox : startsOneOf ["box", "become", "builtin"] mid = true :=
        startsOneOf_of_word (hp.verbatim hshape) (by decide)
      rw [not_verbatim_of_attribute hts hlast] at hbox
      cases hbox
  · exact .pure (by simp [hp.ink])

theorem copies_closure (hr : CopiesNested r) (allowStruct : Bool) : Copies id (closure r allowStruct) := by
  refine fun ts => .copy (copies_binders hr) fun _ _ _ => .copy (copies_optionalWord _) fun _ _ _ => ?_
  refine .copy (copies_optionalWord _) fun _ _ _ => .copy (copies_optionalWord _) fun _ _ _ => ?_
  refine .copy (copies_optionalWord _) fun _ _ _ => .copy (copies_op _) fun _ _ _ => ?_
  refine .copy (copies_listUntil (copies_closureParameter hr)) fun _ _ _ => .copy (copies_op _) ?_
  refine fun _ mid _ => .branch (fun _ => .copy (copies_op _) fun _ _ _ => ?_) fun _ => ?_
  · exact .copy hr.typeTokens fun _ _ _ => .copy hr.copies_block fun _ _ _ => .pure (by simp)
  · exact (hr.expr allowStruct mid).bind fun _ _ _ _ h => .pure (by simp [h.ink])

/-! ## Jumps -/

theorem copies_breakExpr (hr : CopiesNested r) (allowStruct : Bool) :
    Copies id (breakExpr r allowStruct) := by
  refine fun ts => .copy (copies_word _) fun _ _ _ => .ahead (.guard fun _ => ?_)
  refine .copy (copies_optional copies_lifetime) fun _ _ _ => ?_
  exact .copy (copies_optional hr.exprTokens) fun _ _ _ => .pure (by simp)

theorem copies_jumpExpr (hr : CopiesNested r) : Copies id (jumpExpr r) :=
  fun ts => .copy copies_anyWord fun _ _ _ => .copy (copies_optional hr.exprTokens) fun _ _ _ =>
    .pure (by simp)

theorem copies_becomeExpr (hr : CopiesNested r) : Copies id (becomeExpr r) := by
  refine fun ts => (After.verbatim (R := fun _ _ _ => True) ?_).imp fun _ _ _ _ h => h.1
  exact .copy (copies_word _) fun _ mid _ => (hr.exprTokens mid).reads

theorem copies_builtinExpr : Copies id builtinExpr := by
  refine fun ts => (After.verbatim (R := fun _ _ _ => True) ?_).imp fun _ _ _ _ h => h.1
  refine .copy (copies_word _) fun _ _ _ => .copy (copies_op _) fun _ _ _ => ?_
  exact .copy copies_ident fun _ mid _ => .ahead (.guard fun _ => (copies_anyGroup mid).reads)

/-! ## Choices and loops -/

/-- What is known of an expression that ends with a block, read from `ts`. -/
structure BlockFits (ts : Tokens) (out : Tokens) (s : Text) (rest : Tokens) : Prop where
  ink : s = ink out
  braces : ∃ inner, .group .curly inner :: rest <:+ ts

/-- A block at the end. -/
theorem After.block {p : Parser Tokens} {front mid : Tokens}
    (hp : After [] (fun out s rest => s = ink out ∧ ∃ inner, mid = .group .curly inner :: rest) p mid)
    (hmid : mid <:+ ts) (hpre : pre = ink front) :
    After pre (BlockFits ts) (do return front ++ (← p)) mid := by
  refine hp.bind ?_
  rintro out _ rest _ ⟨rfl, inner, rfl⟩
  exact .pure ⟨by rw [hpre, ink_append], inner, hmid⟩

theorem after_ifClause (hr : CopiesNested r) (ts : Tokens) :
    After [] (BlockFits ts) (ifClause r) ts := by
  refine .copy (copies_word _) fun _ m hm => (hr.expr false m).bind fun cond s mid hmid h => ?_
  exact .block (hr.block mid) (hmid.trans hm) (by simp [h.ink])

theorem after_ifExpr (hr : CopiesNested r) (ts : Tokens) : After [] (BlockFits ts) (ifExpr r) ts := by
  have hmore : ∀ ts, After [] (BlockFits ts) (do
      let head ← word "else"
      return head ++ (← ifClause r)) ts := by
    refine fun ts => .copy (copies_word _) fun _ mid hmid => ?_
    refine (after_ifClause hr mid).bind fun out s rest _ h => .pure ⟨by simp [h.ink], ?_⟩
    exact h.braces.imp fun _ h => h.trans hmid
  have hlast : ∀ ts, After [] (fun out s rest => s = ink out ∧
      (rest = ts ∨ ∃ inner, .group .curly inner :: rest <:+ ts)) (optional (startsWord "else") do
        let head ← word "else"
        return head ++ (← r.block)) ts := by
    refine fun ts => .branch (fun _ => .copy (copies_word _) fun _ mid hmid => ?_) fun _ => ?_
    · exact (After.block (hr.block mid) hmid (by simp)).imp fun _ _ _ _ h => ⟨h.ink, .inr h.braces⟩
    · exact .pure ⟨rfl, .inl rfl⟩
  refine (after_ifClause hr ts).bind fun first s m hm hfirst => ?_
  refine (after_rounds fun ts _ => hmore ts).bind fun more s' m' hm' h => (hlast m').bind ?_
  rintro last _ rest _ ⟨rfl, hend⟩
  have hink : s' = ink more.flatten := by simpa using h.ink_eq (f := id) fun _ _ _ _ h => BlockFits.ink h
  refine .pure ⟨by simp [hfirst.ink, hink], ?_⟩
  obtain rfl | ⟨inner, hinner⟩ := hend
  · obtain ⟨-, rfl⟩ | ⟨-, _, _, _, place, -, hplace, -, hlast⟩ := h.last
    · exact hfirst.braces
    · exact hlast.braces.imp fun _ h => h.trans (hplace.trans hm)
  · exact ⟨inner, hinner.trans (hm'.trans hm)⟩

theorem copies_subject (hr : CopiesNested r) : Copies id (subject r) :=
  fun ts => (hr.expr false ts).bind fun _ _ _ _ h => .pure (by simp [h.ink])

theorem after_whileExpr (hr : CopiesNested r) (ts : Tokens) :
    After [] (BlockFits ts) (whileExpr r) ts := by
  refine .copy (copies_word _) fun _ m hm => .copy (copies_subject hr) fun _ mid hmid => ?_
  exact .block (after_attributedBlock hr mid) (hmid.trans hm) (by simp)

theorem after_forExpr (hr : CopiesNested r) (ts : Tokens) :
    After [] (BlockFits ts) (forExpr r) ts := by
  refine .copy (copies_word _) fun _ m hm => .copy (copies_alternatives hr) fun _ m₁ hm₁ => ?_
  refine .copy (copies_word _) fun _ m₂ hm₂ => .copy (copies_subject hr) fun _ mid hmid => ?_
  exact .block (after_attributedBlock hr mid) (hmid.trans (hm₂.trans (hm₁.trans hm))) (by simp)

theorem after_wordBlock (hr : CopiesNested r) (ts : Tokens) :
    After [] (BlockFits ts) (wordBlock r) ts :=
  .copy copies_anyWord fun _ mid hmid => .block (after_attributedBlock hr mid) hmid (by simp)

theorem after_plainWordBlock (hr : CopiesNested r) (ts : Tokens) :
    After [] (BlockFits ts) (plainWordBlock r) ts :=
  .copy copies_anyWord fun _ _ hm => .copy (copies_optionalWord _) fun _ mid hmid =>
    .block (hr.block mid) (hmid.trans hm) (by simp)

theorem after_labeledExpr (hr : CopiesNested r) (ts : Tokens) :
    After [] (BlockFits ts) (labeledExpr r) ts := by
  have hbehind : ∀ {p : Parser Tokens} {label mid : Tokens}, mid <:+ ts →
      After [] (BlockFits mid) p mid → After (ink label) (BlockFits ts) (do return label ++ (← p)) mid := by
    intro p label mid hmid hp
    refine hp.bind fun out s rest _ h => .pure ⟨by simp [h.ink], ?_⟩
    exact h.braces.imp fun _ h => h.trans hmid
  refine .copy copies_lifetime fun name m hm => .copy (copies_op _) fun colon mid hmid => ?_
  have hpre : [] ++ ink (id name) ++ ink (id colon) = ink (name ++ colon) := by simp
  have hts := hmid.trans hm
  rw [hpre]
  refine .branch (fun _ => hbehind hts (after_whileExpr hr mid)) fun _ => ?_
  refine .branch (fun _ => hbehind hts (after_forExpr hr mid)) fun _ => ?_
  refine .branch (fun _ => hbehind hts (after_wordBlock hr mid)) fun _ => ?_
  exact .block (after_attributedBlock hr mid) hts rfl

theorem copies_matchArm (hr : CopiesNested r) : Copies id (matchArm r) := by
  have hcond : Copies id (optional (startsWord "if") do return (← word "if") ++ (← r.exprTokens)) :=
    copies_optional fun _ => .copy (copies_word _) fun _ _ _ =>
      .copy hr.exprTokens fun _ _ _ => .pure (by simp)
  refine fun ts => .copy (copies_attributes hr) fun _ _ _ => .copy (copies_alternatives hr) fun _ _ _ => ?_
  refine .copy hcond fun _ _ _ => .copy (copies_op _) fun _ _ _ => .copy hr.leadingExpr fun body _ _ => ?_
  refine .ahead (.ite (fun _ => ?_) fun _ => ?_)
  · exact .copy (copies_optionalOp _) fun _ _ _ => .pure (by simp)
  · exact .copy (copies_op _) fun _ _ _ => .pure (by simp)

theorem after_matchExpr (hr : CopiesNested r) (ts : Tokens) :
    After [] (BlockFits ts) (matchExpr r) ts := by
  have harms : Copies id (do
      let attrs ← innerAttributes r
      return attrs ++ (← repeatWhile (fun ts => !ts.isEmpty) (matchArm r)).flatten) := by
    refine fun ts => (after_innerAttributes hr ts).bind ?_
    rintro _ _ _ _ ⟨rfl, -⟩
    exact .copy (copies_repeat (copies_matchArm hr)) fun _ _ _ => .pure (by simp)
  refine .copy (copies_word _) fun _ m hm => .copy (copies_subject hr) fun _ mid hmid => ?_
  exact .block (after_group mid fun inner _ => harms inner) (hmid.trans hm) (by simp)

/-- An expression that ends with a block is copied, and nothing is taken when there is none. -/
theorem after_blockLike (hr : CopiesNested r) (ts : Tokens) :
    After [] (fun o s rest => (o = none ∧ s = [] ∧ rest = ts) ∨ ∃ out, o = some out ∧ BlockFits ts out s rest)
      (blockLike? r) ts := by
  have hsome : ∀ {p : Parser Tokens}, After [] (BlockFits ts) p ts →
      After [] (fun o s rest => (o = none ∧ s = [] ∧ rest = ts) ∨
        ∃ out, o = some out ∧ BlockFits ts out s rest) (do return some (← p)) ts :=
    fun hp => hp.bind fun out _ _ _ h => .pure (.inr ⟨out, rfl, h⟩)
  refine .ahead (.ahead (.branch (fun _ => hsome (after_ifExpr hr ts)) fun _ => ?_))
  refine .branch (fun _ => hsome (after_whileExpr hr ts)) fun _ => ?_
  refine .branch (fun _ => hsome (after_forExpr hr ts)) fun _ => ?_
  refine .branch (fun _ => hsome (after_matchExpr hr ts)) fun _ => ?_
  refine .branch (fun _ => hsome (after_plainWordBlock hr ts)) fun _ => ?_
  refine .branch (fun _ => hsome (after_wordBlock hr ts)) fun _ => ?_
  refine .branch (fun _ => hsome (after_wordBlock hr ts)) fun _ => ?_
  refine .branch (fun _ => hsome ?_) fun _ => .branch (fun _ => hsome (after_labeledExpr hr ts)) fun _ => ?_
  · refine (after_attributedBlock hr ts).imp ?_
    rintro _ _ rest _ ⟨rfl, inner, rfl⟩
    exact ⟨rfl, inner, List.suffix_refl _⟩
  · exact .pure (.inl ⟨rfl, rfl, rfl⟩)

/-! ## Operands -/

theorem copies_letExpr (hr : CopiesNested r) (allowStruct : Bool) : Copies id (letExpr r allowStruct) := by
  refine fun ts => .copy (copies_word _) fun _ _ _ => .copy (copies_alternatives hr) fun _ _ _ => ?_
  refine .copy (copies_op _) fun _ mid _ => (hr.operand allowStruct mid).bind fun e s m hm he => ?_
  refine (after_operations hr allowStruct .compare hm he).behind.seq ?_
  rintro value _ _ _ ⟨s', rfl, hvalue⟩
  exact .pure (by simp [hvalue.ink])

theorem after_plainAtom (hr : CopiesNested r) (allowStruct : Bool) (ts : Tokens) :
    After [] (ExprFits ts) (plainAtom r allowStruct) ts := by
  refine .branch (fun _ => after_otherExpr copies_literal ts) fun _ => ?_
  refine .branch (fun _ => after_otherExpr ?_ ts) fun _ => ?_
  · exact fun ts => (after_plainWordBlock hr ts).imp fun _ _ _ _ h => h.ink
  refine .branch (fun _ => after_otherExpr (copies_closure hr allowStruct) ts) fun _ => ?_
  refine .branch (fun hbuiltin => .copy copies_builtinExpr fun _ _ _ => .pure ?_) fun _ => ?_
  · refine ⟨rfl, fun _ => rfl, by simp, fun _ => .inr ?_, by simp⟩
    exact startsOneOf_of_word (Bool.and_eq_true_iff.1 hbuiltin).1 (by decide)
  refine .branch (fun _ => after_pathExpr hr allowStruct ts) fun _ => ?_
  refine .branch (fun _ => after_otherExpr (copies_group (copies_exprList hr)) ts) fun _ => ?_
  refine .branch (fun _ => after_otherExpr (copies_breakExpr hr allowStruct) ts) fun _ => ?_
  refine .branch (fun _ => .copy copies_anyWord fun _ _ _ => ?_) fun _ => ?_
  · exact .copy (copies_optional copies_lifetime) fun _ _ _ => .pure (exprFits_of_ink (by simp))
  refine .branch (fun _ => after_otherExpr (copies_jumpExpr hr) ts) fun _ => ?_
  refine .branch (fun hbecome => .copy (copies_becomeExpr hr) fun _ _ _ => .pure ?_) fun _ => ?_
  · exact ⟨rfl, fun _ => rfl, by simp, fun _ => .inr (startsOneOf_of_word hbecome (by decide)), by simp⟩
  refine .branch (fun _ => after_otherExpr (copies_group (copies_squareExprContent hr)) ts) fun _ => ?_
  refine .branch (fun _ => after_otherExpr (copies_letExpr hr allowStruct) ts) fun _ => ?_
  refine .branch (fun _ => after_rangeBehind hr allowStruct [] (List.suffix_refl ts)) fun _ => ?_
  exact .branch (fun _ => after_otherExpr copies_anyWord ts) fun _ => .failure

theorem after_atom (hr : CopiesNested r) (allowStruct : Bool) (ts : Tokens) :
    After [] (ExprFits ts) (atom r allowStruct) ts := by
  refine (after_blockLike hr ts).bind ?_
  rintro o _ mid _ (⟨rfl, rfl, rfl⟩ | ⟨out, rfl, h⟩)
  · exact after_plainAtom hr allowStruct mid
  · exact .pure ⟨by simp [h.ink], fun _ => rfl, fun _ => h.braces, by simp, by simp⟩

theorem copies_sign : Copies id sign := by
  refine fun ts => .branch (fun _ => .copy (copies_op _) fun _ _ _ => ?_) fun _ => ?_
  · refine .branch (fun _ => .copy copies_anyWord fun _ _ _ => ?_) fun _ => ?_
    · exact .copy copies_anyWord fun _ _ _ => .pure (by simp)
    · exact .copy (copies_optionalWord _) fun _ _ _ => .pure (by simp)
  · refine .branch (fun _ => copies_op _ ts) fun _ => .branch (fun _ => copies_op _ ts) fun _ => ?_
    exact copies_op _ ts

theorem after_bareOperand (hr : CopiesNested r) (allowStruct : Bool) (ts : Tokens) :
    After [] (ExprFits ts) (bareOperand r allowStruct) ts := by
  refine .branch (fun _ => .copy copies_sign fun _ mid _ => ?_) fun _ => ?_
  · refine (hr.operand allowStruct mid).bind fun e s _ _ h => .pure (exprFits_of_ink ?_)
    simp [h.ink]
  · exact (after_atom hr allowStruct ts).seq fun _ _ _ _ h => after_trailers hr h

/-- Attributes in front of an expression that is no range. -/
theorem ExprFits.behind {e : ExprForm} {rest attrs : Tokens} (h : ExprFits ts e s rest)
    (hattrs : e.shape = .range → attrs = []) : ExprFits ts (e.behind attrs) (RuleFormat.ink attrs ++ s) rest := by
  have hbehind : e.behind attrs
      = { e with tokens := attrs ++ e.tokens, beforeAngle := attrs ++ e.beforeAngle } := by
    unfold ExprForm.behind
    split
    · simp_all
    · rfl
  rw [hbehind]
  exact ⟨by simp [h.ink], fun hopen => by simp [h.angle hopen], h.braces, h.verbatim, h.range⟩

theorem after_operand (hr : CopiesNested r) (allowStruct : Bool) (ts : Tokens) :
    After [] (ExprFits ts) (operand r allowStruct) ts := by
  refine After.keepingIf (R := ExprFits ts) ?_ (fun _ _ _ _ h => h) ?_
  · refine (after_attributes hr ts).bind ?_
    rintro attrs _ mid hmid ⟨rfl, -, hattrs⟩
    refine (after_bareOperand hr allowStruct mid).bind fun e s rest _ h => .guard fun hrange => .pure ?_
    have hfits : ExprFits ts e s rest := by
      refine ⟨h.ink, h.angle, fun hshape => (h.braces hshape).imp fun _ h => h.trans hmid,
        fun hshape => ?_, fun hshape => (h.range hshape).mono hmid⟩
      obtain ⟨-, rfl⟩ | ⟨hpound, -⟩ := hattrs
      · exact h.verbatim hshape
      · exact .inl hpound
    refine hfits.behind fun hshape => ?_
    simpa [hshape] using hrange
  · intro e taken rest _ hshape h
    exact ⟨rfl, fun _ => rfl, by simp, fun _ => h.verbatim (by simpa using hshape), by simp⟩

theorem after_rightOperand (hr : CopiesNested r) (allowStruct : Bool) (p : Precedence) (ts : Tokens) :
    After [] (ExprFits ts) (rightOperand r allowStruct p) ts :=
  (after_operand hr allowStruct ts).seq fun _ _ _ hmid h =>
    after_tighterOperations hr allowStruct p hmid h

theorem after_expr (hr : CopiesNested r) (allowStruct : Bool) (ts : Tokens) :
    After [] (ExprFits ts) (expr r allowStruct) ts :=
  (after_operand hr allowStruct ts).seq fun _ _ _ hmid h =>
    after_operations hr allowStruct .assign hmid h

/-! ## Expressions in statements -/

/-- What is known of attributes that were read in front of an expression at `ts`. -/
structure AttributesFit (attrs ts : Tokens) : Prop where
  pound : startsOp "#" ts = false
  verbatim : startsOneOf ["become", "builtin"] ts = true → attrs = []
  range : Has startsDots ts → attrs = []

theorem after_attributesFit (hr : CopiesNested r) (ts : Tokens) :
    After [] (fun attrs s rest => s = ink attrs ∧ AttributesFit attrs rest) (attributes r) ts := by
  refine .stable fun hts => (after_attributes hr ts).imp ?_
  rintro attrs _ rest hrest ⟨rfl, hpound, ⟨rfl, -⟩ | ⟨hfirst, j, inner, hlast⟩⟩
  · exact ⟨rfl, hpound, fun _ => rfl, fun _ => rfl⟩
  · refine ⟨rfl, hpound, fun hverbatim => ?_, fun hdots => ?_⟩
    · have hone : startsOneOf ["box", "become", "builtin"] rest = true := startsOneOf_cons hverbatim
      rw [not_verbatim_of_attribute hts hlast] at hone
      cases hone
    · have hencloses := hts.front (f := enclosesRange) (by simp [rewritten]) (by decide)
      rw [enclosesRange, hfirst, any_tails.2 (hdots.mono hrest)] at hencloses
      cases hencloses

theorem after_leadingExprBehind (hr : CopiesNested r) {attrs : Tokens} (hattrs : AttributesFit attrs ts) :
    After (ink attrs) (ExprFits ts) (leadingExprBehind r attrs) ts := by
  refine (after_blockLike hr ts).bind ?_
  rintro o _ mid hmid (⟨rfl, rfl, rfl⟩ | ⟨out, rfl, h⟩)
  · rw [List.append_nil]
    refine (after_operand hr true mid).bind fun e s m hm he => after_operations hr true .assign hm ?_
    split
    · rename_i hshape
      have hnone : attrs = [] :=
        hattrs.verbatim ((he.verbatim hshape).resolve_left (Bool.eq_false_iff.1 hattrs.pound))
      rw [hnone]
      exact he
    · exact he.behind fun hshape => hattrs.range (he.range hshape)
  · have he : ExprFits ts { tokens := out, shape := .block } (RuleFormat.ink out) mid :=
      ⟨rfl, fun _ => rfl, fun _ => h.braces, by simp, by simp⟩
    rw [h.ink]
    refine .branch (fun _ => ?_) fun _ => .pure (he.behind (by simp))
    refine (after_trailers hr he).behind.seq ?_
    rintro e _ m hm ⟨s, rfl, hfits⟩
    refine after_operations hr true .assign (hm.trans hmid) (hfits.behind fun hshape => ?_)
    exact hattrs.range (hfits.range hshape)

theorem copies_leadingExpr (hr : CopiesNested r) : Copies (·.tokens) (leadingExpr r) := by
  refine fun ts => (after_attributesFit hr ts).bind ?_
  rintro attrs _ mid _ ⟨rfl, hattrs⟩
  exact (after_leadingExprBehind hr hattrs).imp fun _ _ _ _ h => h.ink

end RuleFormat.Parser
