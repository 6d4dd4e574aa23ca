import RuleFormat.Proofs.PrintedExpressions
import RuleFormat.Proofs.PrintedTypes

/-!
# Statements are copied, and so is everything

The rules for statements copy what they take from stable tokens.  Where a statement may begin, stable
tokens have no item, so that a block holds variables, expressions and macros only.

With this, all rules copy at each level of nesting (`copiesNested`).
-/

namespace RuleFormat.Parser

variable {r : Nested} {ts : Tokens}

/-- What is known of a statement that was read from `ts`: no item begins where it ends. -/
structure StatementFits (out : Tokens) (s : Text) (rest : Tokens) : Prop where
  ink : s = ink out
  next : rest = [] ∨ declares rest = false

theorem after_semicolon (ts : Tokens) : After [] StatementFits (op ";") ts := by
  refine .stable fun hts => (after_op _ ts).imp ?_
  rintro _ _ rest _ ⟨rfl, rfl, j, rfl⟩
  exact ⟨rfl, .inr (declares_of_suffix hts (List.suffix_refl _) rfl)⟩

/-- A semicolon at the end. -/
theorem After.semicolon {pre : Text} {front : Tokens} (hpre : pre = ink front) :
    After pre StatementFits (do return front ++ (← op ";")) ts :=
  (after_semicolon ts).bind fun _ _ _ _ h => .pure ⟨by rw [hpre, h.ink, ink_append], h.next⟩

/-- The macro of a statement has braces. -/
theorem startsGroup_of_macroAhead {path rest : Tokens} (h : macroAhead ts = .statement)
    (hpath : plainPath ts = some (path, rest)) : startsGroup .curly (rest.drop 1) = true := by
  unfold macroAhead at h
  rw [hpath] at h
  dsimp only at h
  split at h
  · cases h
  · split at h
    · cases h
    · split at h
      · rename_i hbraces
        exact (Bool.and_eq_true_iff.1 hbraces).1
      · cases h

theorem after_macroStatement (h : macroAhead ts = .statement) :
    After [] StatementFits macroStatement ts := by
  refine .stable fun hts => ((copies_plainPath ts).also fun _ _ => startsGroup_of_macroAhead h).bind ?_
  rintro path _ mid hmid ⟨rfl, hbraces⟩
  refine (after_macroCall mid).bind ?_
  rintro _ _ m hm ⟨rfl, j, d, inner, rfl⟩
  refine (after_optionalOp _ m).bind ?_
  rintro semi _ rest _ ⟨rfl, hsemi⟩
  refine .pure ⟨by simp, .inr ?_⟩
  obtain ⟨-, rfl, -⟩ | ⟨-, j, rfl⟩ := hsemi
  · obtain rfl : .curly = d := beq_iff_eq.1 hbraces
    exact declares_of_suffix hts ((List.suffix_cons ..).trans hmid) rfl
  · exact declares_of_suffix hts (hm.trans hmid) rfl

theorem after_letStatement (hr : CopiesNested r) (ts : Tokens) :
    After [] StatementFits (letStatement r) ts := by
  have htype : Copies id (optional (startsOp ":") do return (← op ":") ++ (← r.typeTokens)) :=
    copies_optional fun _ => .copy (copies_op _) fun _ _ _ =>
      .copy hr.typeTokens fun _ _ _ => .pure (by simp)
  have hother : ∀ test, Copies id (optional test do return (← word "else") ++ (← r.block)) :=
    fun test => copies_optional fun _ => .copy (copies_word _) fun _ _ _ =>
      .copy hr.copies_block fun _ _ _ => .pure (by simp)
  have hvalue : Copies id (optional (startsOp "=") do
      let eq ← op "="
      let value ← r.exprTokens
      let other ← optional (fun ts => startsWord "else" ts && !endsWithBraces value) do
        return (← word "else") ++ (← r.block)
      return eq ++ value ++ other) :=
    copies_optional fun _ => .copy (copies_op _) fun _ _ _ => .copy hr.exprTokens fun _ _ _ =>
      .copy (hother _) fun _ _ _ => .pure (by simp)
  refine .copy (copies_word _) fun _ _ _ => .copy hr.patternTokens fun _ _ _ => ?_
  refine .copy htype fun _ _ _ => .copy hvalue fun _ _ _ => .semicolon (by simp)

theorem after_statementExpr (hr : CopiesNested r) {attrs : Tokens} (hattrs : AttributesFit attrs ts) :
    After (ink attrs) (ExprFits ts) (statementExpr r attrs) ts := by
  intro hts e rest h
  unfold statementExpr at h
  split at h
  · rename_i e' rest' he'
    obtain ⟨taken, heq, hfits⟩ := after_leadingExprBehind hr hattrs hts _ _ he'
    split at h
    · rename_i hrange
      have hnone := hattrs.range (hfits.range hrange.1)
      simp [hnone] at hrange
    · cases h
      exact ⟨taken, heq, hfits⟩
  · cases h

theorem after_exprStatement (hr : CopiesNested r) {attrs : Tokens} (hattrs : AttributesFit attrs ts) :
    After (ink attrs) StatementFits (exprStatement r attrs) ts := by
  refine .stable fun hts => (after_statementExpr hr hattrs).seq fun e s mid hmid he => ?_
  refine .branch (fun _ => .semicolon he.ink) fun _ => .ahead (.guard fun hend => .pure ?_)
  refine ⟨he.ink, ?_⟩
  have hcases : (e.shape = .block ∨ e.shape = .braced) ∨ mid = [] := by simpa using hend
  obtain hshape | hempty := hcases
  · obtain ⟨inner, hinner⟩ := he.braces hshape
    exact .inr (declares_of_suffix hts hinner rfl)
  · exact .inl hempty

/-- No item stands behind attributes. -/
theorem declares_behind_attributes (hr : CopiesNested r) (hts : Stable ts) {attrs rest : Tokens}
    (h : attributes r ts = some (attrs, rest)) (hnone : declares ts = false) : declares rest = false := by
  obtain ⟨taken, -, -, -, ⟨-, rfl⟩ | ⟨-, j, inner, hlast⟩⟩ := after_attributes hr ts hts _ _ h
  · exact hnone
  · exact declares_of_suffix hts ((List.suffix_cons ..).trans hlast) rfl

theorem after_attributedStatement (hr : CopiesNested r) (hnone : declares ts = false) :
    After [] StatementFits (attributedStatement r) ts := by
  intro hts out rest' h
  unfold attributedStatement at h
  split at h
  · cases h
  · rename_i attrs rest hattrs
    have hnext := declares_behind_attributes hr hts hattrs hnone
    obtain ⟨taken, rfl, hink, hfit⟩ := after_attributesFit hr ts hts _ _ hattrs
    have hrest := hts.append_right
    -- what the rest of the statement takes stands behind the attributes
    have hbehind : ∀ {p : Parser Tokens}, After (ink attrs) StatementFits p rest →
        p rest = some (out, rest') →
        ∃ more, taken ++ rest = more ++ rest' ∧ StatementFits out ([] ++ ink more) rest' := by
      intro p hp heq
      obtain ⟨more, rfl, hfits⟩ := hp hrest _ _ heq
      refine ⟨taken ++ more, (List.append_assoc ..).symm, ?_⟩
      rw [ink_append, ← List.append_assoc, hink]
      exact hfits
    have hmap : ∀ {p : Parser Tokens}, After [] StatementFits p rest →
        ((p rest).map fun read => (attrs ++ read.1, read.2)) = some (out, rest') →
        ∃ more, taken ++ rest = more ++ rest' ∧ StatementFits out ([] ++ ink more) rest' := by
      intro p hp heq
      obtain ⟨⟨tokens, end'⟩, hp', hpair⟩ := Option.map_eq_some_iff.1 heq
      cases hpair
      have hread : (do return attrs ++ (← p) : Parser Tokens) rest = some (attrs ++ tokens, end') := by
        show Option.bind (p rest) _ = _
        rw [hp']
        rfl
      refine hbehind ?_ hread
      exact hp.bind fun _ _ _ _ h => .pure ⟨by simp [h.ink], h.next⟩
    rw [declares, Bool.or_eq_false_iff] at hnext
    dsimp only at h
    split at h
    · rename_i hcall
      exact hmap (after_macroStatement hcall) h
    · rename_i hcall
      simp [hcall] at hnext
    · split at h
      · exact hmap (after_letStatement hr rest) h
      · split at h
        · simp_all
        · exact hbehind (after_exprStatement hr hfit) h

theorem after_statement (hr : CopiesNested r) (hts : declares ts = false) :
    After [] StatementFits (statement r) ts :=
  .branch (fun _ => after_semicolon ts) fun _ => after_attributedStatement hr hts

theorem after_statements (hr : CopiesNested r) (hts : declares ts = false) :
    After [] (fun out s _ => s = ink out) (statements r) ts := by
  have hrounds : After [] (Rounds (fun ts => !ts.isEmpty) (fun _ => StatementFits) ts)
      (repeatWhile (fun ts => !ts.isEmpty) (statement r)) ts := by
    refine after_repeatWhile (J := fun ts => ts = [] ∨ declares ts = false) ?_ (.inr hts)
    intro ts hJ htest
    have hnone : declares ts = false := hJ.resolve_left fun h => by simp [h] at htest
    exact (after_statement hr hnone).imp fun _ _ _ _ h => ⟨h, h.next⟩
  refine hrounds.seq fun all s _ _ h => .pure ?_
  simpa using h.ink_eq (f := id) fun _ _ _ _ h => h.ink

/-! ## All levels -/

theorem copiesNested (n : Nat) : CopiesNested (nested n) := by
  induction n with
  | zero =>
    exact {
      type := fun _ _ => .failure
      arguments := fun _ _ => .failure
      bound := fun _ _ => .failure
      pattern := fun _ => .failure
      expr := fun _ _ => .failure
      operand := fun _ _ => .failure
      rightOperand := fun _ _ _ => .failure
      leadingExpr := fun _ => .failure
      statements := fun _ _ => .failure
      pairs := pairs_nested 0 }
  | succ n ih =>
    exact {
      type := after_type ih
      arguments := fun _ => after_arguments ih
      bound := after_bound ih
      pattern := after_pattern ih
      expr := after_expr ih
      operand := after_operand ih
      rightOperand := after_rightOperand ih
      leadingExpr := copies_leadingExpr ih
      statements := fun _ => after_statements ih
      pairs := pairs_nested (n + 1) }

end RuleFormat.Parser
