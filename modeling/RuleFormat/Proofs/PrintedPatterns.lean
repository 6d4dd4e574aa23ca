import RuleFormat.Proofs.PrintedPaths

/-!
# Patterns are copied

The rules for patterns copy what they take from stable tokens: there are no three dots in a range, and
the numbers of fields are written in the digits that they are printed in.
-/

namespace RuleFormat.Parser

variable {β : Type} {r : Nested} {pre : Text} {ts us : Tokens}

theorem after_otherPattern {p : Parser Tokens} (hp : Copies id p) :
    After [] (PatternFits us) (otherPattern p) ts :=
  .copy hp fun _ _ _ => .pure ⟨rfl, by simp⟩

/-! ## Ranges -/

theorem copies_rangeEnd (hr : CopiesNested r) : Copies id (rangeEnd r) := by
  refine fun ts => .branch (fun _ => copies_literal ts) fun _ => .branch (fun _ => ?_) fun _ => ?_
  · exact (after_qualifiedPath hr true ts).bind fun _ _ _ _ h => .pure h.ink
  · exact .copy (copies_word _) fun _ _ _ => .copy (copies_attributedBlock hr) fun _ _ _ =>
      .pure (by simp)

/-- The dots of a range are copied, except for three dots where a range with an upper end must not
end. -/
theorem after_rangeDots (ts : Tokens) :
    After [] (fun x s rest => s = ink x.1 ∨ (x.2 = true ∧ endsRange rest = true)) rangeDots ts := by
  refine .branch (fun _ => .copy (copies_op _) fun _ _ _ => .pure (.inl rfl)) fun _ => ?_
  refine .branch (fun _ => ?_) fun _ => .copy (copies_op _) fun _ _ _ => .pure (.inl rfl)
  refine .stable fun hts => (after_op _ ts).bind ?_
  rintro _ _ rest _ ⟨rfl, rfl, j, rfl⟩
  have hdots := hts.front (f := replacesDots) (by simp [rewritten]) (by decide)
  exact .pure (.inr ⟨rfl, by simpa [replacesDots, operatorWith, startsOp] using hdots⟩)

/-- The dots and the upper end of a range. -/
theorem after_range (hr : CopiesNested r) (start : Tokens) {short long : PatternShape}
    (hshort : short ≠ .verbatim) (hlong : long ≠ .verbatim) :
    After (ink start) (PatternFits us) (do
      let (dots, closed) ← rangeDots
      if ← ahead endsRange then
        guard (!closed)
        return ⟨start ++ dots, short⟩
      return ⟨start ++ dots ++ (← rangeEnd r), long⟩) ts := by
  refine (after_rangeDots ts).bind ?_
  rintro ⟨dots, closed⟩ s mid _ (rfl | ⟨hclosed, hend⟩)
  · refine .branch (fun _ => .guard fun _ => ?_) fun _ => ?_
    · exact .pure ⟨by simp, fun h => absurd h hshort⟩
    · exact .copy (copies_rangeEnd hr) fun _ _ _ => .pure ⟨by simp, fun h => absurd h hlong⟩
  · refine .branch (fun _ => .guard fun hopen => ?_) fun hopen => ?_
    · obtain rfl : closed = true := hclosed
      cases hopen
    · rw [hend] at hopen
      cases hopen

theorem after_rangeFrom (hr : CopiesNested r) (start : Tokens) :
    After (ink start) (PatternFits us) (rangeFrom r start) ts :=
  after_range hr start (by simp) (by simp)

theorem after_rangeTo (hr : CopiesNested r) : After [] (PatternFits us) (rangeTo r) ts :=
  .ahead (.guard fun _ => after_range hr [] (by simp) (by simp))

theorem after_literalPattern (hr : CopiesNested r) :
    After [] (PatternFits us) (literalPattern r) ts :=
  .copy (copies_rangeEnd hr) fun start _ _ => .branch (fun _ => after_rangeFrom hr start) fun _ =>
    .pure ⟨rfl, by simp⟩

/-! ## Sub-patterns -/

theorem copies_alternatives (hr : CopiesNested r) : Copies (·.tokens) (alternatives r) := by
  have hmore : Copies id (do
      let bar ← op "|"
      return bar ++ (← r.pattern).tokens) := fun ts =>
    .copy (copies_op _) fun _ _ _ => .copy hr.patternTokens fun _ _ _ => .pure (by simp)
  refine fun ts => .copy (copies_optionalOp _) fun lead _ _ => .copy hr.patternTokens fun first _ _ => ?_
  refine .copy (copies_repeat hmore) fun more _ _ => .ite (fun hnone => ?_) fun _ => .pure (by simp)
  obtain ⟨rfl, rfl⟩ : lead = [] ∧ more = [] := by simpa using hnone
  exact .pure (by simp)

theorem copies_patternList (hr : CopiesNested r) : Copies id (patternList r) :=
  copies_commaList fun _ => .copy (copies_alternatives hr) fun _ _ _ => .pure rfl

theorem copies_sliceContent (hr : CopiesNested r) : Copies id (sliceContent r) := by
  refine copies_commaList fun ts => .copy (copies_alternatives hr) fun p _ _ => ?_
  cases p.shape with
  | openRange => exact .failure
  | _ => exact .pure rfl

theorem fieldNumber_eq_some {out rest : Tokens} (h : fieldNumber ts = some (out, rest)) :
    ∃ t n, ts = .literal t :: rest ∧ fieldNumber? t = some n ∧ out = [.literal (decimal n)] := by
  unfold fieldNumber at h
  split at h
  · obtain ⟨n, hn, heq⟩ := Option.map_eq_some_iff.1 h
    obtain ⟨rfl, rfl⟩ := Prod.mk.inj heq
    exact ⟨_, n, rfl, hn, rfl⟩
  · cases h

/-- The number of a field is copied when it is not written in other digits. -/
theorem after_fieldNumber (ts : Tokens) :
    After [] (fun out s rest => ∃ t, ts = .literal t :: rest ∧ (isRespelled t = false → s = ink out))
      fieldNumber ts := by
  refine .one fun out rest h => ?_
  obtain ⟨t, n, rfl, hn, rfl⟩ := fieldNumber_eq_some h
  refine ⟨.literal t, rfl, t, rfl, fun hspelled => ?_⟩
  rw [isRespelled, hn] at hspelled
  obtain rfl : decimal n = t := by simpa using hspelled
  rfl

/-- The number of a field and the colon behind it. -/
theorem After.fieldColon {S : β → Text → Tokens → Prop} {k : Tokens → Tokens → Parser β}
    (hk : ∀ name colon mid, mid <:+ ts → After (pre ++ ink name ++ ink colon) S (k name colon) mid) :
    After pre S (do
      let name ← fieldNumber
      let colon ← op ":"
      k name colon) ts := by
  refine .stable fun hts => (after_fieldNumber ts).bind ?_
  rintro name s mid hmid ⟨t, rfl, hink⟩
  refine (after_op _ mid).bind ?_
  rintro _ _ rest hrest ⟨rfl, rfl, j, rfl⟩
  have hspelled : isRespelled t = false :=
    hts.front (f := renumbersField) (by simp [rewritten]) (by decide)
  rw [hink hspelled]
  exact hk name _ rest (hrest.trans hmid)

theorem copies_fieldPattern (hr : CopiesNested r) : Copies id (fieldPattern r) := by
  refine fun ts => .branch (fun _ => ?_) fun _ => ?_
  · refine (After.verbatim (R := fun _ _ _ => True) ?_).imp fun _ _ _ _ h => h.1
    refine .copy (copies_word _) fun _ _ _ => .copy (copies_optionalWord _) fun _ _ _ => ?_
    refine .copy (copies_optionalWord _) fun _ _ _ => .copy copies_ident fun _ _ _ => .pure trivial
  · refine .copy (copies_optionalWord _) fun ref _ _ => .copy (copies_optionalWord _) fun mutable _ _ => ?_
    refine .ahead (.ite (fun hmarks => ?_) fun _ => .copy copies_ident fun name _ _ => ?_)
    · obtain ⟨rfl, rfl⟩ : ref = [] ∧ mutable = [] := by simp_all
      refine .fieldColon fun _ _ _ _ => .copy (copies_alternatives hr) fun _ _ _ => .pure (by simp)
    · refine .ahead (.ite (fun hmarks => ?_) fun _ => .pure (by simp))
      obtain ⟨rfl, rfl⟩ : ref = [] ∧ mutable = [] := by simp_all
      refine .copy (copies_op _) fun _ _ _ => .copy (copies_alternatives hr) fun _ _ _ => .pure (by simp)

theorem copies_structContent (hr : CopiesNested r) : Copies id (structContent r) := by
  have hone : Copies id (do
      let attrs ← attributes r
      if ← ahead (startsOp "..") then
        let dots ← op ".."
        guard (← ahead List.isEmpty)
        return attrs ++ dots
      let field ← separated List.isEmpty (fieldPattern r)
      return attrs ++ field) := by
    refine fun ts => .copy (copies_attributes hr) fun _ _ _ => .branch (fun _ => ?_) fun _ => ?_
    · exact .copy (copies_op _) fun _ _ _ => .ahead (.guard fun _ => .pure (by simp))
    · exact .copy (copies_separated (copies_fieldPattern hr)) fun _ _ _ => .pure (by simp)
  exact fun ts => .copy (copies_repeat hone) fun _ _ _ => .pure rfl

/-! ## All patterns -/

theorem after_pathPattern (hr : CopiesNested r) : After [] (PatternFits us) (pathPattern r) ts := by
  refine (after_qualifiedPath hr true ts).bind ?_
  rintro ⟨p, qualified⟩ _ mid _ ⟨rfl, -, -, -⟩
  refine .ahead (.ite (fun _ => ?_) fun _ => .branch (fun _ => ?_) fun _ => .branch (fun _ => ?_) fun _ => ?_)
  · exact .copy copies_macroCall fun _ _ _ => .pure ⟨by simp, by simp⟩
  · exact .copy (copies_group (copies_structContent hr)) fun _ _ _ => .pure ⟨by simp, by simp⟩
  · exact .copy (copies_group (copies_patternList hr)) fun _ _ _ => .pure ⟨by simp, by simp⟩
  · exact .branch (fun _ => after_rangeFrom hr p.tokens) fun _ => .pure ⟨by simp, by simp⟩

theorem after_bindingPattern (hr : CopiesNested r) : After [] (PatternFits us) (bindingPattern r) ts := by
  have hsub : Copies id (optional (startsOp "@") do
      let mark ← op "@"
      return mark ++ (← r.pattern).tokens) := copies_optional fun ts =>
    .copy (copies_op _) fun _ _ _ => .copy hr.patternTokens fun _ _ _ => .pure (by simp)
  refine .copy (copies_optionalWord _) fun _ _ _ => .copy (copies_optionalWord _) fun _ _ _ => ?_
  refine .ahead (.guard fun _ => .copy copies_anyWord fun _ _ _ => .copy hsub fun _ _ _ => ?_)
  exact .pure ⟨by simp, by simp⟩

theorem copies_referencePattern (hr : CopiesNested r) : Copies id (referencePattern r) :=
  fun ts => .copy (copies_op _) fun _ _ _ => .copy (copies_optionalWord _) fun _ _ _ =>
    .copy hr.patternTokens fun _ _ _ => .pure (by simp)

theorem after_boxPattern (hr : CopiesNested r) (hts : startsWord "box" ts = true) :
    After [] (PatternFits ts) (boxPattern r) ts := by
  refine .bind (R := fun out s _ => s = ink out) ?_ fun _ _ _ _ h => .pure ⟨h, fun _ => hts⟩
  refine (After.verbatim (R := fun _ _ _ => True) ?_).imp fun _ _ _ _ h => h.1
  exact .copy (copies_word _) fun _ _ _ => .copy hr.patternTokens fun _ _ _ => .pure trivial

theorem after_pattern (hr : CopiesNested r) (ts : Tokens) :
    After [] (PatternFits ts) (pattern r) ts := by
  refine .branch (fun _ => after_pathPattern hr) fun _ => ?_
  refine .branch (fun _ => after_otherPattern copies_anyWord) fun _ => ?_
  refine .branch (fun hbox => after_boxPattern hr hbox) fun _ => ?_
  refine .branch (fun _ => after_literalPattern hr) fun _ => ?_
  refine .branch (fun _ => after_bindingPattern hr) fun _ => ?_
  refine .branch (fun _ => after_otherPattern (copies_referencePattern hr)) fun _ => ?_
  refine .branch (fun _ => after_otherPattern (copies_group (copies_patternList hr))) fun _ => ?_
  refine .branch (fun _ => after_otherPattern (copies_group (copies_sliceContent hr))) fun _ => ?_
  exact .branch (fun _ => after_rangeTo hr) fun _ => .failure

end RuleFormat.Parser
