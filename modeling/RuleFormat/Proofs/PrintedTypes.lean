import RuleFormat.Proofs.PrintedPaths

/-!
# Types are copied

The rules for types copy what they take from stable tokens.  A type that ends with a path without
arguments is known to stand in front of no angle bracket that the path could have taken, unless
`isBareType` says how it got there (`TypeFits.bare`).
-/

namespace RuleFormat.Parser

variable {r : Nested} {sum : Bool} {ts : Tokens}

theorem after_otherType {p : Parser Tokens} (hp : Copies id p) (sum : Bool) (ts : Tokens) :
    After [] (TypeFits sum ts) (otherType p) ts :=
  .copy hp fun _ _ _ => .pure ⟨rfl, by simp, by simp⟩

/-! ## Function pointers -/

theorem copies_callConvention : Copies id callConvention := by
  refine copies_optional fun ts => .copy (copies_word _) fun _ _ _ => ?_
  exact .copy (copies_optional copies_literal) fun _ _ _ => .pure (by simp)

theorem copies_pointerArgument (hr : CopiesNested r) (first : Bool) :
    Copies id (pointerArgument r first) := by
  have hname : Copies id (optional (startsNamed first) do return (← anyWord) ++ (← op ":")) :=
    copies_optional fun ts => .copy copies_anyWord fun _ _ _ =>
      .copy (copies_op _) fun _ _ _ => .pure (by simp)
  have hrest : ∀ (isMutable : Bool) (head ts : Tokens),
      After (ink head) (fun a s _ => a.2 = false → s = ink a.1) (do
        let isSelf ← ahead (startsWord "self")
        let name ← optional (startsNamed first) do return (← anyWord) ++ (← op ":")
        if first && (name.isEmpty || !isSelf) && (← ahead startsMutSelf) then
          return (head ++ name ++ (← word "mut") ++ (← word "self"), true)
        else if isMutable && name.isEmpty then
          return (head ++ (← word "self"), true)
        else
          return (head ++ name ++ (← r.typeTokens), isMutable)) ts := by
    intro isMutable head ts
    refine .ahead (.copy hname fun name mid _ => .ahead (.ite (fun _ => ?_) fun _ => ?_))
    · refine .copy (copies_word _) fun _ _ _ => .copy (copies_word _) fun _ _ _ => ?_
      exact .pure (by simp)
    · refine .ite (fun _ => .copy (copies_word _) fun _ _ _ => .pure (by simp)) fun _ => ?_
      exact .copy hr.typeTokens fun _ _ _ => .pure fun _ => by simp
  refine copies_verbatimIf fun ts => .ahead (.ite (fun _ => ?_) fun _ => ?_)
  · exact .copy (copies_word _) fun head mid _ => hrest _ head mid
  · exact .pureBind (hrest _ [] ts)

theorem copies_variadic : Copies id variadic := by
  have hname : Copies id (optional startsAnyWord do return (← anyWord) ++ (← op ":")) :=
    copies_optional fun ts => .copy copies_anyWord fun _ _ _ =>
      .copy (copies_op _) fun _ _ _ => .pure (by simp)
  refine fun ts => .copy hname fun _ _ _ => .copy (copies_op _) fun _ _ _ => ?_
  exact .copy (copies_optionalOp _) fun _ _ _ => .ahead (.guard fun _ => .pure (by simp))

theorem copies_pointerItem (hr : CopiesNested r) (first : Bool) : Copies id (pointerItem r first) := by
  refine fun ts => .copy (copies_attributes hr) fun _ _ _ => .branch (fun _ => ?_) fun _ => ?_
  · exact .copy copies_variadic fun _ _ _ => .pure (by simp)
  · exact .copy (copies_separated (copies_pointerArgument hr first)) fun _ _ _ => .pure (by simp)

theorem copies_pointerArguments (hr : CopiesNested r) : Copies id (pointerArguments r) := by
  refine fun ts => .branch (fun _ => .pure rfl) fun _ => .copy (copies_pointerItem hr true) ?_
  exact fun _ _ _ => .copy (copies_repeat (copies_pointerItem hr false)) fun _ _ _ => .pure (by simp)

theorem after_functionPointer (hr : CopiesNested r) (sum : Bool) (ts : Tokens) :
    After [] (fun t s rest => TypeFits sum ts t s rest ∧ t.shape = .other) (functionPointer r) ts := by
  refine .copy (copies_optionalWord _) fun _ m hm => .copy copies_callConvention fun _ m₁ hm₁ => ?_
  refine .copy (copies_word _) fun _ m₂ hm₂ => .copy (copies_group (copies_pointerArguments hr)) ?_
  refine fun _ m₃ hm₃ => (after_returnType hr m₃).bind ?_
  rintro ⟨output, endsBare⟩ _ rest _ ⟨rfl, hbare⟩
  refine .pure ⟨⟨by simp, by simp, fun _ h hopen => (hbare h hopen).mono ?_⟩, rfl⟩
  exact hm₃.trans (hm₂.trans (hm₁.trans hm))

/-! ## Types in parentheses -/

theorem after_requiredBounds (hr : CopiesNested r) {first : BoundForm} (hfirst : first.isTrait = true)
    (ts : Tokens) :
    After (ink first.tokens) (SumFits first ts) (requiredBounds r first) ts := by
  refine (after_rounds fun ts _ => after_plusBound hr plainPlace ts).bind fun more s rest _ hmore => ?_
  refine .pure ⟨ink_sum hmore, fun _ => .inl hfirst, fun hbare hopen => ?_, fun halone => ?_⟩
  · obtain ⟨-, rfl, h⟩ | ⟨htest, hsum⟩ := bare_sum hmore hbare
    · exact .inl ⟨rfl, h⟩
    · exact .inr ⟨htest, hsum hopen⟩
  · obtain ⟨rfl, rfl⟩ | ⟨htest, -⟩ := hmore.last
    · simp
    · rw [halone] at htest
      cases htest

/-- What is known of the content of parentheses. -/
def RoundFits (inner : Tokens) (form : RoundForm) (s : Text) (rest : Tokens) : Prop :=
  match form with
  | .unit => s = []
  | .sum out => s = ink out
  | .maybe b => s = ink b.tokens ∧ startsOp "?" inner = true
  | .tuple out => s = ink out
  | .single t => TypeFits true inner t s rest

theorem after_roundContent (hr : CopiesNested r) (inner : Tokens) :
    After [] (RoundFits inner) (roundContent r) inner := by
  refine .branch (fun _ => .pure rfl) fun _ => .branch (fun _ => ?_) fun _ => ?_
  · exact (after_bounds hr true plainPlace inner).bind fun _ _ _ _ h => .pure h.ink
  refine .branch (fun hmaybe => ?_) fun _ => (hr.type true inner).bind fun first s mid hmid h => ?_
  · exact (after_traitBound hr plainPlace inner).bind fun _ _ _ _ h => .pure ⟨h.ink, hmaybe⟩
  refine .branch (fun _ => ?_) fun _ => .pure h
  refine .copy (copies_op _) fun _ _ _ => .copy (copies_commaList hr.typeTokens) fun _ _ _ => .pure ?_
  simp [RoundFits, h.ink]

/-- A sum of bounds that begins with a bound which may be missing. -/
theorem after_maybeSum (hr : CopiesNested r) {inner rest : Tokens} {b : TraitForm} (sum : Bool)
    (hink : ink inner = ink b.tokens) (hmaybe : startsOp "?" inner = true) :
    After (ink [.group .round inner]) (TypeFits sum (.group .round inner :: rest)) (do
      let isAlone ← ahead fun ts => !startsOp "+" ts
      let all ← requiredBounds r ⟨[.group .round b.tokens], true, b.endsBare⟩
      return ⟨all.tokens, if isAlone then .bound b.tokens else .other, all.endsBare⟩) rest := by
  have hstart : startsMaybe (.group .round inner :: rest) = true := hmaybe
  have hsuffix : rest <:+ .group .round inner :: rest := List.suffix_cons ..
  have hpre : ink [.group .round inner] = ink [.group .round b.tokens] := by
    rw [ink_group, ink_group, hink]
  rw [hpre]
  refine .ahead ((after_requiredBounds hr rfl rest).seq fun all s rest' _ hall => .pure ?_)
  refine ⟨hall.ink, fun out hout => .inr ⟨inner, ?_, hstart⟩, fun _ hbare hopen => ?_⟩
  · cases halone : startsOp "+" rest with
    | true =>
      rw [halone] at hout
      cases hout
    | false => rw [(hall.alone halone).2]
  · obtain ⟨rfl, -⟩ | ⟨hplus, hends | hhas⟩ := hall.bare hbare hopen
    · exact .here (by simp [isBareType, hstart, hopen])
    · have hsum : startsSum (.group .round inner :: rest) = true := by
        rw [startsSum, hstart, Bool.or_true, Bool.true_and]
        exact hplus
      exact .here (isBareType_of_sum hsum hends)
    · exact hhas.mono hsuffix

/-- A sum of bounds that begins with one in parentheses. -/
theorem after_sumFrom (hr : CopiesNested r) {inner rest out ts' : Tokens} (hink : ink inner = ink out) :
    After (ink [.group .round inner]) (TypeFits true ts') (do
      let all ← requiredBounds r ⟨[.group .round out], true, false⟩
      return ⟨all.tokens, .other, all.endsBare⟩) rest := by
  rw [ink_group, hink, ← ink_group]
  exact (after_requiredBounds hr rfl rest).seq fun _ _ _ _ h => .pure ⟨h.ink, by simp, by simp⟩

theorem after_roundType (hr : CopiesNested r) (sum : Bool) (ts : Tokens) :
    After [] (TypeFits sum ts) (roundType r sum) ts := by
  intro hts t rest' h
  unfold roundType at h
  split at h
  · rename_i inner rest
    split at h
    · rename_i form hform
      obtain ⟨taken, htaken, hfits⟩ := after_roundContent hr inner hts.group _ _ hform
      rw [List.append_nil] at htaken
      subst htaken
      -- behind the group nothing is taken, or bounds are
      have hgroup : ∀ {p : Parser TypeForm},
          After (ink [.group .round inner]) (TypeFits sum (.group .round inner :: rest)) p rest →
          p rest = some (t, rest') → ∃ taken, .group .round inner :: rest = taken ++ rest' ∧
            TypeFits sum (.group .round inner :: rest) t ([] ++ ink taken) rest' := by
        intro p hp heq
        obtain ⟨taken, rfl, hR⟩ := hp hts.tail _ _ heq
        exact ⟨.group .round inner :: taken, rfl, by simpa using hR⟩
      have henclosed : ∀ out, ink inner = ink out → TypeFits sum (.group .round inner :: rest)
          ⟨[.group .round out], .other, false⟩ (ink [.group .round inner]) rest := by
        intro out hout
        exact ⟨by rw [ink_group, ink_group, hout], by simp, by simp⟩
      dsimp only at h
      split at h
      · exact hgroup (.pure (henclosed [] hfits)) h
      · exact hgroup (.pure (henclosed _ hfits)) h
      · exact hgroup (.pure (henclosed _ hfits)) h
      · exact hgroup (after_maybeSum hr sum hfits.1 hfits.2) h
      · rename_i first
        have hfits : TypeFits true inner first (ink inner) [] := hfits
        refine hgroup (.ahead (.ite (fun hplus => ?_) fun _ => .pure (henclosed _ hfits.ink))) h
        obtain ⟨rfl, hnext⟩ := Bool.and_eq_true_iff.1 hplus
        cases hshape : first.shape with
        | name => exact after_sumFrom hr hfits.ink
        | path => exact after_sumFrom hr hfits.ink
        | bound out =>
          refine after_sumFrom hr ?_
          obtain hout | ⟨inside, rfl, hmaybe⟩ := hfits.bound out hshape
          · exact hfits.ink.trans hout.symm
          · have hdrops := hts.front (f := dropsParentheses) (by simp [rewritten]) (by decide)
            rw [dropsParentheses, hmaybe, hnext] at hdrops
            cases hdrops
        | other => exact .pure (henclosed _ hfits.ink)
    · cases h
  · cases h

/-! ## Types that begin with a path -/

/-- A mark of a macro is no part of a path. -/
theorem dropWhile_macroMark (h : startsMacroMark ts = true) : ts.dropWhile isPathToken = ts := by
  unfold startsMacroMark at h
  obtain ⟨j, hj⟩ := exists_operatorWith (Bool.and_eq_true_iff.1 h).1
  rw [hj]
  rfl

/-- What is known of a type that begins with a path, read from `ts`. -/
structure PathTypeFits (sum : Bool) (ts : Tokens) (t : TypeForm) (s : Text) (rest : Tokens) : Prop where
  ink : s = ink t.tokens
  bound : ∀ out, t.shape = .bound out → RuleFormat.ink out = RuleFormat.ink t.tokens
  bare : sum = false → t.endsBare = true → opensArguments rest = true → Has isBareType ts

theorem PathTypeFits.typeFits {place rest : Tokens} {t : TypeForm} {s : Text}
    (h : PathTypeFits sum place t s rest) (hplace : place <:+ ts) : TypeFits sum ts t s rest where
  ink := h.ink
  bound := fun out hout => .inl (h.bound out hout)
  bare := fun hsum hbare hopen => (h.bare hsum hbare hopen).mono hplace

/-- Names in front of a type are written, as it is neither qualified nor a macro. -/
theorem after_pathType (hr : CopiesNested r) (sum : Bool) {names : Tokens} (ts : Tokens)
    (hnames : names = [] ∨
      (startsOp "<" ts = false ∧ startsMacroMark (ts.dropWhile isPathToken) = false)) :
    After (ink names) (PathTypeFits sum ts) (pathType r sum names) ts := by
  refine (after_qualifiedPath hr false ts).bind ?_
  rintro ⟨p, qualified⟩ s mid hmid hp
  refine .ite (fun hqualified => ?_) fun hqualified => .ahead (.ite (fun hmacro => ?_) fun _ => ?_)
  · obtain rfl | ⟨hlt, -⟩ := hnames
    · exact .pure ⟨by simp [hp.ink], by simp, fun _ => hp.bare rfl⟩
    · rw [hp.qualified hqualified] at hlt
      cases hlt
  all_goals
    have hpath := hp.path (by simpa using hqualified)
  · obtain ⟨hplain, hmark⟩ := Bool.and_eq_true_iff.1 hmacro
    obtain rfl | ⟨-, hnone⟩ := hnames
    · exact .copy copies_macroCall fun _ _ _ => .pure ⟨by simp [hp.ink], by simp, by simp⟩
    · rw [hpath.plain hplain, dropWhile_macroMark hmark, hmark] at hnone
      cases hnone
  · refine .ahead (.ite (fun _ => .ahead (.ite (fun hsum => ?_) fun hsum => ?_)) fun hnone => ?_)
    -- bounds may follow the path, and the names stand in front of the first of them
    · have hpre : ink names ++ s = ink (names ++ p.tokens) := by rw [ink_append, hp.ink]
      rw [hpre]
      refine (after_boundsFrom hr plainPlace ⟨names ++ p.tokens, true, p.endsBare⟩ mid).seq ?_
      refine fun all s' rest _ hall => .pure ⟨hall.ink, fun out hout => ?_, by simp [hsum]⟩
      cases halone : startsOp "+" mid with
      | true =>
        rw [halone, hsum] at hout
        cases hout
      | false =>
        rw [halone, hsum] at hout
        cases hout
        rw [(hall.alone halone).1]
    · refine .pure ⟨by simp [hp.ink], fun out hout => ?_, fun _ => hp.bare rfl⟩
      rw [Bool.not_eq_true] at hsum
      rw [hsum] at hout
      cases hout
      rfl
    · obtain rfl : names = [] := by
        by_contra h
        simp [h] at hnone
      refine .pure ⟨by simp [hp.ink], fun out hout => ?_, fun _ => hp.bare rfl⟩
      split at hout <;> cases hout

/-! ## All types -/

theorem copies_squareContent (hr : CopiesNested r) : Copies id (squareContent r) := by
  refine fun ts => .copy hr.typeTokens fun _ _ _ => .branch (fun _ => ?_) fun _ => .pure rfl
  exact .copy (copies_op _) fun _ _ _ => .copy hr.exprTokens fun _ _ _ => .pure (by simp)

theorem after_pointerType (hr : CopiesNested r) (sum : Bool) (ts : Tokens) :
    After [] (TypeFits sum ts) (pointerType r) ts := by
  have htarget : ∀ (front mid : Tokens), mid <:+ ts → After (ink front) (TypeFits sum ts) (do
      let target ← r.type false
      return ⟨front ++ target.tokens, .other, target.endsBare⟩) mid := by
    intro front mid hmid
    refine (hr.type false mid).bind fun target s rest _ h => .pure ⟨by simp [h.ink], by simp, ?_⟩
    exact fun _ hbare hopen => (h.bare rfl hbare hopen).mono hmid
  refine .copy (copies_op _) fun star m hm => .branch (fun _ => ?_) fun _ => ?_
  all_goals
    refine .copy (copies_word _) fun kind m' hm' => ?_
    simpa using htarget (star ++ kind) m' (hm'.trans hm)

theorem after_referenceType (hr : CopiesNested r) (sum : Bool) (ts : Tokens) :
    After [] (TypeFits sum ts) (referenceType r) ts := by
  refine .copy (copies_op _) fun _ m hm => .copy (copies_optional copies_lifetime) fun _ m₁ hm₁ => ?_
  refine .copy (copies_optionalWord _) fun _ m₂ hm₂ => (hr.type false m₂).bind fun t s rest _ h => ?_
  refine .pure ⟨by simp [h.ink], by simp, fun _ hbare hopen => (h.bare rfl hbare hopen).mono ?_⟩
  exact hm₂.trans (hm₁.trans hm)

/-- Bounds behind `dyn` or `impl`. -/
theorem after_boundsType (hr : CopiesNested r) (sum : Bool) (place : BoundPlace) {w : Text}
    (hw : List.contains ["dyn".toList, "impl".toList] w = true) (ts : Tokens) :
    After [] (TypeFits sum ts) (do
      let head ← word w
      let all ← bounds r sum place
      return ⟨head ++ all.tokens, .other, all.endsBare⟩) ts := by
  refine (after_word w ts).bind ?_
  rintro _ _ mid hmid ⟨rfl, rfl, rfl⟩
  refine (after_bounds hr sum place mid).bind fun all s rest _ h => .pure ⟨by simp [h.ink], by simp, ?_⟩
  intro hsum hbare hopen
  obtain ⟨inner, rfl⟩ | hhas := h.bare hsum hbare hopen
  · exact .here (isBareType_of_bound hw hopen)
  · exact hhas.mono hmid

theorem after_dynType (hr : CopiesNested r) (sum : Bool) (ts : Tokens) :
    After [] (TypeFits sum ts) (dynType r sum) ts := by
  refine .branch (fun _ => ?_) fun _ => after_boundsType hr sum plainPlace (by decide) ts
  have hsource : ∀ ts, After [] (fun (_ : BoundForm) _ _ => True) (do
      let _ ← word "dyn"
      let _ ← op "*"
      bounds r sum plainPlace) ts := fun ts =>
    .copy (copies_word _) fun _ _ _ => .copy (copies_op _) fun _ mid _ =>
      (after_bounds hr sum plainPlace mid).reads
  exact after_otherType (fun ts => (hsource ts).verbatim.imp fun _ _ _ _ h => h.1) sum ts

theorem after_implType (hr : CopiesNested r) (sum : Bool) (ts : Tokens) :
    After [] (TypeFits sum ts) (implType r sum) ts :=
  after_boundsType hr sum ⟨true, true⟩ (by decide) ts

theorem after_lifetimeSum (hr : CopiesNested r) (sum : Bool) (hts : startsLifetime ts = true) :
    After [] (TypeFits sum ts) (lifetimeSum r) ts :=
  (after_bounds hr true plainPlace ts).bind fun _ _ _ _ h =>
    .pure ⟨h.ink, by simp, fun _ => h.sum hts⟩

/-- Names that a `for` introduces do not stand in front of a macro. -/
theorem not_macro_of_names (hts : Stable ts) {j j' : Bool} {inside rest : Tokens}
    (heq : ts = .word "for" :: .punct '<' j :: (inside ++ .punct '>' j' :: rest))
    (hinside : Paired true inside) : startsMacroMark (rest.dropWhile isPathToken) = false := by
  subst heq
  have hdrops := hts.front (f := dropsNames) (by simp [rewritten]) (by decide)
  have hbehind : behindAngles (inside ++ .punct '>' j' :: rest) = rest := behindAngles_close hinside
  have hlt : startsOp "<" (.punct '<' j :: (inside ++ .punct '>' j' :: rest)) = true := rfl
  simpa only [dropsNames, startsWord, List.drop, hlt, hbehind, BEq.rfl, Bool.true_and] using hdrops

theorem after_boundType (hr : CopiesNested r) (sum : Bool) (ts : Tokens) :
    After [] (TypeFits sum ts) (boundType r sum) ts := by
  refine .stable fun hts => (after_binders hr ts).bind ?_
  rintro names _ mid hmid ⟨rfl, hnames⟩
  refine .ahead (.guard fun hword => .branch (fun _ => ?_) fun _ => ?_)
  · refine (after_functionPointer hr sum mid).bind fun t s rest _ h => .pure ⟨by simp [h.1.ink], ?_, ?_⟩
    · simp [h.2]
    · exact fun hsum hbare hopen => (h.1.bare hsum hbare hopen).mono hmid
  · have hlt : startsOp "<" mid = false := by
      cases mid with
      | nil => rfl
      | cons t mid =>
        cases t with
        | word => rfl
        | _ => simp [startsPathWord, startsIdent, startsOneOf] at hword
    refine (after_pathType hr sum mid ?_).imp fun _ _ _ _ h => h.typeFits hmid
    obtain ⟨rfl, -⟩ | ⟨j, j', inside, heq, hinside⟩ := hnames
    · exact .inl rfl
    · exact .inr ⟨hlt, not_macro_of_names hts heq hinside⟩

theorem after_type (hr : CopiesNested r) (sum : Bool) (ts : Tokens) :
    After [] (TypeFits sum ts) (type r sum) ts := by
  have hself := List.suffix_refl ts
  refine .branch (fun _ => after_boundType hr sum ts) fun _ => ?_
  refine .branch (fun _ => after_roundType hr sum ts) fun _ => ?_
  refine .branch (fun _ => (after_functionPointer hr sum ts).imp fun _ _ _ _ h => h.1) fun _ => ?_
  refine .branch (fun _ => ?_) fun _ => .branch (fun _ => after_dynType hr sum ts) fun _ => ?_
  · exact (after_pathType hr sum ts (.inl rfl)).imp fun _ _ _ _ h => h.typeFits hself
  refine .branch (fun _ => after_otherType (copies_group (copies_squareContent hr)) sum ts) fun _ => ?_
  refine .branch (fun _ => after_pointerType hr sum ts) fun _ => ?_
  refine .branch (fun _ => after_referenceType hr sum ts) fun _ => ?_
  refine .branch (fun _ => after_otherType (copies_op _) sum ts) fun _ => ?_
  refine .branch (fun _ => after_implType hr sum ts) fun _ => ?_
  refine .branch (fun _ => after_otherType copies_anyWord sum ts) fun _ => ?_
  exact .branch (fun hlife => after_lifetimeSum hr sum hlife) fun _ => .failure

end RuleFormat.Parser
