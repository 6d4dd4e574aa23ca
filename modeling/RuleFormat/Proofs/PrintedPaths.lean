import RuleFormat.Proofs.Printing

/-!
# Paths and bounds are copied

The rules for attributes, arguments, paths and bounds copy what they take from stable tokens.

Arguments in angle brackets are written with lifetimes first, so that they are copied when no lifetime
follows another argument (`after_argumentList`).  Of a path that ends without arguments it is known that
no angle bracket follows it that it could have taken (`PathFits.bare`), and a path that ends with empty
brackets has no parentheses behind it (`after_traitPath`).
-/

namespace RuleFormat.Parser

variable {r : Nested} {ts : Tokens}

/-! ## Attributes -/

theorem copies_plainPath : Copies id plainPath := by
  have hmore : Copies id (do
      let sep ← op "::"
      guard (← ahead startsPlainSegment)
      return sep ++ (← anyWord)) := fun ts =>
    .copy (copies_op _) fun _ _ _ => .ahead (.guard fun _ =>
      .copy copies_anyWord fun _ _ _ => .pure (by simp))
  refine fun ts => .copy (copies_optionalOp _) fun _ _ _ => .ahead (.guard fun _ => ?_)
  exact .copy copies_anyWord fun _ _ _ => .copy (copies_repeat hmore) fun _ _ _ => .pure (by simp)

theorem copies_attributeContent (hr : CopiesNested r) : Copies id (attributeContent r) := by
  have hrest : ∀ (path : Tokens) (ts : Tokens), After (ink path) (fun out s _ => s = ink (id out)) (do
      if ← ahead fun ts => startsGroup .round ts || startsGroup .square ts || startsGroup .curly ts then
        return path ++ (← anyGroup)
      if ← ahead fun ts => startsOp "=" ts && !startsOp "==" ts && !startsOp "=>" ts then
        let eq ← op "="
        guard (!(← ahead fun ts => startsOp "#" ts && startsGroup .square (ts.drop 1)))
        return path ++ eq ++ (← r.exprTokens)
      return path) ts := by
    refine fun path ts => .branch (fun _ => ?_) fun _ => .branch (fun _ => ?_) fun _ => .pure rfl
    · exact .copy copies_anyGroup fun _ _ _ => .pure (by simp)
    · refine .copy (copies_op _) fun _ _ _ => .ahead (.guard fun _ => ?_)
      exact .copy hr.exprTokens fun _ _ _ => .pure (by simp)
  refine fun ts => .branch (fun _ => ?_) fun _ => ?_
  · exact .copy copies_anyWord fun path mid _ => by simpa using hrest path mid
  · exact .copy copies_plainPath fun path mid _ => by simpa using hrest path mid

/-- Where an item could stand behind a semicolon, a block or an attribute, there is none. -/
theorem declares_of_suffix (hts : Stable ts) {t : Token} {rest : Tokens} (hs : t :: rest <:+ ts)
    (ht : (startsOp ";" [t] || startsGroup .curly [t] || startsGroup .square [t]) = true) :
    declares rest = false := by
  have hnext := (hts.of_suffix hs).front (f := declaresNext) (by simp [rewritten]) (by decide)
  have hfront : (startsOp ";" (t :: rest) || startsGroup .curly (t :: rest)
      || startsGroup .square (t :: rest)) = true := by
    cases t <;> exact ht
  unfold declaresNext at hnext
  rw [hfront] at hnext
  simpa using hnext

theorem after_innerAttributes (hr : CopiesNested r) (ts : Tokens) :
    After [] (fun out s rest => s = ink out ∧
      (rest = ts ∨ ∃ inner, .group .square inner :: rest <:+ ts)) (innerAttributes r) ts := by
  have hone : ∀ ts, After [] (fun out s rest => s = ink out ∧ ∃ inner, .group .square inner :: rest <:+ ts)
      (do
        let pound ← op "#"
        let mark ← op "!"
        return pound ++ mark ++ (← group .square (attributeContent r))) ts := by
    refine fun ts => .copy (copies_op _) fun _ mid hmid => .copy (copies_op _) fun _ mid' hmid' => ?_
    refine .bind (after_group mid' fun inner _ => copies_attributeContent hr inner) ?_
    rintro _ _ rest _ ⟨rfl, inner, rfl⟩
    exact .pure ⟨by simp, inner, hmid'.trans hmid⟩
  refine (after_rounds fun ts _ => hone ts).seq fun all s mid _ hall => .pure ⟨?_, ?_⟩
  · simpa using hall.ink_eq (f := id) fun _ _ _ _ h => h.1
  · obtain ⟨-, hrest⟩ | ⟨-, _, _, _, place, -, hplace, -, -, inner, hinner⟩ := hall.last
    · exact .inl hrest
    · exact .inr ⟨inner, hinner.trans hplace⟩

theorem after_attributedBlock (hr : CopiesNested r) (ts : Tokens) :
    After [] (fun out s rest => s = ink out ∧ ∃ inner, ts = .group .curly inner :: rest)
      (attributedBlock r) ts := by
  refine after_group ts fun inner hinner => .stable fun hstable => ?_
  refine (after_innerAttributes hr inner).bind ?_
  rintro attrs _ mid _ ⟨rfl, hmid⟩
  have hfirst : declares mid = false := by
    obtain rfl | ⟨_, hsquare⟩ := hmid
    · exact hinner rfl
    · exact declares_of_suffix hstable hsquare (by simp [startsGroup])
  exact (hr.statements mid hfirst).bind fun _ _ _ _ h => .pure (by simp [h])

theorem copies_attributedBlock (hr : CopiesNested r) : Copies id (attributedBlock r) :=
  fun ts => (after_attributedBlock hr ts).imp fun _ _ _ _ h => h.1

/-- Behind attributes there is none any more, and the last one stands right in front. -/
theorem after_attributes (hr : CopiesNested r) (ts : Tokens) :
    After [] (fun out s rest => s = ink out ∧ startsOp "#" rest = false ∧ ((out = [] ∧ rest = ts) ∨
      (startsOp "#" ts = true ∧ ∃ j inner, .punct '#' j :: .group .square inner :: rest <:+ ts)))
      (attributes r) ts := by
  have hone : ∀ ts, After [] (fun out s rest => s = ink out ∧
      ∃ j inner, .punct '#' j :: .group .square inner :: rest <:+ ts) (do
        let pound ← op "#"
        return pound ++ (← group .square (attributeContent r))) ts := by
    refine fun ts => (after_op _ ts).bind ?_
    rintro _ _ mid _ ⟨rfl, rfl, j, rfl⟩
    refine .bind (after_group mid fun inner _ => copies_attributeContent hr inner) ?_
    rintro _ _ rest _ ⟨rfl, inner, rfl⟩
    exact .pure ⟨by simp, j, inner, List.suffix_refl _⟩
  refine (after_rounds fun ts _ => hone ts).seq fun all s mid _ hall => .pure ⟨?_, hall.test_rest, ?_⟩
  · simpa using hall.ink_eq (f := id) fun _ _ _ _ h => h.1
  · obtain ⟨rfl, hrest⟩ | ⟨htest, _, _, _, place, -, hplace, -, -, j, inner, hinner⟩ := hall.last
    · exact .inl ⟨rfl, hrest⟩
    · exact .inr ⟨htest, j, inner, hinner.trans hplace⟩

theorem copies_attributes (hr : CopiesNested r) : Copies id (attributes r) :=
  fun ts => (after_attributes hr ts).imp fun _ _ _ _ h => h.1

/-- No attribute stands in front of what is taken as it stands. -/
theorem not_verbatim_of_attribute (hts : Stable ts) {j : Bool} {inner rest : Tokens}
    (hs : .punct '#' j :: .group .square inner :: rest <:+ ts) :
    startsOneOf ["box", "become", "builtin"] rest = false := by
  have hdrops := (hts.of_suffix hs).front (f := dropsAttribute) (by simp [rewritten]) (by decide)
  exact hdrops

/-! ## Arguments in angle brackets -/

/-- What is known of an item among arguments that was read from `ts`. -/
structure ItemFits (ts : Tokens) (a : Bool × Tokens) (s : Text) (rest : Tokens) : Prop where
  ink : s = ink a.2
  paired : ∃ taken, ts = taken ++ rest ∧ Paired false taken
  flag : startsOp ">" rest = true ∨ startsOp "," rest = true → a.1 = isLifetimeItem ts

/-- What is known of an argument and its comma that were read from `ts`. -/
structure ArgumentFits (ts : Tokens) (a : Argument) (s : Text) (rest : Tokens) : Prop where
  ink : s = ink (a.value ++ if a.comma then operator "," else [])
  flag : a.isLifetime = isLifetimeItem ts
  next : a.comma = true → laterItems ts = rest :: laterItems rest
  last : a.comma = false → startsOp ">" rest = true

theorem after_separatedArgument {item : Parser (Bool × Tokens)}
    (hitem : After [] (ItemFits ts) item ts) :
    After [] (ArgumentFits ts) (do
      let (isLifetime, value) ← item
      if ← ahead (startsOp ">") then return ⟨isLifetime, value, false⟩
      let _ ← op ","
      return (⟨isLifetime, value, true⟩ : Argument)) ts := by
  refine hitem.bind fun a s mid _ h => .branch (fun hgt => ?_) fun _ => ?_
  · exact .pure ⟨by simp [h.ink], h.flag (.inl hgt), by simp, fun _ => hgt⟩
  · refine (after_op _ mid).bind ?_
    rintro _ _ rest _ ⟨rfl, rfl, j, rfl⟩
    obtain ⟨taken, rfl, hpaired⟩ := h.paired
    refine .pure ⟨by simp [h.ink], h.flag (.inr rfl), fun _ => ?_, by simp⟩
    exact laterItems_comma hpaired

section Arranged

variable {mid : Tokens} {args : List Argument} {s : Text} {rest : Tokens}

/-- Behind an argument without a comma there is no other one. -/
theorem eq_nil_of_last {a : Argument} (ha : ArgumentFits ts a s mid) (hcomma : a.comma = false)
    {s' : Text} (h : Rounds (fun ts => !startsOp ">" ts) ArgumentFits mid args s' rest) : args = [] := by
  cases h with
  | done => rfl
  | round htest => exact absurd (ha.last hcomma) (by simpa using htest)

theorem ink_writeArguments (h : Rounds (fun ts => !startsOp ">" ts) ArgumentFits ts args s rest) :
    s = ink (writeArguments true args) := by
  induction h with
  | done => rfl
  | @round ts mid rest a as s s' _ _ ha has ih =>
    rw [writeArguments, ha.ink, ih]
    cases hcomma : a.comma with
    | true => simp
    | false =>
      obtain rfl := eq_nil_of_last ha hcomma has
      simp [writeArguments]

theorem flags_isPrefix (h : Rounds (fun ts => !startsOp ">" ts) ArgumentFits ts args s rest) :
    args.map (·.isLifetime) <+: (ts :: laterItems ts).map isLifetimeItem := by
  induction h with
  | done => exact List.nil_prefix
  | @round ts mid rest a as s s' _ _ ha has ih =>
    rw [List.map_cons, List.map_cons, ha.flag, List.cons_prefix_cons]
    refine ⟨rfl, ?_⟩
    cases hcomma : a.comma with
    | true =>
      rw [ha.next hcomma]
      exact ih
    | false =>
      obtain rfl := eq_nil_of_last ha hcomma has
      exact List.nil_prefix

/-- Arguments are left in their order when no lifetime follows another one. -/
theorem arrange_of_pairwise
    (h : (args.map (·.isLifetime)).Pairwise fun a b => b = true → a = true) :
    arrange args = writeArguments true args := by
  unfold arrange
  congr 1
  induction args with
  | nil => rfl
  | cons a as ih =>
    rw [List.map_cons, List.pairwise_cons] at h
    cases ha : a.isLifetime with
    | true => simp [ha, ih h.2]
    | false =>
      have has : ∀ b ∈ as, b.isLifetime = false := by
        intro b hb
        have := h.1 b.isLifetime (List.mem_map_of_mem hb)
        simpa [ha] using this
      have hnone : as.filter (·.isLifetime) = [] := by simpa using has
      have hall : as.filter (!·.isLifetime) = as := by simpa using has
      simp [ha, hnone, hall]

end Arranged

theorem after_argumentList {item : Parser (Bool × Tokens)}
    (hitem : ∀ ts, After [] (ItemFits ts) item ts) (hts : isOrdered ts = true) :
    After [] (fun out s _ => s = ink out) (argumentList item) ts := by
  have hrounds : After [] (Rounds (fun ts => !startsOp ">" ts) ArgumentFits ts) _ ts :=
    after_rounds fun ts _ => after_separatedArgument (hitem ts)
  refine hrounds.seq fun args s rest _ h => .pure ?_
  have hflags : ((ts :: laterItems ts).map isLifetimeItem).Pairwise fun a b => b = true → a = true := by
    simpa [isOrdered] using hts
  rw [arrange_of_pairwise (hflags.sublist (flags_isPrefix h).sublist)]
  exact ink_writeArguments h

theorem copies_constArgument (hr : CopiesNested r) : Copies id (constArgument r) :=
  fun ts => .branch (fun _ => copies_literal ts) fun _ =>
    .branch (fun _ => copies_anyWord ts) fun _ => copies_attributedBlock hr ts

/-! ## Segments -/

/-- What stands between angle brackets is ordered. -/
theorem isOrdered_of_suffix (hts : Stable ts) {j : Bool} {rest : Tokens}
    (hs : .punct '<' j :: rest <:+ ts) : isOrdered rest = true := by
  have hfront := (hts.of_suffix hs).front (f := reordersArguments) (by simp [rewritten]) (by decide)
  simpa [reordersArguments, startsOp] using hfront

/-- Whether a place stands right behind angle brackets with nothing between them. -/
def IsHollow (ts rest : Tokens) : Prop := ∃ j j', .punct '<' j :: .punct '>' j' :: rest <:+ ts

theorem IsHollow.mono {us rest : Tokens} (h : IsHollow ts rest) (hs : ts <:+ us) : IsHollow us rest := by
  obtain ⟨j, j', h⟩ := h
  exact ⟨j, j', h.trans hs⟩

theorem after_angleArguments (hr : CopiesNested r) (ts : Tokens) :
    After [] (fun a s rest => s = ink a.1 ∧ a.1 ≠ [] ∧ (a.2 = true → IsHollow ts rest))
      (angleArguments r) ts := by
  refine .stable fun hts => .copy (copies_optionalOp _) fun lead mid hmid => (after_op _ mid).bind ?_
  rintro _ _ inside _ ⟨rfl, rfl, j, rfl⟩
  refine (hr.arguments inside (isOrdered_of_suffix hts hmid)).moved.bind ?_
  rintro args _ mid' _ ⟨rfl, hempty⟩
  refine (after_op _ mid').bind ?_
  rintro _ _ rest _ ⟨rfl, rfl, j', rfl⟩
  refine .pure ⟨by simp, by simp [operator], fun hargs => ?_⟩
  obtain rfl := hempty (by rw [List.isEmpty_iff.1 hargs]; rfl)
  exact ⟨j, j', hmid⟩

/-- What is known of a segment that was read from `ts`. -/
structure SegmentFits (inExpr : Bool) (ts : Tokens) (g : Segment) (s : Text) (rest : Tokens) : Prop where
  ink : s = ink g.tokens
  taken : rest.length < ts.length
  hollow : g.isHollow = true → g.arguments = [] ∨ IsHollow ts rest
  bare : inExpr = false → g.arguments = [] → opensArguments rest = true → Has isBareType ts
  plain : g.arguments = [] → ts.dropWhile isPathToken = rest.dropWhile isPathToken

theorem after_segment (hr : CopiesNested r) (inExpr : Bool) (separator : Tokens) (ts : Tokens) :
    After (ink separator) (SegmentFits inExpr ts) (segment r inExpr separator) ts := by
  refine .branch (fun hbare => ?_) fun _ => .ahead (.guard fun _ => ?_)
  · refine (after_anyWord ts).bind ?_
    rintro _ _ rest _ ⟨rfl, w, rfl, rfl⟩
    refine .pure ⟨by simp [Segment.tokens], by simp, fun _ => .inl rfl, fun _ _ hopen => ?_, ?_⟩
    · exact .here (by simp [isBareType, hbare, hopen])
    · simp [List.dropWhile, isPathToken]
  · refine (after_anyWord ts).bind ?_
    rintro _ _ mid hmid ⟨rfl, w, rfl, rfl⟩
    refine .branch (fun _ => ?_) fun hnone => .pure ?_
    · refine (after_angleArguments hr mid).bind ?_
      rintro ⟨args, isHollow⟩ _ rest hrest ⟨rfl, hne, hhollow⟩
      refine .pure ⟨by simp [Segment.tokens], ?_, fun h => .inr ((hhollow h).mono hmid),
        fun _ h => absurd h hne, fun h => absurd h hne⟩
      simpa [Nat.lt_succ_iff] using hrest.length_le
    · refine ⟨by simp [Segment.tokens], by simp, fun _ => .inl rfl, fun hexpr _ hopen => ?_, ?_⟩
      · subst hexpr
        simp_all [startsArguments, opensArguments]
      · simp [List.dropWhile, isPathToken]

theorem dropWhile_operator {cs : Text} (h : cs.all (· == ':') = true) (j : Bool) (rest : Tokens) :
    (operatorWith j cs ++ rest).dropWhile isPathToken = rest.dropWhile isPathToken := by
  induction cs with
  | nil => rfl
  | cons c cs ih =>
    rw [List.all_cons, Bool.and_eq_true] at h
    cases cs with
    | nil => simp_all [operatorWith, isPathToken]
    | cons d cs =>
      rw [operatorWith, List.cons_append, List.dropWhile_cons_of_pos (by simpa [isPathToken] using h.1),
        ih h.2]
      simp

/-- A segment behind a separator. -/
theorem SegmentFits.behind {inExpr : Bool} {mid rest : Tokens} {g : Segment} {s : Text}
    (h : SegmentFits inExpr mid g s rest) (hmid : mid <:+ ts)
    (hplain : ts.dropWhile isPathToken = mid.dropWhile isPathToken) : SegmentFits inExpr ts g s rest where
  ink := h.ink
  taken := h.taken.trans_le hmid.length_le
  hollow := fun hg => (h.hollow hg).imp_right (·.mono hmid)
  bare := fun hexpr hg hopen => (h.bare hexpr hg hopen).mono hmid
  plain := fun hg => hplain.trans (h.plain hg)

theorem after_nextSegment (hr : CopiesNested r) (inExpr : Bool) (ts : Tokens) :
    After [] (SegmentFits inExpr ts) (do segment r inExpr (← op "::")) ts := by
  refine (after_op _ ts).bind ?_
  rintro _ _ mid hmid ⟨rfl, rfl, j, rfl⟩
  refine (after_segment hr inExpr _ mid).imp fun g s rest _ h => ?_
  exact h.behind hmid (dropWhile_operator (by decide) j mid)

theorem after_moreSegments (hr : CopiesNested r) (inExpr : Bool) (go : Tokens → Bool) (ts : Tokens) :
    After [] (Rounds go (SegmentFits inExpr) ts) (moreSegments r inExpr go) ts :=
  after_rounds fun ts _ => after_nextSegment hr inExpr ts

/-! ## Paths -/

/-- What is known of a path that was read from `ts`. -/
structure PathFits (inExpr : Bool) (ts : Tokens) (p : PathForm) (s : Text) (rest : Tokens) : Prop where
  ink : s = ink p.tokens
  taken : rest.length < ts.length
  stem : ∀ stem, p.stem? = some stem → RuleFormat.ink stem = RuleFormat.ink p.tokens ∨ IsHollow ts rest
  bare : inExpr = false → p.endsBare = true → opensArguments rest = true → Has isBareType ts
  plain : p.isPlain = true → ts.dropWhile isPathToken = rest.dropWhile isPathToken

section Segments

variable {inExpr : Bool} {go : Tokens → Bool} {mid rest : Tokens} {first last : Segment}
  {front more : List Segment} {s s' : Text}

theorem ink_ofSegments (front : List Segment) (last : Segment) :
    ink (PathForm.ofSegments front last).tokens = ink ((front ++ [last]).map Segment.tokens).flatten := by
  simp [PathForm.ofSegments]

/-- What is known of the last segment is known of the path. -/
theorem PathFits.ofSegments {place : Tokens} (hplace : place <:+ ts)
    (hlast : SegmentFits inExpr place last s' rest)
    (hink : s = RuleFormat.ink ((front ++ [last]).map Segment.tokens).flatten)
    (hplain : (∀ g ∈ front ++ [last], g.arguments = []) →
      ts.dropWhile isPathToken = rest.dropWhile isPathToken) :
    PathFits inExpr ts (PathForm.ofSegments front last) s rest where
  ink := by rw [ink_ofSegments, hink]
  taken := hlast.taken.trans_le hplace.length_le
  stem := by
    intro stem hstem
    have hhollow : last.isHollow = true := by
      by_contra h
      simp [PathForm.ofSegments, h] at hstem
    refine (hlast.hollow hhollow).imp (fun hargs => ?_) (·.mono hplace)
    simp only [PathForm.ofSegments, hhollow, if_true, Option.some.injEq] at hstem
    rw [← hstem, PathForm.ofSegments, Segment.tokens, hargs, List.append_nil]
  bare := by
    intro hexpr hbare hopen
    exact (hlast.bare hexpr (List.isEmpty_iff.1 hbare) hopen).mono hplace
  plain := by
    intro h
    refine hplain fun g hg => ?_
    have hall := List.all_eq_true.1 h g hg
    exact List.isEmpty_iff.1 hall

theorem plain_moreSegments (h : Rounds go (SegmentFits inExpr) mid more s rest)
    (hmore : ∀ g ∈ more, g.arguments = []) :
    mid.dropWhile isPathToken = rest.dropWhile isPathToken := by
  induction h with
  | done => rfl
  | round _ _ ha _ ih =>
    rw [ha.plain (hmore _ (List.mem_cons_self ..)), ih fun g hg => hmore g (List.mem_cons_of_mem _ hg)]

/-- A first segment and more of them make a path. -/
theorem pathFits_of_segments (hmid : mid <:+ ts) (hfirst : SegmentFits inExpr ts first s mid)
    (hmore : Rounds go (SegmentFits inExpr) mid more s' rest) :
    PathFits inExpr ts (PathForm.ofSegments (first :: more).dropLast
      ((first :: more).getLast?.getD first)) (s ++ s') rest := by
  have hall : s ++ s' = ink ((first :: more).map Segment.tokens).flatten := by
    rw [List.map_cons, List.flatten_cons, ink_append, hfirst.ink,
      hmore.ink_eq fun _ _ _ _ h => SegmentFits.ink h]
  have hplain : (∀ g ∈ first :: more, g.arguments = []) →
      ts.dropWhile isPathToken = rest.dropWhile isPathToken := by
    intro h
    rw [hfirst.plain (h _ (List.mem_cons_self ..)),
      plain_moreSegments hmore fun g hg => h g (List.mem_cons_of_mem _ hg)]
  obtain ⟨rfl, rfl⟩ | ⟨-, front, last, s'', place, rfl, hplace, -, hlast⟩ := hmore.last
  · exact .ofSegments (List.suffix_refl ts) hfirst hall hplain
  · have hdrop : (first :: (front ++ [last])).dropLast = first :: front := by
      rw [← List.cons_append, List.dropLast_concat]
    have hget : (first :: (front ++ [last])).getLast?.getD first = last := by
      rw [← List.cons_append, List.getLast?_concat, Option.getD_some]
    rw [hdrop, hget]
    exact .ofSegments (hplace.trans hmid) hlast hall hplain

end Segments

theorem after_path (hr : CopiesNested r) (inExpr : Bool) (ts : Tokens) :
    After [] (PathFits inExpr ts) (path r inExpr) ts := by
  refine (after_optionalOp _ ts).bind ?_
  rintro lead _ mid hmid ⟨rfl, hlead⟩
  have hplain : ts.dropWhile isPathToken = mid.dropWhile isPathToken := by
    obtain ⟨-, rfl, -⟩ | ⟨-, j, rfl⟩ := hlead
    · rfl
    · exact dropWhile_operator (by decide) j mid
  refine (after_segment hr inExpr lead mid).seq fun first s mid' hmid' hfirst => ?_
  refine (after_moreSegments hr inExpr _ mid').bind fun more s' rest _ hmore => .pure ?_
  have hpath := pathFits_of_segments (hmid'.trans hmid) (hfirst.behind hmid hplain) hmore
  exact ⟨hpath.ink, hpath.taken, hpath.stem, hpath.bare, hpath.plain⟩

/-- What is known of a path that may have a self type, and was read from `ts`. -/
structure QualifiedFits (inExpr : Bool) (ts : Tokens) (p : PathForm × Bool) (s : Text) (rest : Tokens) :
    Prop where
  ink : s = ink p.1.tokens
  bare : inExpr = false → p.1.endsBare = true → opensArguments rest = true → Has isBareType ts
  path : p.2 = false → PathFits inExpr ts p.1 s rest
  qualified : p.2 = true → startsOp "<" ts = true

theorem after_qualifiedPath (hr : CopiesNested r) (inExpr : Bool) (ts : Tokens) :
    After [] (QualifiedFits inExpr ts) (qualifiedPath r inExpr) ts := by
  have has : Copies id (optional (startsWord "as") do
      let head ← word "as"
      return head ++ (← path r false).tokens) :=
    copies_optional fun ts => .copy (copies_word _) fun _ mid _ =>
      (after_path hr false mid).bind fun _ _ _ _ h => .pure (by simp [h.ink])
  refine .branch (fun hlt => ?_) fun _ => ?_
  · refine .copy (copies_op _) fun _ mid hmid => .copy hr.typeTokens fun _ mid' hmid' => ?_
    refine .copy has fun _ m hm => .copy (copies_op _) fun _ m' hm' => (after_op _ m').bind ?_
    rintro _ _ place hplace ⟨rfl, rfl, -⟩
    refine (after_segment hr inExpr _ place).behind.seq ?_
    rintro first _ m'' hm'' ⟨s, rfl, hfirst⟩
    refine (after_moreSegments hr inExpr _ m'').bind fun more s' rest _ hmore => .pure ?_
    have hpath := pathFits_of_segments hm'' hfirst hmore
    have hts := hplace.trans (hm'.trans (hm.trans (hmid'.trans hmid)))
    refine ⟨?_, fun hexpr hbare hopen => (hpath.bare hexpr hbare hopen).mono hts, by simp, fun _ => hlt⟩
    have hink := hpath.ink
    simp only [id_eq, ink_append, List.nil_append, List.append_assoc] at hink ⊢
    rw [hink]
  · exact (after_path hr inExpr ts).seq fun p s rest _ h =>
      .pure ⟨h.ink, h.bare, fun _ => h, by simp⟩

theorem after_macroCall (ts : Tokens) :
    After [] (fun out s rest => s = ink out ∧ ∃ j d inner, ts = .punct '!' j :: .group d inner :: rest)
      macroCall ts := by
  refine (after_op _ ts).bind ?_
  rintro _ _ mid _ ⟨rfl, rfl, j, rfl⟩
  refine (after_anyGroup mid).bind ?_
  rintro _ _ rest _ ⟨rfl, d, inner, rfl⟩
  exact .pure ⟨by simp, j, d, inner, rfl⟩

theorem copies_macroCall : Copies id macroCall :=
  fun ts => (after_macroCall ts).imp fun _ _ _ _ h => h.1

/-! ## Bounds -/

/-- A type behind an arrow or in front of it ends bare as `isBareType` says. -/
theorem after_returnType (hr : CopiesNested r) (ts : Tokens) :
    After [] (fun a s rest => s = ink a.1 ∧ (a.2 = true → opensArguments rest = true → Has isBareType ts))
      (returnType r) ts := by
  refine .branch (fun _ => ?_) fun _ => .pure ⟨rfl, by simp⟩
  refine .copy (copies_op _) fun _ mid hmid => (hr.type false mid).bind fun t s rest _ h => ?_
  exact .pure ⟨by simp [h.ink], fun hbare hopen => (h.bare rfl hbare hopen).mono hmid⟩

theorem after_roundArguments (hr : CopiesNested r) (ts : Tokens) :
    After [] (fun a s rest => s = ink a.1 ∧ (a.2 = true → opensArguments rest = true → Has isBareType ts))
      (roundArguments r) ts := by
  refine .copy (copies_group (copies_commaList hr.typeTokens)) fun _ mid hmid => ?_
  refine (after_returnType hr mid).bind ?_
  rintro ⟨output, endsBare⟩ _ rest _ ⟨rfl, hbare⟩
  exact .pure ⟨by simp, fun h hopen => (hbare h hopen).mono hmid⟩

/-- Bounds until `stop` holds; there is at least one unless it holds at once. -/
theorem after_boundsUntil {stop : Tokens → Bool} {item : Parser Tokens}
    (hitem : ∀ ts, After [] (fun out s rest => s = ink out ∧ rest.length < ts.length) item ts)
    (ts : Tokens) :
    After [] (fun out s rest => s = ink out ∧ (stop ts = false → rest.length < ts.length))
      (boundsUntil stop item) ts := by
  have hcopy : Copies id item := fun ts => (hitem ts).imp fun _ _ _ _ h => h.1
  have hmore : Copies id (do
      let plus ← op "+"
      if ← ahead stop then return plus
      return plus ++ (← item)) := by
    refine fun ts => .copy (copies_op _) fun _ _ _ => .branch (fun _ => .pure rfl) fun _ => ?_
    exact .copy hcopy fun _ _ _ => .pure (by simp)
  refine .branch (fun hstop => .pure ⟨rfl, by simp [hstop]⟩) fun _ => (hitem ts).bind ?_
  rintro first _ mid _ ⟨rfl, htaken⟩
  refine .copy (copies_repeat hmore) fun more rest hrest => .pure ⟨by simp, fun _ => ?_⟩
  exact hrest.length_le.trans_lt htaken

theorem copies_boundsUntil {stop : Tokens → Bool} {item : Parser Tokens}
    (hitem : ∀ ts, After [] (fun out s rest => s = ink out ∧ rest.length < ts.length) item ts) :
    Copies id (boundsUntil stop item) :=
  fun ts => (after_boundsUntil hitem ts).imp fun _ _ _ _ h => h.1

theorem copies_colonBounds {item : Parser Tokens}
    (hitem : ∀ ts, After [] (fun out s rest => s = ink out ∧ rest.length < ts.length) item ts) :
    Copies id (colonBounds item) := by
  refine copies_optional fun ts => .stable fun hts => (after_op _ ts).bind ?_
  rintro _ _ mid _ ⟨rfl, rfl, j, rfl⟩
  have hstop : endsBounds mid = false := by
    have := hts.front (f := dropsColon) (by simp [rewritten]) (by decide)
    simpa [dropsColon, operatorWith, startsOp] using this
  refine (after_boundsUntil hitem mid).moved.bind ?_
  rintro all _ rest _ ⟨⟨rfl, htaken⟩, hempty⟩
  refine .pure ?_
  have hne : all ≠ [] := by
    rintro rfl
    exact absurd (htaken hstop) (by rw [hempty rfl]; exact lt_irrefl _)
  rw [if_neg (by simpa using hne)]
  simp

theorem after_lifetime_taken (ts : Tokens) :
    After [] (fun out s rest => s = ink out ∧ rest.length < ts.length) lifetime ts := by
  refine (after_lifetime ts).imp ?_
  rintro _ _ rest _ ⟨rfl, t, rfl, rfl⟩
  exact ⟨rfl, by simp⟩

theorem after_boundTokens (hr : CopiesNested r) (place : BoundPlace) (ts : Tokens) :
    After [] (fun out s rest => s = ink out ∧ rest.length < ts.length) (r.boundTokens place) ts :=
  (hr.bound place ts).seq fun _ _ _ _ h => .pure ⟨h.ink, h.taken⟩

theorem copies_binder (hr : CopiesNested r) : Copies id (binder r) := by
  refine fun ts => .copy (copies_attributes hr) fun _ _ _ => ?_
  refine .branch (fun _ => ?_) fun _ => .branch (fun _ => ?_) fun _ => ?_
  · refine .copy copies_lifetime fun _ _ _ => .copy (copies_colonBounds after_lifetime_taken) ?_
    exact fun _ _ _ => .pure (by simp)
  · have hvalue : Copies id (optional (startsOp "=") do
        return (← op "=") ++ (← constArgument r)) :=
      copies_optional fun _ => .copy (copies_op _) fun _ _ _ =>
        .copy (copies_constArgument hr) fun _ _ _ => .pure (by simp)
    refine .copy (copies_word _) fun _ _ _ => .copy copies_ident fun _ _ _ => ?_
    refine .copy (copies_op _) fun _ _ _ => .copy hr.typeTokens fun _ _ _ => ?_
    exact .copy hvalue fun _ _ _ => .pure (by simp)
  · have hvalue : Copies id (optional (startsOp "=") do return (← op "=") ++ (← r.typeTokens)) :=
      copies_optional fun _ => .copy (copies_op _) fun _ _ _ =>
        .copy hr.typeTokens fun _ _ _ => .pure (by simp)
    refine .copy copies_ident fun _ _ _ => ?_
    refine .copy (copies_colonBounds (after_boundTokens hr _)) fun _ _ _ => ?_
    exact .copy hvalue fun _ _ _ => .pure (by simp)

/-- The names that a `for` introduces stand between angle brackets that pair off. -/
theorem after_binders (hr : CopiesNested r) (ts : Tokens) :
    After [] (fun out s rest => s = ink out ∧ ((out = [] ∧ rest = ts) ∨ ∃ j j' inside,
      ts = .word "for" :: .punct '<' j :: (inside ++ .punct '>' j' :: rest) ∧ Paired true inside))
      (binders r) ts := by
  refine .branch (fun _ => ?_) fun _ => .pure ⟨rfl, .inl ⟨rfl, rfl⟩⟩
  refine (after_word _ ts).bind ?_
  rintro _ _ mid _ ⟨rfl, rfl, rfl⟩
  refine (after_op _ mid).bind ?_
  rintro _ _ names _ ⟨rfl, rfl, j, rfl⟩
  refine ((copies_listUntil (copies_binder hr) names).also
    (pairs_listUntil (pairs_binder hr.pairs) names)).bind ?_
  rintro _ _ close _ ⟨rfl, inside, rfl, hinside⟩
  refine (after_op _ close).bind ?_
  rintro _ _ rest _ ⟨rfl, rfl, j', rfl⟩
  exact .pure ⟨by simp, .inr ⟨j, j', inside, rfl, hinside⟩⟩

theorem copies_binders (hr : CopiesNested r) : Copies id (binders r) :=
  fun ts => (after_binders hr ts).imp fun _ _ _ _ h => h.1

theorem after_capture (ts : Tokens) :
    After [] (fun out s rest => s = ink out ∧ rest.length < ts.length) capture ts := by
  have hitem : ∀ ts, After [] (ItemFits ts) (do
      if ← ahead startsLifetime then return (true, ← lifetime)
      guard (← ahead fun ts => startsIdent ts || startsWord "Self" ts)
      return (false, ← anyWord)) ts := by
    refine fun ts => .branch (fun _ => ?_) fun hlife => .ahead (.guard fun _ => ?_)
    · refine (after_lifetime ts).bind ?_
      rintro _ _ rest _ ⟨rfl, t, rfl, rfl⟩
      refine .pure ⟨rfl, ⟨[_], rfl, .token rfl .nil⟩, fun hrest => ?_⟩
      have hplus : startsOp "+" rest = false := by
        obtain h | h := hrest
        · exact startsOp_disjoint h (by decide)
        · exact startsOp_disjoint h (by decide)
      simpa [isLifetimeItem, startsLifetime] using hplus
    · refine (after_anyWord ts).bind ?_
      rintro _ _ rest _ ⟨rfl, w, rfl, rfl⟩
      exact .pure ⟨rfl, ⟨[_], rfl, .token rfl .nil⟩, fun _ => by simp [isLifetimeItem, startsLifetime]⟩
  refine .stable fun hts => (after_word _ ts).bind ?_
  rintro _ _ mid hmid ⟨rfl, rfl, rfl⟩
  refine (after_op _ mid).bind ?_
  rintro _ _ inside hinside ⟨rfl, rfl, j, rfl⟩
  refine (after_argumentList hitem (isOrdered_of_suffix hts hmid)).bind ?_
  rintro _ _ close hclose rfl
  refine .copy (copies_op _) fun _ rest hrest => .pure ⟨by simp, ?_⟩
  exact Nat.lt_succ_of_le (hrest.trans (hclose.trans hinside)).length_le

/-- No double colon stands in front of arguments in parentheses. -/
theorem startsGroup_of_roundArguments (hts : Stable ts) (h : startsRoundArguments ts = true) :
    startsGroup .round ts = true := by
  have hmark := hts.front (f := dropsMark) (by simp [rewritten]) (by decide)
  unfold startsRoundArguments at h
  unfold dropsMark at hmark
  cases hround : startsGroup .round (ts.drop 2) with
  | false => simpa [hround] using h
  | true =>
    rw [hround, Bool.true_and, Bool.or_eq_false_iff] at hmark
    simpa only [hmark.1, Bool.false_and, Bool.or_false] using h

/-- Empty brackets do not stand in front of parentheses. -/
theorem not_isHollow_of_round (hts : Stable ts) {rest : Tokens} (h : startsGroup .round rest = true) :
    ¬ IsHollow ts rest := by
  rintro ⟨j, j', hs⟩
  have hmark := (hts.of_suffix hs).front (f := dropsMark) (by simp [rewritten]) (by decide)
  simp [dropsMark, h, startsOp] at hmark

theorem startsOp_of_group {d : Delimiter} (h : startsGroup d ts = true) (c : Char) (cs : Text) :
    startsOp (c :: cs) ts = false := by
  unfold startsGroup at h
  split at h
  · cases cs <;> rfl
  · cases h

/-- What is known of a bound by a trait that was read from `ts`. -/
structure TraitFits (ts : Tokens) (t : TraitForm) (s : Text) (rest : Tokens) : Prop where
  ink : s = ink t.tokens
  taken : rest.length < ts.length
  bare : t.endsBare = true → opensArguments rest = true → Has isBareType ts

theorem after_traitPath (hr : CopiesNested r) (ts : Tokens) :
    After [] (fun a s rest => s = ink a.1 ∧ rest.length < ts.length ∧
      (a.2 = true → opensArguments rest = true → Has isBareType ts)) (traitPath r) ts := by
  refine .stable fun hts => (after_path hr false ts).bind fun p s mid hmid hp => ?_
  cases hstem : p.stem? with
  | none => exact .pure ⟨hp.ink, hp.taken, hp.bare rfl⟩
  | some stem =>
    refine .branch (fun hround => ?_) fun _ => .pure ⟨hp.ink, hp.taken, hp.bare rfl⟩
    have hgroup := startsGroup_of_roundArguments (hts.of_suffix hmid) hround
    have hink : ink stem = ink p.tokens :=
      (hp.stem stem hstem).resolve_right (not_isHollow_of_round hts hgroup)
    refine (after_optional_none (startsOp_of_group hgroup _ _)).bind ?_
    rintro _ _ _ _ ⟨rfl, rfl, rfl⟩
    refine (after_roundArguments hr _).bind ?_
    rintro ⟨args, endsBare⟩ _ rest hrest ⟨rfl, hbare⟩
    refine .pure ⟨by simp [hp.ink, hink], hrest.length_le.trans_lt hp.taken, fun h hopen => ?_⟩
    exact (hbare h hopen).mono hmid

theorem after_traitBound (hr : CopiesNested r) (place : BoundPlace) (ts : Tokens) :
    After [] (TraitFits ts) (traitBound r place) ts := by
  -- names behind the question mark are read, but then the bound is refused
  have hpath : ∀ names const maybe late mid, mid <:+ ts → (maybe = [] → late = []) →
      After (ink names ++ ink const ++ ink maybe ++ ink late) (TraitFits ts) (do
        let path ← traitPath r
        guard (maybe.isEmpty || (names.isEmpty && late.isEmpty))
        return ⟨names ++ const ++ maybe ++ path.1, !const.isEmpty, path.2⟩) mid := by
    intro names const maybe late mid hmid hlate
    refine (after_traitPath hr mid).bind ?_
    rintro ⟨path, endsBare⟩ _ rest _ ⟨rfl, htaken, hbare⟩
    refine .guard fun hguard => ?_
    have hnone : late = [] := by
      by_cases hmaybe : maybe = []
      · exact hlate hmaybe
      · simp_all
    subst hnone
    exact .pure ⟨by simp, htaken.trans_le hmid.length_le, fun h hopen => (hbare h hopen).mono hmid⟩
  have hmaybe : ∀ names const mid, mid <:+ ts → After (ink names ++ ink const) (TraitFits ts) (do
      guard (const.isEmpty || place.const)
      let maybe ← optionalOp "?"
      let late ← if names.isEmpty && !maybe.isEmpty then binders r else pure []
      let path ← traitPath r
      guard (maybe.isEmpty || (names.isEmpty && late.isEmpty))
      return ⟨names ++ const ++ maybe ++ path.1, !const.isEmpty, path.2⟩) mid := by
    intro names const mid hmid
    refine .guard fun _ => .copy (copies_optionalOp _) fun maybe m hm => .ite (fun hlate => ?_) fun _ => ?_
    · refine .copy (copies_binders hr) fun late m' hm' => ?_
      refine hpath names const maybe late m' (hm'.trans (hm.trans hmid)) fun h => ?_
      simp [h] at hlate
    · have hnone := hpath names const maybe [] m (hm.trans hmid) fun _ => rfl
      simpa using hnone
  refine .copy (copies_binders hr) fun names m hm => .branch (fun _ => ?_) fun _ => ?_
  · exact .copy (copies_group (copies_word _)) fun const m' hm' => hmaybe names const m' (hm'.trans hm)
  · exact .copy (copies_optionalWord _) fun const m' hm' => hmaybe names const m' (hm'.trans hm)

/-- In parentheses a bound may end bare in front of an angle bracket. -/
theorem after_enclosedTrait (hr : CopiesNested r) (place : BoundPlace) (ts : Tokens) :
    After [] (fun t s rest => s = ink t.tokens ∧ rest.length < ts.length ∧
      (t.endsBare = true → opensArguments rest = true →
        (∃ inner, ts = .group .round inner :: rest) ∨ Has isBareType ts))
      (enclosedTrait r place) ts := by
  intro hts t rest h
  unfold enclosedTrait at h
  split at h
  · rename_i inner rest'
    split at h <;> cases h
    rename_i t' ht'
    obtain ⟨taken, htaken, hfits⟩ := after_traitBound hr place inner hts.group _ _ ht'
    rw [List.append_nil] at htaken
    subst htaken
    refine ⟨[.group .round inner], rfl, ?_, by simp, fun _ _ => .inl ⟨inner, rfl⟩⟩
    rw [List.nil_append, ink_group, ink_group]
    exact congrArg (fun s => Delimiter.round.openChar :: s ++ [Delimiter.round.closeChar]) hfits.ink
  · obtain ⟨taken, rfl, hfits⟩ := after_traitBound hr place ts hts _ _ h
    exact ⟨taken, rfl, hfits.ink, hfits.taken, fun hbare hopen => .inr (hfits.bare hbare hopen)⟩

theorem after_bound (hr : CopiesNested r) (place : BoundPlace) (ts : Tokens) :
    After [] (BoundFits ts) (bound r place) ts := by
  refine .branch (fun _ => ?_) fun _ => .branch (fun _ => .guard fun _ => ?_) fun _ => ?_
  · exact (after_lifetime_taken ts).bind fun _ _ _ _ h => .pure ⟨h.1, h.2, by simp⟩
  · exact (after_capture ts).bind fun _ _ _ _ h => .pure ⟨h.1, h.2, by simp⟩
  · refine .bind (R := fun t s rest => s = ink t.tokens ∧ rest.length < ts.length ∧
      (t.endsBare = true → opensArguments rest = true →
        (∃ inner, ts = .group .round inner :: rest) ∨ Has isBareType ts)) ?_ ?_
    · refine (after_enclosedTrait hr place ts).keepingIf (fun _ _ _ _ h => h) ?_
      exact fun _ _ _ _ _ h => ⟨rfl, h.2.1, by simp⟩
    · exact fun _ _ _ _ h => .pure ⟨h.1, h.2.1, h.2.2⟩

/-! ## Sums of bounds -/

/-- What is known of a plus sign and a bound that were read from `ts`. -/
structure PlusFits (ts : Tokens) (b : BoundForm) (s : Text) (rest : Tokens) : Prop where
  ink : s = ink b.tokens
  bare : b.endsBare = true → opensArguments rest = true → Has endsSum ts ∨ Has isBareType ts

theorem after_plusBound (hr : CopiesNested r) (place : BoundPlace) (ts : Tokens) :
    After [] (PlusFits ts) (do
      let plus ← op "+"
      let b ← bound r place
      return { b with tokens := plus ++ b.tokens }) ts := by
  refine (after_op _ ts).bind ?_
  rintro _ _ mid hmid ⟨rfl, rfl, j, rfl⟩
  refine (after_bound hr place mid).bind fun b s rest _ h => .pure ⟨by simp [h.ink], fun hbare hopen => ?_⟩
  obtain ⟨inner, rfl⟩ | hhas := h.bare hbare hopen
  · exact .inl (.here (by simp [endsSum, operatorWith, startsOp, startsGroup, hopen]))
  · exact .inr (hhas.mono hmid)

section Sum

variable {test : Tokens → Bool} {mid rest : Tokens} {first : BoundForm} {more : List BoundForm} {s : Text}

theorem ink_sum (h : Rounds test PlusFits mid more s rest) :
    ink first.tokens ++ s = ink ((first :: more).map (·.tokens)).flatten := by
  rw [List.map_cons, List.flatten_cons, ink_append, h.ink_eq fun _ _ _ _ h => PlusFits.ink h]

/-- A sum ends as its last bound does, which is the first one or stands behind a plus sign. -/
theorem bare_sum (h : Rounds test PlusFits mid more s rest)
    (hbare : ((first :: more).getLast?.map (·.endsBare)).getD false = true) :
    (more = [] ∧ rest = mid ∧ first.endsBare = true) ∨
      (test mid = true ∧ (opensArguments rest = true → Has endsSum mid ∨ Has isBareType mid)) := by
  obtain ⟨rfl, rfl⟩ | ⟨htest, front, last, s', place, rfl, hplace, -, hlast⟩ := h.last
  · exact .inl ⟨rfl, rfl, by simpa using hbare⟩
  · rw [← List.cons_append, List.getLast?_concat] at hbare
    refine .inr ⟨htest, fun hopen => ?_⟩
    exact (hlast.bare hbare hopen).imp (·.mono hplace) (·.mono hplace)

end Sum

/-- What is known of bounds behind the first one, which were read from `ts`. -/
structure SumFits (first : BoundForm) (ts : Tokens) (b : BoundForm) (s : Text) (rest : Tokens) : Prop where
  ink : s = ink b.tokens
  isTrait : b.isTrait = true → first.isTrait = true ∨ startsOp "+" ts = true
  bare : b.endsBare = true → opensArguments rest = true →
    (rest = ts ∧ first.endsBare = true) ∨
      (startsOp "+" ts = true ∧ (Has endsSum ts ∨ Has isBareType ts))
  alone : startsOp "+" ts = false → b.tokens = first.tokens ∧ rest = ts

theorem after_boundsFrom (hr : CopiesNested r) (place : BoundPlace) (first : BoundForm) (ts : Tokens) :
    After (ink first.tokens) (SumFits first ts) (boundsFrom r place first) ts := by
  refine (after_rounds fun ts _ => after_plusBound hr place ts).bind fun more s mid hmid hmore => ?_
  refine (after_optionalOp _ mid).bind ?_
  rintro plus _ rest _ ⟨rfl, hplus⟩
  refine .pure ⟨?_, fun htrait => ?_, fun hbare hopen => ?_, fun halone => ?_⟩
  · rw [ink_append, ← ink_sum hmore]
  · obtain ⟨rfl, -⟩ | ⟨htest, -⟩ := hmore.last
    · exact .inl (by simpa using htrait)
    · exact .inr (Bool.and_eq_true_iff.1 htest).1
  · obtain ⟨-, rfl, -⟩ | ⟨-, j, rfl⟩ := hplus
    · obtain ⟨-, rfl, hfirst⟩ | ⟨htest, hsum⟩ := bare_sum hmore hbare
      · exact .inl ⟨rfl, hfirst⟩
      · exact .inr ⟨(Bool.and_eq_true_iff.1 htest).1, hsum hopen⟩
    · have hends : endsSum (operatorWith j "+" ++ rest) = true := by
        simp [endsSum, operatorWith, startsOp, hopen]
      refine .inr ⟨?_, .inl ⟨_, hmid, hends⟩⟩
      obtain ⟨-, rfl⟩ | ⟨htest, -⟩ := hmore.last
      · rfl
      · exact (Bool.and_eq_true_iff.1 htest).1
  · obtain ⟨rfl, rfl⟩ | ⟨htest, -⟩ := hmore.last
    · obtain ⟨rfl, rfl, -⟩ | ⟨-, j, rfl⟩ := hplus
      · simp
      · cases halone
    · rw [halone] at htest
      cases htest

/-- What is known of bounds that were read from `ts`. -/
structure BoundsFit (sum : Bool) (ts : Tokens) (b : BoundForm) (s : Text) (rest : Tokens) : Prop where
  ink : s = ink b.tokens
  bare : sum = false → b.endsBare = true → opensArguments rest = true →
    (∃ inner, ts = .group .round inner :: rest) ∨ Has isBareType ts
  sum : startsLifetime ts = true → b.endsBare = true → opensArguments rest = true → Has isBareType ts

/-- A lifetime is a bound that is not by a trait. -/
theorem bound_of_lifetime {place : BoundPlace} {b : BoundForm} {rest : Tokens}
    (h : bound r place ts = some (b, rest)) (hts : startsLifetime ts = true) :
    (∃ t, ts = .lifetime t :: rest) ∧ b.isTrait = false ∧ b.endsBare = false := by
  unfold startsLifetime at hts
  split at hts
  · cases h
    exact ⟨⟨_, rfl⟩, rfl, rfl⟩
  · cases hts

theorem after_bounds (hr : CopiesNested r) (sum : Bool) (place : BoundPlace) (ts : Tokens) :
    After [] (BoundsFit sum ts) (bounds r sum place) ts := by
  refine ((after_bound hr place ts).also fun b rest => bound_of_lifetime).bind ?_
  rintro first _ mid hmid ⟨⟨rfl, -, hbare⟩, hlife⟩
  refine .ite (fun hsum => ?_) fun hsum => .pureBind (.guard fun htrait => ?_)
  · refine (after_boundsFrom hr place first mid).seq fun all s rest _ hall => .guard fun htrait => .pure ?_
    refine ⟨hall.ink, by simp [hsum], fun hts hall' hopen => ?_⟩
    obtain ⟨⟨t, rfl⟩, hfirst, hfirstBare⟩ := hlife hts
    have hplus : startsOp "+" mid = true := (hall.isTrait htrait).resolve_left (by simp [hfirst])
    obtain ⟨-, h⟩ | ⟨-, hends | hhas⟩ := hall.bare hall' hopen
    · simp [hfirstBare] at h
    · exact .here (isBareType_of_sum hplus hends)
    · exact hhas.mono hmid
  · refine .pure ⟨rfl, fun _ => hbare, fun hts => ?_⟩
    simp [(hlife hts).2.1] at htrait

/-! ## Arguments -/

theorem after_argument (hr : CopiesNested r) (ts : Tokens) :
    After [] (ItemFits ts) (argument r) ts := by
  have hcopy : After [] (fun a s _ => s = ink a.2 ∧ a.1 = isLifetimeItem ts) (argument r) ts := by
    refine .branch (fun hlife => ?_) fun hlife => .branch (fun _ => ?_) fun _ => ?_
    · exact .copy copies_lifetime fun _ _ _ => .pure ⟨rfl, hlife.symm⟩
    · exact .copy (copies_constArgument hr) fun _ _ _ => .pure ⟨rfl, hlife.symm⟩
    refine (hr.type true ts).bind fun type s mid _ h => ?_
    cases type.shape with
    | name =>
      refine .branch (fun _ => ?_) fun _ => .branch (fun _ => ?_) fun _ => .pure ⟨h.ink, hlife.symm⟩
      · refine .copy (copies_op _) fun _ _ _ => .branch (fun _ => ?_) fun _ => ?_
        · exact .copy (copies_constArgument hr) fun _ _ _ => .pure ⟨by simp [h.ink], hlife.symm⟩
        · exact .copy hr.typeTokens fun _ _ _ => .pure ⟨by simp [h.ink], hlife.symm⟩
      · refine .copy (copies_op _) fun _ _ _ => .copy (copies_boundsUntil (after_boundTokens hr _)) ?_
        exact fun _ _ _ => .pure ⟨by simp [h.ink], hlife.symm⟩
    | _ => exact .pure ⟨h.ink, hlife.symm⟩
  exact (hcopy.also (pairs_argument hr.pairs ts)).imp fun _ _ _ _ h => ⟨h.1.1, h.2, fun _ => h.1.2⟩

theorem after_arguments (hr : CopiesNested r) (hts : isOrdered ts = true) :
    After [] (fun out s _ => s = ink out) (arguments r) ts :=
  after_argumentList (after_argument hr) hts

end RuleFormat.Parser
