import RuleFormat.Parameter
import RuleFormat.Proofs.Brackets

/-!
# Rules take paired tokens

Outside of groups, the rules for types, bounds and patterns open an angle bracket only where they close
it again, take a minus sign only in an arrow or in front of a number, and take a comma only between
angle brackets.  So the tokens of a declaration are paired (`Paired`), whatever stands in its groups:
`paired_of_declaration`.

`Pairs` says of a rule that it takes paired tokens, and `Closes` says of one behind an opening angle
bracket that it closes this bracket.  There is one lemma for each way to put rules together, and one for
each rule of the grammar that stands outside of groups.
-/

namespace RuleFormat.Parser

variable {α β : Type} {b : Bool} {r : Nested}

/-- A rule takes paired tokens; the flag allows commas outside of angle brackets. -/
def Pairs (b : Bool) (p : Parser α) : Prop :=
  ∀ ts a rest, p ts = some (a, rest) → ∃ taken, ts = taken ++ rest ∧ Paired b taken

/-- A rule takes the rest of what stands between angle brackets, the closing one, and paired tokens. -/
def Closes (b : Bool) (p : Parser α) : Prop :=
  ∀ ts a rest, p ts = some (a, rest) → ∃ inside j taken,
    ts = inside ++ .punct '>' j :: (taken ++ rest) ∧ Paired true inside ∧ Paired b taken

/-! ## Putting rules together -/

theorem bind_eq_some {p : Parser α} {f : α → Parser β} {ts rest : Tokens} {y : β}
    (h : (p >>= f) ts = some (y, rest)) : ∃ x mid, p ts = some (x, mid) ∧ f x mid = some (y, rest) := by
  obtain ⟨⟨x, mid⟩, hp, hf⟩ := Option.bind_eq_some_iff.1 h
  exact ⟨x, mid, hp, hf⟩

namespace Pairs

theorem pure (a : α) : Pairs b (pure a : Parser α) := by
  intro ts a' rest h
  cases h
  exact ⟨[], rfl, .nil⟩

theorem bind {p : Parser α} {f : α → Parser β} (hp : Pairs b p) (hf : ∀ a, Pairs b (f a)) :
    Pairs b (p >>= f) := by
  intro ts y rest h
  obtain ⟨x, mid, hx, hy⟩ := bind_eq_some h
  obtain ⟨s, rfl, hs⟩ := hp _ _ _ hx
  obtain ⟨s', rfl, hs'⟩ := hf x _ _ _ hy
  exact ⟨s ++ s', (List.append_assoc ..).symm, hs.append hs'⟩

theorem ite {c : Prop} [Decidable c] {p q : Parser α} (hp : Pairs b p) (hq : Pairs b q) :
    Pairs b (if c then p else q) := by
  split
  · exact hp
  · exact hq

theorem failure : Pairs b (failure : Parser α) := by
  intro ts a rest h
  cases h

theorem guard (c : Prop) [Decidable c] : Pairs b (guard c : Parser Unit) := ite (pure ()) failure

theorem ahead (test : Tokens → Bool) : Pairs b (ahead test) := by
  intro ts a rest h
  cases h
  exact ⟨[], rfl, .nil⟩

/-- A choice by what stands ahead. -/
theorem branch {test : Tokens → Bool} {p q : Parser α} (hp : Pairs b p) (hq : Pairs b q) :
    Pairs b (do if ← Parser.ahead test then p else q) :=
  bind (ahead test) fun _ => ite hp hq

theorem commas {p : Parser α} (h : Pairs b p) : Pairs true p := by
  intro ts a rest hp
  obtain ⟨taken, heq, hpaired⟩ := h ts a rest hp
  exact ⟨taken, heq, hpaired.commas⟩

theorem optional {test : Tokens → Bool} {p : Parser Tokens} (h : Pairs b p) :
    Pairs b (optional test p) :=
  branch h (pure _)

theorem keepingIf {test : α → Bool} {keep : α → Tokens → α} {p : Parser α} (h : Pairs b p) :
    Pairs b (keepingIf test keep p) := by
  intro ts a rest hk
  unfold Parser.keepingIf at hk
  split at hk
  · rename_i a' rest' hp
    obtain ⟨-, rfl⟩ := Prod.mk.inj (Option.some.inj hk)
    exact h _ _ _ hp
  · cases hk

theorem verbatim {p : Parser α} (h : Pairs b p) : Pairs b (verbatim p) := by
  intro ts a rest hk
  unfold Parser.verbatim at hk
  split at hk
  · rename_i a' rest' hp
    obtain ⟨-, rfl⟩ := Prod.mk.inj (Option.some.inj hk)
    exact h _ _ _ hp
  · cases hk

theorem repeatWhile {test : Tokens → Bool} {p : Parser α} (h : Pairs b p) :
    Pairs b (repeatWhile test p) := by
  have hstep : Pairs b (do if ← Parser.ahead test then return some (← p) else return none) :=
    branch (bind h fun _ => pure _) (pure _)
  have hrounds : ∀ n, Pairs b (repeatUpTo
      (do if ← Parser.ahead test then return some (← p) else return none) n) := by
    intro n
    induction n with
    | zero =>
      intro ts a rest hn
      cases hn
    | succ n ih =>
      refine bind hstep fun a => ?_
      cases a with
      | none => exact pure _
      | some a => exact bind ih fun _ => pure _
  exact fun ts => hrounds _ ts

end Pairs

/-! ## Single tokens -/

/-- The tokens of an operator, of which the last is joint or not. -/
def operatorWith (j : Bool) : Text → Tokens
  | [] => []
  | [c] => [.punct c j]
  | c :: cs => .punct c true :: operatorWith j cs

theorem exists_operatorWith {cs : Text} {ts : Tokens} (h : startsOp cs ts = true) :
    ∃ j, ts = operatorWith j cs ++ ts.drop cs.length := by
  induction cs generalizing ts with
  | nil => exact ⟨false, rfl⟩
  | cons c cs ih =>
    cases cs with
    | nil =>
      unfold startsOp at h
      split at h <;> simp_all [operatorWith]
    | cons d cs =>
      cases ts with
      | nil => cases h
      | cons t ts =>
        cases t with
        | punct e joint =>
          simp only [startsOp, Bool.and_eq_true, beq_iff_eq] at h
          obtain ⟨⟨rfl, rfl⟩, h⟩ := h
          obtain ⟨j, hj⟩ := ih h
          refine ⟨j, ?_⟩
          conv_lhs => rw [hj]
          rfl
        | _ => cases h

theorem op_eq_some {cs : Text} {ts out rest : Tokens} (h : op cs ts = some (out, rest)) :
    out = operator cs ∧ ∃ j, ts = operatorWith j cs ++ rest := by
  unfold op at h
  split at h
  · rename_i hs
    obtain ⟨rfl, rfl⟩ := Prod.mk.inj (Option.some.inj h)
    exact ⟨rfl, exists_operatorWith hs⟩
  · cases h

theorem paired_operatorWith {cs : Text} (h : cs.all (fun c => !(Token.punct c false).isMark) = true)
    (j : Bool) : Paired b (operatorWith j cs) := by
  induction cs with
  | nil => exact .nil
  | cons c cs ih =>
    rw [List.all_cons, Bool.and_eq_true] at h
    have hfalse : (Token.punct c false).isMark = false := by simpa using h.1
    have hc : ∀ j, (Token.punct c j).isMark = false := fun _ => hfalse
    cases cs with
    | nil => exact .token (hc j) .nil
    | cons d cs => exact .token (hc true) (ih h.2)

theorem pairs_op {cs : Text} (h : cs.all (fun c => !(Token.punct c false).isMark) = true) :
    Pairs b (op cs) := by
  intro ts a rest hop
  obtain ⟨-, j, hj⟩ := op_eq_some hop
  exact ⟨_, hj, paired_operatorWith h j⟩

theorem pairs_optionalOp {cs : Text} (h : cs.all (fun c => !(Token.punct c false).isMark) = true) :
    Pairs b (optionalOp cs) :=
  .optional (pairs_op h)

theorem pairs_arrow : Pairs b (op "->") := by
  intro ts a rest hop
  obtain ⟨-, j, hj⟩ := op_eq_some hop
  exact ⟨_, hj, .arrow .nil⟩

theorem pairs_comma : Pairs true (op ",") := by
  intro ts a rest hop
  obtain ⟨-, j, hj⟩ := op_eq_some hop
  exact ⟨_, hj, .comma .nil⟩

/-- What stands between angle brackets does not matter outside of them. -/
theorem Pairs.openAngle {f : Tokens → Parser α} (hf : ∀ a, Closes b (f a)) :
    Pairs b (op "<" >>= f) := by
  intro ts y rest h
  obtain ⟨x, mid, hx, hy⟩ := bind_eq_some h
  obtain ⟨-, j, rfl⟩ := op_eq_some hx
  obtain ⟨inside, j', taken, rfl, hin, htaken⟩ := hf x _ _ _ hy
  exact ⟨.punct '<' j :: (inside ++ .punct '>' j' :: taken), by simp [operatorWith],
    .angle hin htaken⟩

theorem Closes.bind {p : Parser α} {f : α → Parser β} (hp : Pairs true p)
    (hf : ∀ a, Closes b (f a)) : Closes b (p >>= f) := by
  intro ts y rest h
  obtain ⟨x, mid, hx, hy⟩ := bind_eq_some h
  obtain ⟨s, rfl, hs⟩ := hp _ _ _ hx
  obtain ⟨inside, j, taken, rfl, hin, htaken⟩ := hf x _ _ _ hy
  exact ⟨s ++ inside, j, taken, by rw [List.append_assoc], hs.append hin, htaken⟩

theorem Closes.closeAngle {f : Tokens → Parser α} (hf : ∀ a, Pairs b (f a)) :
    Closes b (op ">" >>= f) := by
  intro ts y rest h
  obtain ⟨x, mid, hx, hy⟩ := bind_eq_some h
  obtain ⟨-, j, rfl⟩ := op_eq_some hx
  obtain ⟨taken, rfl, htaken⟩ := hf x _ _ _ hy
  exact ⟨[], j, taken, rfl, .nil, htaken⟩

/-- A rule that takes one token, which is no mark. -/
theorem Pairs.one {p : Parser α} (h : ∀ ts a rest, p ts = some (a, rest) →
    ∃ t, ts = t :: rest ∧ t.isMark = false) : Pairs b p := by
  intro ts a rest hp
  obtain ⟨t, rfl, ht⟩ := h ts a rest hp
  exact ⟨[t], rfl, .token ht .nil⟩

theorem pairs_word (w : Text) : Pairs b (word w) := by
  refine .one fun ts a rest h => ?_
  unfold word at h
  split at h
  · split at h
    · cases h
      exact ⟨_, rfl, rfl⟩
    · cases h
  · cases h

theorem pairs_optionalWord (w : Text) : Pairs b (optionalWord w) := .optional (pairs_word w)

theorem pairs_anyWord : Pairs b anyWord := by
  refine .one fun ts a rest h => ?_
  unfold anyWord at h
  split at h <;> cases h
  exact ⟨_, rfl, rfl⟩

theorem pairs_ident : Pairs b ident := by
  refine .one fun ts a rest h => ?_
  unfold ident at h
  split at h
  · split at h
    · cases h
    · cases h
      exact ⟨_, rfl, rfl⟩
  · cases h

theorem pairs_lifetime : Pairs b lifetime := by
  refine .one fun ts a rest h => ?_
  unfold lifetime at h
  split at h <;> cases h
  exact ⟨_, rfl, rfl⟩

theorem pairs_literal : Pairs b literal := by
  intro ts a rest h
  unfold literal at h
  split at h
  · cases h
    exact ⟨[_], rfl, .token rfl .nil⟩
  · split at h
    · cases h
      exact ⟨[_], rfl, .token rfl .nil⟩
    · cases h
  · split at h
    · cases h
      exact ⟨[_, _], rfl, .minus .nil⟩
    · cases h
  · cases h

theorem pairs_group (d : Delimiter) (p : Parser Tokens) : Pairs b (group d p) := by
  refine .one fun ts a rest h => ?_
  unfold group at h
  split at h
  · split at h
    · split at h <;> cases h
      exact ⟨_, rfl, rfl⟩
    · cases h
  · cases h

theorem pairs_anyGroup : Pairs b anyGroup := by
  refine .one fun ts a rest h => ?_
  unfold anyGroup at h
  split at h <;> cases h
  exact ⟨_, rfl, rfl⟩

/-! ## Attributes, paths and bounds -/

/-- The rules for nested parts take paired tokens, those for arguments with commas. -/
structure PairsNested (r : Nested) : Prop where
  type : ∀ sum, Pairs false (r.type sum)
  arguments : Pairs true r.arguments
  bound : ∀ place, Pairs false (r.bound place)
  pattern : Pairs false r.pattern

theorem PairsNested.typeTokens (hr : PairsNested r) : Pairs false r.typeTokens :=
  .bind (hr.type true) fun _ => .pure _

theorem PairsNested.boundTokens (hr : PairsNested r) (place : BoundPlace) :
    Pairs false (r.boundTokens place) :=
  .bind (hr.bound place) fun _ => .pure _

theorem pairs_attributes : Pairs b (attributes r) := by
  unfold attributes
  refine .bind (.repeatWhile ?_) fun _ => .pure _
  exact .bind (pairs_op rfl) fun _ => .bind (pairs_group _ _) fun _ => .pure _

theorem pairs_argumentList {item : Parser (Bool × Tokens)} (h : Pairs false item) :
    Pairs true (argumentList item) := by
  unfold argumentList
  refine .bind (.repeatWhile ?_) fun _ => .pure _
  exact .bind h.commas fun _ => .branch (.pure _) (.bind pairs_comma fun _ => .pure _)

theorem pairs_constArgument : Pairs b (constArgument r) :=
  .branch pairs_literal (.branch pairs_anyWord (pairs_group _ _))

theorem pairs_angleArguments (hr : PairsNested r) : Pairs b (angleArguments r) := by
  unfold angleArguments
  refine .bind (pairs_optionalOp rfl) fun _ => .openAngle fun _ => ?_
  exact .bind hr.arguments fun _ => .closeAngle fun _ => .pure _

theorem pairs_segment (hr : PairsNested r) (inExpr : Bool) (separator : Tokens) :
    Pairs b (segment r inExpr separator) := by
  unfold segment
  refine .branch (.bind pairs_anyWord fun _ => .pure _) ?_
  refine .bind (.ahead _) fun _ => .bind (.guard _) fun _ => .bind pairs_anyWord fun _ => ?_
  exact .branch (.bind (pairs_angleArguments hr) fun _ => .pure _) (.pure _)

theorem pairs_moreSegments (hr : PairsNested r) (inExpr : Bool) (go : Tokens → Bool) :
    Pairs b (moreSegments r inExpr go) :=
  .repeatWhile (.bind (pairs_op rfl) fun sep => pairs_segment hr inExpr sep)

theorem pairs_path (hr : PairsNested r) (inExpr : Bool) : Pairs b (path r inExpr) := by
  unfold path
  refine .bind (pairs_optionalOp rfl) fun lead => .bind (pairs_segment hr inExpr lead) fun _ => ?_
  exact .bind (pairs_moreSegments hr inExpr _) fun _ => .pure _

theorem pairs_qualifiedPath (hr : PairsNested r) (inExpr : Bool) :
    Pairs b (qualifiedPath r inExpr) := by
  unfold qualifiedPath
  refine .branch (.openAngle fun _ => ?_) (.bind (pairs_path hr inExpr) fun _ => .pure _)
  have has : Pairs true (optional (startsWord "as") do
      let head ← word "as"
      return head ++ (← path r false).tokens) :=
    .optional (.bind (pairs_word _) fun _ => .bind (pairs_path hr false) fun _ => .pure _)
  refine .bind hr.typeTokens.commas fun _ => .bind has fun _ => .closeAngle fun _ => ?_
  refine .bind (pairs_op rfl) fun sep => .bind (pairs_segment hr inExpr sep) fun _ => ?_
  exact .bind (pairs_moreSegments hr inExpr _) fun _ => .pure _

theorem pairs_macroCall : Pairs b macroCall :=
  .bind (pairs_op rfl) fun _ => .bind pairs_anyGroup fun _ => .pure _

theorem pairs_returnType (hr : PairsNested r) : Pairs false (returnType r) :=
  .branch (.bind pairs_arrow fun _ => .bind (hr.type false) fun _ => .pure _) (.pure _)

theorem pairs_roundArguments (hr : PairsNested r) : Pairs false (roundArguments r) :=
  .bind (pairs_group _ _) fun _ => .bind (pairs_returnType hr) fun _ => .pure _

theorem pairs_boundsUntil {stop : Tokens → Bool} {item : Parser Tokens} (h : Pairs b item) :
    Pairs b (boundsUntil stop item) := by
  unfold boundsUntil
  refine .branch (.pure _) (.bind h fun _ => .bind (.repeatWhile ?_) fun _ => .pure _)
  exact .bind (pairs_op rfl) fun _ => .branch (.pure _) (.bind h fun _ => .pure _)

theorem pairs_colonBounds {item : Parser Tokens} (h : Pairs b item) : Pairs b (colonBounds item) :=
  .optional (.bind (pairs_op rfl) fun _ => .bind (pairs_boundsUntil h) fun _ => .pure _)

theorem pairs_binder (hr : PairsNested r) : Pairs false (binder r) := by
  unfold binder
  refine .bind pairs_attributes fun _ => .branch ?_ (.branch ?_ ?_)
  · exact .bind pairs_lifetime fun _ => .bind (pairs_colonBounds pairs_lifetime) fun _ => .pure _
  · refine .bind (pairs_word _) fun _ => .bind pairs_ident fun _ => .bind (pairs_op rfl) fun _ => ?_
    refine .bind hr.typeTokens fun _ => .bind (.optional ?_) fun _ => .pure _
    exact .bind (pairs_op rfl) fun _ => .bind pairs_constArgument fun _ => .pure _
  · refine .bind pairs_ident fun _ => .bind (pairs_colonBounds (hr.boundTokens _)) fun _ => ?_
    refine .bind (.optional ?_) fun _ => .pure _
    exact .bind (pairs_op rfl) fun _ => .bind hr.typeTokens fun _ => .pure _

theorem pairs_listUntil {stop : Tokens → Bool} {item : Parser Tokens} (h : Pairs b item) :
    Pairs true (listUntil stop item) := by
  unfold listUntil separated
  refine .bind (.repeatWhile (.bind h.commas fun _ => .branch (.pure _) ?_)) fun _ => .pure _
  exact .bind pairs_comma fun _ => .pure _

theorem pairs_binders (hr : PairsNested r) : Pairs b (binders r) := by
  unfold binders
  refine .optional (.bind (pairs_word _) fun _ => .openAngle fun _ => ?_)
  exact .bind (pairs_listUntil (pairs_binder hr)) fun _ => .closeAngle fun _ => .pure _

theorem pairs_capture : Pairs b capture := by
  unfold capture
  refine .bind (pairs_word _) fun _ => .openAngle fun _ => ?_
  refine .bind (pairs_argumentList ?_) fun _ => .closeAngle fun _ => .pure _
  refine .branch (.bind pairs_lifetime fun _ => .pure _) (.bind (.ahead _) fun _ => ?_)
  exact .bind (.guard _) fun _ => .bind pairs_anyWord fun _ => .pure _

theorem pairs_traitPath (hr : PairsNested r) : Pairs false (traitPath r) := by
  unfold traitPath
  refine .bind (pairs_path hr false) fun p => ?_
  cases p.stem? with
  | none => exact .pure _
  | some stem =>
    refine .branch (.bind (pairs_optionalOp rfl) fun _ => ?_) (.pure _)
    exact .bind (pairs_roundArguments hr) fun _ => .pure _

theorem pairs_traitBound (hr : PairsNested r) (place : BoundPlace) :
    Pairs false (traitBound r place) := by
  unfold traitBound
  dsimp only
  refine .bind (pairs_binders hr) fun _ => .branch ?_ ?_
  · refine .bind (pairs_group _ _) fun _ => .bind (.guard _) fun _ => ?_
    refine .bind (pairs_optionalOp rfl) fun _ => .ite ?_ ?_
    · refine .bind (pairs_binders hr) fun _ => .bind (pairs_traitPath hr) fun _ => ?_
      exact .bind (.guard _) fun _ => .pure _
    · refine .bind (.pure _) fun _ => .bind (pairs_traitPath hr) fun _ => ?_
      exact .bind (.guard _) fun _ => .pure _
  · refine .bind (pairs_optionalWord _) fun _ => .bind (.guard _) fun _ => ?_
    refine .bind (pairs_optionalOp rfl) fun _ => .ite ?_ ?_
    · refine .bind (pairs_binders hr) fun _ => .bind (pairs_traitPath hr) fun _ => ?_
      exact .bind (.guard _) fun _ => .pure _
    · refine .bind (.pure _) fun _ => .bind (pairs_traitPath hr) fun _ => ?_
      exact .bind (.guard _) fun _ => .pure _

theorem pairs_enclosedTrait (hr : PairsNested r) (place : BoundPlace) :
    Pairs false (enclosedTrait r place) := by
  intro ts a rest h
  unfold enclosedTrait at h
  split at h
  · split at h <;> cases h
    exact ⟨[_], rfl, .token rfl .nil⟩
  · exact pairs_traitBound hr place _ _ _ h

theorem pairs_bound (hr : PairsNested r) (place : BoundPlace) : Pairs false (bound r place) := by
  unfold bound
  refine .branch (.bind pairs_lifetime fun _ => .pure _) (.branch ?_ ?_)
  · exact .bind (.guard _) fun _ => .bind pairs_capture fun _ => .pure _
  · exact .bind (.keepingIf (pairs_enclosedTrait hr place)) fun _ => .pure _

theorem pairs_boundsFrom (hr : PairsNested r) (place : BoundPlace) (first : BoundForm) :
    Pairs false (boundsFrom r place first) := by
  unfold boundsFrom moreBounds
  have hmore : Pairs false (do
      let plus ← op "+"
      let form ← bound r place
      return { form with tokens := plus ++ form.tokens }) :=
    .bind (pairs_op rfl) fun _ => .bind (pairs_bound hr place) fun _ => .pure _
  exact .bind (.repeatWhile hmore) fun _ => .bind (pairs_optionalOp rfl) fun _ => .pure _

theorem pairs_bounds (hr : PairsNested r) (sum : Bool) (place : BoundPlace) :
    Pairs false (bounds r sum place) := by
  unfold bounds
  refine .bind (pairs_bound hr place) fun first => ?_
  dsimp only
  refine .ite (.bind (pairs_boundsFrom hr place first) fun _ => ?_) (.bind (.pure _) fun _ => ?_)
  · exact .bind (.guard _) fun _ => .pure _
  · exact .bind (.guard _) fun _ => .pure _

theorem pairs_argument (hr : PairsNested r) : Pairs false (argument r) := by
  unfold argument
  refine .branch (.bind pairs_lifetime fun _ => .pure _) (.branch ?_ ?_)
  · exact .bind pairs_constArgument fun _ => .pure _
  refine .bind (hr.type true) fun type => ?_
  dsimp only
  cases type.shape with
  | name =>
    refine .branch (.bind (pairs_op rfl) fun _ => .branch ?_ ?_) (.branch ?_ (.pure _))
    · exact .bind pairs_constArgument fun _ => .pure _
    · exact .bind hr.typeTokens fun _ => .pure _
    · exact .bind (pairs_op rfl) fun _ => .bind (pairs_boundsUntil (hr.boundTokens _)) fun _ => .pure _
  | _ => exact .pure _

theorem pairs_arguments (hr : PairsNested r) : Pairs true (arguments r) :=
  pairs_argumentList (pairs_argument hr)

/-! ## Types -/

theorem pairs_otherType {p : Parser Tokens} (h : Pairs b p) : Pairs b (otherType p) :=
  .bind h fun _ => .pure _

theorem pairs_callConvention : Pairs b callConvention :=
  .optional (.bind (pairs_word _) fun _ => .bind (.optional pairs_literal) fun _ => .pure _)

theorem pairs_functionPointer (hr : PairsNested r) : Pairs false (functionPointer r) := by
  unfold functionPointer
  refine .bind (pairs_optionalWord _) fun _ => .bind pairs_callConvention fun _ => ?_
  refine .bind (pairs_word _) fun _ => .bind (pairs_group _ _) fun _ => ?_
  exact .bind (pairs_returnType hr) fun _ => .pure _

theorem pairs_requiredBounds (hr : PairsNested r) (first : BoundForm) :
    Pairs false (requiredBounds r first) := by
  unfold requiredBounds
  refine .bind (.repeatWhile ?_) fun _ => .pure _
  exact .bind (pairs_op rfl) fun _ => .bind (pairs_bound hr _) fun _ => .pure _

theorem pairs_roundType (hr : PairsNested r) (sum : Bool) : Pairs false (roundType r sum) := by
  have hsum : ∀ first, Pairs false (do
      let all ← requiredBounds r first
      return (⟨all.tokens, .other, all.endsBare⟩ : TypeForm)) :=
    fun first => .bind (pairs_requiredBounds hr first) fun _ => .pure _
  -- behind the group nothing is taken, or bounds are
  have hgroup : ∀ {d : Delimiter} {inner rest rest' : Tokens} {a : TypeForm} {p : Parser TypeForm},
      Pairs false p → p rest = some (a, rest') →
      ∃ taken, .group d inner :: rest = taken ++ rest' ∧ Paired false taken := by
    intro d inner rest rest' a p hp h
    obtain ⟨taken, rfl, htaken⟩ := hp _ _ _ h
    exact ⟨.group d inner :: taken, rfl, .token rfl htaken⟩
  intro ts a rest h
  unfold roundType at h
  split at h
  · split at h
    · dsimp only at h
      split at h
      · cases h
        exact ⟨[_], rfl, .token rfl .nil⟩
      · cases h
        exact ⟨[_], rfl, .token rfl .nil⟩
      · cases h
        exact ⟨[_], rfl, .token rfl .nil⟩
      · refine hgroup (.bind (.ahead _) fun _ => ?_) h
        exact .bind (pairs_requiredBounds hr _) fun _ => .pure _
      · rename_i first _
        refine hgroup (.bind (.ahead _) fun _ => .ite ?_ (.pure _)) h
        cases first.shape with
        | other => exact .pure _
        | _ => exact hsum _
    · cases h
  · cases h

theorem pairs_pathType (hr : PairsNested r) (sum : Bool) (names : Tokens) :
    Pairs false (pathType r sum names) := by
  unfold pathType
  refine .bind (pairs_qualifiedPath hr false) fun _ => .ite (.pure _) ?_
  dsimp only
  refine .bind (.ahead _) fun _ => .ite (.bind pairs_macroCall fun _ => .pure _) ?_
  refine .bind (.ahead _) fun _ => .ite (.bind (.ahead _) fun _ => .ite ?_ ?_) (.pure _)
  · exact .bind (pairs_boundsFrom hr _ _) fun _ => .pure _
  · exact .bind (.pure _) fun _ => .pure _

theorem pairs_dynType (hr : PairsNested r) (sum : Bool) : Pairs false (dynType r sum) := by
  unfold dynType
  refine .branch (pairs_otherType (.verbatim ?_)) ?_
  · exact .bind (pairs_word _) fun _ => .bind (pairs_op rfl) fun _ => pairs_bounds hr sum _
  · exact .bind (pairs_word _) fun _ => .bind (pairs_bounds hr sum _) fun _ => .pure _

theorem pairs_boundType (hr : PairsNested r) (sum : Bool) : Pairs false (boundType r sum) := by
  unfold boundType
  refine .bind (pairs_binders hr) fun names => .bind (.ahead _) fun _ => .bind (.guard _) fun _ => ?_
  exact .branch (.bind (pairs_functionPointer hr) fun _ => .pure _) (pairs_pathType hr sum names)

theorem pairs_pointerType (hr : PairsNested r) : Pairs false (pointerType r) := by
  unfold pointerType
  refine .bind (pairs_op rfl) fun _ => .branch ?_ ?_
  · exact .bind (pairs_word _) fun _ => .bind (hr.type false) fun _ => .pure _
  · exact .bind (pairs_word _) fun _ => .bind (hr.type false) fun _ => .pure _

theorem pairs_referenceType (hr : PairsNested r) : Pairs false (referenceType r) := by
  unfold referenceType
  refine .bind (pairs_op rfl) fun _ => .bind (.optional pairs_lifetime) fun _ => ?_
  exact .bind (pairs_optionalWord _) fun _ => .bind (hr.type false) fun _ => .pure _

theorem pairs_implType (hr : PairsNested r) (sum : Bool) : Pairs false (implType r sum) :=
  .bind (pairs_word _) fun _ => .bind (pairs_bounds hr sum _) fun _ => .pure _

theorem pairs_lifetimeSum (hr : PairsNested r) : Pairs false (lifetimeSum r) :=
  .bind (pairs_bounds hr true _) fun _ => .pure _

theorem pairs_type (hr : PairsNested r) (sum : Bool) : Pairs false (type r sum) := by
  unfold type
  refine .branch (pairs_boundType hr sum) (.branch (pairs_roundType hr sum) ?_)
  refine .branch (pairs_functionPointer hr) (.branch (pairs_pathType hr sum []) ?_)
  refine .branch (pairs_dynType hr sum) (.branch (pairs_otherType (pairs_group _ _)) ?_)
  refine .branch (pairs_pointerType hr) (.branch (pairs_referenceType hr) ?_)
  refine .branch (pairs_otherType (pairs_op rfl)) (.branch (pairs_implType hr sum) ?_)
  exact .branch (pairs_otherType pairs_anyWord) (.branch (pairs_lifetimeSum hr) .failure)

/-! ## Patterns -/

theorem pairs_otherPattern {p : Parser Tokens} (h : Pairs b p) : Pairs b (otherPattern p) :=
  .bind h fun _ => .pure _

theorem pairs_rangeEnd (hr : PairsNested r) : Pairs b (rangeEnd r) := by
  unfold rangeEnd
  refine .branch pairs_literal (.branch (.bind (pairs_qualifiedPath hr true) fun _ => .pure _) ?_)
  exact .bind (pairs_word _) fun _ => .bind (pairs_group _ _) fun _ => .pure _

theorem pairs_rangeDots : Pairs b rangeDots := by
  unfold rangeDots
  refine .branch (.bind (pairs_op rfl) fun _ => .pure _) (.branch ?_ ?_)
  · exact .bind (pairs_op rfl) fun _ => .pure _
  · exact .bind (pairs_op rfl) fun _ => .pure _

theorem pairs_rangeFrom (hr : PairsNested r) (start : Tokens) : Pairs b (rangeFrom r start) := by
  unfold rangeFrom
  refine .bind pairs_rangeDots fun _ => .branch (.bind (.guard _) fun _ => .pure _) ?_
  exact .bind (pairs_rangeEnd hr) fun _ => .pure _

theorem pairs_rangeTo (hr : PairsNested r) : Pairs b (rangeTo r) := by
  unfold rangeTo
  refine .bind (.ahead _) fun _ => .bind (.guard _) fun _ => .bind pairs_rangeDots fun _ => ?_
  refine .branch (.bind (.guard _) fun _ => .pure _) ?_
  exact .bind (pairs_rangeEnd hr) fun _ => .pure _

theorem pairs_literalPattern (hr : PairsNested r) : Pairs b (literalPattern r) :=
  .bind (pairs_rangeEnd hr) fun start => .branch (pairs_rangeFrom hr start) (.pure _)

theorem pairs_pathPattern (hr : PairsNested r) : Pairs b (pathPattern r) := by
  unfold pathPattern
  refine .bind (pairs_qualifiedPath hr true) fun x => ?_
  refine .bind (.ahead _) fun _ => .ite (.bind pairs_macroCall fun _ => .pure _) ?_
  refine .branch (.bind (pairs_group _ _) fun _ => .pure _) ?_
  refine .branch (.bind (pairs_group _ _) fun _ => .pure _) ?_
  exact .branch (pairs_rangeFrom hr _) (.pure _)

theorem pairs_bindingPattern (hr : PairsNested r) : Pairs false (bindingPattern r) := by
  unfold bindingPattern
  refine .bind (pairs_optionalWord _) fun _ => .bind (pairs_optionalWord _) fun _ => ?_
  refine .bind (.ahead _) fun _ => .bind (.guard _) fun _ => .bind pairs_anyWord fun _ => ?_
  refine .bind (.optional ?_) fun _ => .pure _
  exact .bind (pairs_op rfl) fun _ => .bind hr.pattern fun _ => .pure _

theorem pairs_referencePattern (hr : PairsNested r) : Pairs false (referencePattern r) :=
  .bind (pairs_op rfl) fun _ => .bind (pairs_optionalWord _) fun _ => .bind hr.pattern fun _ => .pure _

theorem pairs_boxPattern (hr : PairsNested r) : Pairs false (boxPattern r) := by
  unfold boxPattern
  refine .bind (.verbatim ?_) fun _ => .pure _
  exact .bind (pairs_word _) fun _ => .bind hr.pattern fun _ => .pure _

theorem pairs_pattern (hr : PairsNested r) : Pairs false (pattern r) := by
  unfold pattern
  refine .branch (pairs_pathPattern hr) (.branch (pairs_otherPattern pairs_anyWord) ?_)
  refine .branch (pairs_boxPattern hr) (.branch (pairs_literalPattern hr) ?_)
  refine .branch (pairs_bindingPattern hr) ?_
  refine .branch (pairs_otherPattern (pairs_referencePattern hr)) ?_
  refine .branch (pairs_otherPattern (pairs_group _ _)) ?_
  refine .branch (pairs_otherPattern (pairs_group _ _)) ?_
  exact .branch (pairs_rangeTo hr) .failure

/-! ## Declarations -/

theorem pairs_nested (n : Nat) : PairsNested (nested n) := by
  induction n with
  | zero => exact ⟨fun _ => .failure, .failure, fun _ => .failure, .failure⟩
  | succ n ih => exact ⟨pairs_type ih, pairs_arguments ih, pairs_bound ih, pairs_pattern ih⟩

theorem pairs_parameterPattern (hr : PairsNested r) : Pairs false (parameterPattern r) := by
  unfold parameterPattern
  refine .branch (.pure _) (.bind hr.pattern fun _ => .bind (pairs_op rfl) fun _ => .pure _)

theorem pairs_typedDeclaration (hr : PairsNested r) : Pairs false (typedDeclaration r) :=
  .bind (pairs_parameterPattern hr) fun _ => .bind hr.typeTokens fun _ => .pure _

/-- The tokens of a declaration that is no receiver are paired. -/
theorem paired_of_declaration {n : Nat} {ts type : Tokens} {name : Text}
    (h : declaration (nested n) ts = some (.typed name type, [])) : Paired false ts := by
  have hr := pairs_nested n
  obtain ⟨attrs, mid, hattrs, hrest⟩ := bind_eq_some h
  obtain ⟨front, rfl, hfront⟩ := pairs_attributes (b := false) _ _ _ hattrs
  split at hrest
  · cases hrest
  · obtain ⟨taken, rfl, htaken⟩ := pairs_typedDeclaration hr _ _ _ hrest
    rw [List.append_nil]
    exact hfront.append htaken

end RuleFormat.Parser
