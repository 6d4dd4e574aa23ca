import RuleFormat.Key
import RuleFormat.Parameter
import RuleFormat.Proofs.PrintedStatements

/-!
# Keys that are written like declarations

A key names the type of a parameter as a text, and the type of the parameter itself is written out from
what was read.  In a declaration `name: type` the name is one word, whatever identifier it is
(`lex_declaration`, `pattern_word`), so the rest is read as the type alone is read.  Stable tokens are
written out as they stand, hence a key with the type as it was declared accepts the parameter.
-/

namespace RuleFormat

namespace Lexer

/-! ## A name in front of a colon -/

/-- What an identifier looks like: a raw one has a mark in front of its name. -/
theorem identifier?_cases {name : Text} (h : identifier? name = some (name, [])) :
    (∃ c cs, name = c :: cs ∧ isIdentStart c = true ∧ cs.dropWhile isIdentContinue = []) ∨
      ∃ c cs, name = 'r' :: '#' :: c :: cs ∧ isIdentStart c = true ∧
        cs.dropWhile isIdentContinue = [] ∧ neverRaw.contains (c :: cs) = false := by
  have hparts : ∀ {t : Text}, Literal.afterIdent? t = some [] →
      ∃ c cs, t = c :: cs ∧ isIdentStart c = true ∧ cs.dropWhile isIdentContinue = [] := by
    intro t ht
    unfold Literal.afterIdent? at ht
    split at ht
    · cases ht
    · rename_i c cs
      split at ht
      · exact ⟨c, cs, rfl, ‹_›, Option.some.inj ht⟩
      · cases ht
  unfold identifier? at h
  split at h
  · rename_i cs
    obtain ⟨rest, hrest, h⟩ := Option.bind_eq_some_iff.1 h
    dsimp only at h
    split at h
    · cases h
    · rename_i hraw
      obtain ⟨-, rfl⟩ := Prod.mk.inj (Option.some.inj h)
      obtain ⟨c, cs, rfl, hc, hcs⟩ := hparts hrest
      rw [List.length_nil, Nat.sub_zero, List.take_length] at hraw
      exact .inr ⟨c, cs, rfl, hc, hcs, by simpa using hraw⟩
  · obtain ⟨rest, hrest, h⟩ := Option.bind_eq_some_iff.1 h
    obtain ⟨-, rfl⟩ := Prod.mk.inj (Option.some.inj h)
    exact .inl (hparts hrest)

section

variable {c : Char} {cs u v : Text}

theorem not_isDigit_of_isIdentStart (hc : isIdentStart c = true) : Literal.isDigit c = false := by
  by_contra hdigit
  rw [Bool.not_eq_false, Literal.isDigit, Bool.and_eq_true, decide_eq_true_eq,
    decide_eq_true_eq] at hdigit
  have hlow : 48 ≤ c.toNat := hdigit.1
  have hhigh : c.toNat ≤ 57 := hdigit.2
  have hall : ∀ n ∈ List.range' 48 10, isIdentStart (Char.ofNat n) = false := by decide +kernel
  have hstart := hall c.toNat (by rw [List.mem_range'_1]; omega)
  rw [Char.ofNat_toNat, hc] at hstart
  cases hstart

/-- An identifier is read as a word when its first letters begin no literal. -/
theorem leaf?_of_identifier? {name rest : Text} (hident : identifier? (c :: v) = some (name, rest))
    (hstring : Literal.afterAnyString? (c :: v) = none)
    (hcharacter : Literal.afterCharacter? (c :: v) = none)
    (hbroken : brokenLiterals.any (·.isPrefixOf (c :: v)) = false) :
    leaf? (c :: v) = some (.word name, rest) := by
  have hc := identifier?_head hident
  have hnumber : Literal.afterNumber? (c :: v) = none := by
    rw [Option.eq_none_iff_forall_ne_some]
    intro rest h
    have hdigit := Literal.afterNumber?_head h
    rw [not_isDigit_of_isIdentStart hc] at hdigit
    cases hdigit
  have hafter : Literal.after? (c :: v) = none := by
    rw [Literal.after?, hstring, hcharacter, hnumber]
    rfl
  have hpunct : startsPunct (c :: v) = false := by
    have hall : ∀ d ∈ punctuation, (!isIdentStart d) = true := List.all_eq_true.1 (by decide +kernel)
    unfold startsPunct
    split
    · rfl
    · rfl
    · rename_i heq
      cases heq
      by_contra hmem
      have hd := hall c (by simpa using hmem)
      rw [hc] at hd
      cases hd
    · rfl
  unfold leaf?
  rw [hafter]
  dsimp only
  split
  · rename_i heq
    cases heq
  · rename_i heq
    cases heq
    exact absurd hc (by decide)
  · rename_i heq
    cases heq
    rw [hpunct, word?, hbroken]
    simp [hident]

/-! ## Plain identifiers -/

theorem dropWhile_colon (hcs : cs.dropWhile isIdentContinue = []) (u : Text) :
    (cs ++ ':' :: u).dropWhile isIdentContinue = ':' :: u := by
  have hcolon : isIdentContinue ':' = false := by decide
  rw [List.dropWhile_append, hcs]
  simp [hcolon]

/-- The letters of an identifier end at the colon and at no other mark. -/
theorem ne_of_dropWhile (hv : v.dropWhile isIdentContinue = ':' :: u) (hc : isIdentContinue c = false)
    (hne : c ≠ ':') : v ≠ c :: cs := by
  rintro rfl
  rw [List.dropWhile_cons, hc] at hv
  exact hne (List.cons.inj hv).1

theorem afterRawOpen?_eq_none (k : StringKind) (hv : v.dropWhile isIdentContinue = ':' :: u) :
    Literal.afterRawOpen? k v = none := by
  have hsame : v.dropWhile (· == '#') = v := by
    cases v with
    | nil => rfl
    | cons c cs =>
      have hc : (c == '#') = false := by
        rw [beq_eq_false_iff_ne]
        rintro rfl
        exact ne_of_dropWhile hv (by decide) (by decide) rfl
      rw [List.dropWhile_cons, hc]
      rfl
  unfold Literal.afterRawOpen?
  rw [hsame]
  split
  · exact absurd rfl (ne_of_dropWhile hv (by decide) (by decide))
  · rfl

theorem afterAnyString?_eq_none (hc : isIdentStart c = true)
    (hv : v.dropWhile isIdentContinue = ':' :: u) : Literal.afterAnyString? (c :: v) = none := by
  unfold Literal.afterAnyString?
  split
  · rename_i heq
    cases heq
    exact absurd hc (by decide)
  · rename_i heq
    cases heq
    exact afterRawOpen?_eq_none _ hv
  · rename_i heq
    cases heq
    exact absurd rfl (ne_of_dropWhile hv (by decide) (by decide))
  · rename_i heq
    cases heq
    exact afterRawOpen?_eq_none _ hv
  · rename_i heq
    cases heq
    exact absurd rfl (ne_of_dropWhile hv (by decide) (by decide))
  · rename_i heq
    cases heq
    exact afterRawOpen?_eq_none _ hv
  · rfl

theorem afterCharacter?_eq_none (hc : isIdentStart c = true)
    (hv : v.dropWhile isIdentContinue = ':' :: u) : Literal.afterCharacter? (c :: v) = none := by
  unfold Literal.afterCharacter?
  split
  · rename_i heq
    cases heq
    exact absurd hc (by decide)
  · rename_i heq
    cases heq
    exact absurd rfl (ne_of_dropWhile hv (by decide) (by decide))
  · rfl

/-- Behind its letters, the beginning of a broken literal has a quote or a hash mark. -/
theorem brokenLiterals_eq_false (c : Char) (hv : v.dropWhile isIdentContinue = ':' :: u) :
    brokenLiterals.any (·.isPrefixOf (c :: v)) = false := by
  have hall : ∀ p ∈ brokenLiterals, p ≠ [] ∧ p.tail.dropWhile isIdentContinue ≠ [] ∧
      (p.tail.dropWhile isIdentContinue).head? ≠ some ':' := by decide +kernel
  rw [List.any_eq_false]
  intro p hp hbegins
  obtain ⟨hne, hmark, hcolon⟩ := hall p hp
  obtain ⟨d, ds, rfl⟩ := List.exists_cons_of_ne_nil hne
  have hbegins : d :: ds <+: c :: v := List.isPrefixOf_iff_prefix.1 hbegins
  obtain ⟨w, hw⟩ := (List.cons_prefix_cons.1 hbegins).2
  rw [List.tail_cons] at hmark hcolon
  rw [← hw, List.dropWhile_append, if_neg (by simpa using hmark)] at hv
  obtain ⟨e, es, he⟩ := List.exists_cons_of_ne_nil hmark
  rw [he, List.cons_append] at hv
  rw [he, (List.cons.inj hv).1] at hcolon
  exact hcolon rfl

theorem afterIdent?_colon (hc : isIdentStart c = true) (hcs : cs.dropWhile isIdentContinue = [])
    (u : Text) : Literal.afterIdent? (c :: cs ++ ':' :: u) = some (':' :: u) := by
  rw [List.cons_append, Literal.afterIdent?, if_pos hc, dropWhile_colon hcs u]

theorem identifier?_plain (hc : isIdentStart c = true) (hcs : cs.dropWhile isIdentContinue = [])
    (u : Text) : identifier? (c :: cs ++ ':' :: u) = some (c :: cs, ':' :: u) := by
  unfold identifier?
  split
  · rename_i heq
    exact absurd (List.cons.inj heq).2 (ne_of_dropWhile (dropWhile_colon hcs u) (by decide) (by decide))
  · rw [afterIdent?_colon hc hcs u, Option.bind_eq_bind, Option.bind_some, List.length_append,
      Nat.add_sub_cancel, List.take_left]
    rfl

theorem identifier?_raw (hc : isIdentStart c = true) (hcs : cs.dropWhile isIdentContinue = [])
    (hraw : neverRaw.contains (c :: cs) = false) (u : Text) :
    identifier? ('r' :: '#' :: (c :: cs ++ ':' :: u)) = some ('r' :: '#' :: c :: cs, ':' :: u) := by
  unfold identifier?
  split
  · rename_i heq
    obtain rfl := (List.cons.inj (List.cons.inj heq).2).2
    rw [afterIdent?_colon hc hcs u, Option.bind_eq_bind, Option.bind_some, List.length_append,
      Nat.add_sub_cancel, List.take_left]
    exact if_neg (by rw [hraw]; decide)
  · rename_i hne
    exact absurd rfl (hne _)

theorem leaf?_plain (hc : isIdentStart c = true) (hcs : cs.dropWhile isIdentContinue = []) (u : Text) :
    leaf? (c :: cs ++ ':' :: u) = some (.word (c :: cs), ':' :: u) := by
  have hv := dropWhile_colon hcs u
  exact leaf?_of_identifier? (identifier?_plain hc hcs u) (afterAnyString?_eq_none hc hv)
    (afterCharacter?_eq_none hc hv) (brokenLiterals_eq_false c hv)

theorem leaf?_raw (hc : isIdentStart c = true) (hcs : cs.dropWhile isIdentContinue = [])
    (hraw : neverRaw.contains (c :: cs) = false) (u : Text) :
    leaf? ('r' :: '#' :: c :: cs ++ ':' :: u) = some (.word ('r' :: '#' :: c :: cs), ':' :: u) := by
  have hhash : c ≠ '#' := by
    rintro rfl
    exact absurd hc (by decide)
  have hquote : c ≠ '"' := by
    rintro rfl
    exact absurd hc (by decide)
  refine leaf?_of_identifier? (identifier?_raw hc hcs hraw u) ?_ rfl ?_
  · show Literal.afterRawOpen? .text ('#' :: c :: (cs ++ ':' :: u)) = none
    have hdrop : ('#' :: c :: (cs ++ ':' :: u)).dropWhile (· == '#') = c :: (cs ++ ':' :: u) := by
      simp [hhash]
    unfold Literal.afterRawOpen?
    rw [hdrop]
    dsimp only
    split
    · rename_i heq
      exact absurd (List.cons.inj heq).1 hquote
    · rfl
  · simp [brokenLiterals, List.isPrefixOf, hhash.symm, hquote.symm]

/-- An identifier in front of a colon is one word. -/
theorem leaf?_name {name : Text} (h : identifier? name = some (name, [])) (u : Text) :
    leaf? (name ++ ':' :: u) = some (.word name, ':' :: u) := by
  rcases identifier?_cases h with ⟨c, cs, rfl, hc, hcs⟩ | ⟨c, cs, rfl, hc, hcs, hraw⟩
  · exact leaf?_plain hc hcs u
  · exact leaf?_raw hc hcs hraw u

theorem leaf?_colon (u : Text) : leaf? (':' :: ' ' :: u) = some (.punct ':' false, ' ' :: u) := by
  unfold leaf?
  rw [Literal.after?_eq_none (by decide) (by decide)]
  rfl

end

/-! ## A declaration as tokens -/

section

variable {t : Text} {ls : List Lexeme}

theorem isGap_of_isWhite (c : Char) (hc : isWhite c = true) : isGap c = true := by
  simp [isGap, hc]

theorem isWhite_of_isFirst {c : Char} (hc : isFirst c = true) : isWhite c = false := by
  by_contra hne
  rw [isFirst_of_isGap (isGap_of_isWhite c (by simpa using hne))] at hc
  cases hc

theorem Spells.dropByteOrderMark (h : Spells isWhite t ls) : dropByteOrderMark t = t := by
  have hkeeps : ∀ {c : Char} {cs : Text}, c ≠ Char.ofNat 0xFEFF →
      RuleFormat.dropByteOrderMark (c :: cs) = c :: cs := by
    intro c cs hc
    rw [RuleFormat.dropByteOrderMark, if_neg]
    intro hcode
    rw [← hcode, Char.ofNat_toNat] at hc
    exact hc rfl
  cases h with
  | nil => rfl
  | gap hc _ =>
    refine hkeeps ?_
    rintro rfl
    exact absurd hc (by decide)
  | enter hc _ =>
    refine hkeeps ?_
    rintro rfl
    cases hc
  | leave hc _ =>
    refine hkeeps ?_
    rintro rfl
    cases hc
  | @token tok t ls htok _ =>
    obtain ⟨c, cs, heq⟩ := List.exists_cons_of_ne_nil (leaf?_eq htok).1
    rw [heq, List.cons_append] at htok ⊢
    refine hkeeps ?_
    rintro rfl
    exact absurd (leaf?_head htok).1 (by decide +kernel)

/-- Every token has a first character, which is no white space. -/
theorem Spells.isInked (h : Spells isWhite t ls) : ∀ tok, .token tok ∈ ls → tok.isInked = true := by
  induction h with
  | nil => simp
  | gap _ _ ih => exact ih
  | enter _ _ ih => simpa using ih
  | leave _ _ ih => simpa using ih
  | @token tok t ls htok _ ih =>
    intro tok' hmem
    rcases List.mem_cons.1 hmem with heq | hmem
    · obtain rfl : tok' = tok := by simpa using heq
      obtain ⟨c, cs, heq⟩ := List.exists_cons_of_ne_nil (leaf?_eq htok).1
      rw [heq, List.cons_append] at htok
      have hc := isWhite_of_isFirst (leaf?_head htok).1
      have hink : compact tok'.render ≠ [] := by
        rw [heq, compact, List.filter_cons_of_pos (by simpa using hc)]
        exact List.cons_ne_nil _ _
      have hleaf := isLeaf_of_leaf? htok
      cases tok' with
      | group d ts => cases hleaf
      | _ => simpa [Token.isInked] using hink
    · exact ih tok' hmem

/-- A name, a colon and a type. -/
theorem Spells.declaration {name : Text} (hname : identifier? name = some (name, []))
    (h : Spells isWhite t ls) :
    Spells isWhite (name ++ ": ".toList ++ t) (.token (.word name) :: .token (.punct ':' false) :: ls) := by
  have hcolon : Spells isWhite (':' :: ' ' :: t) (.token (.punct ':' false) :: ls) :=
    @Spells.token _ (.punct ':' false) _ _ (leaf?_colon t) (.gap (by decide) h)
  rw [List.append_assoc]
  exact @Spells.token _ (.word name) _ _ (leaf?_name hname _) hcolon

end

mutual

theorem nest_token (t : Token) (outer : List (Delimiter × Tokens)) (done : Tokens) (ls : List Lexeme) :
    nest outer done (t.flat ++ ls) = nest outer (t :: done) ls := by
  cases t with
  | group d ts =>
    have hflat : (Token.group d ts).flat ++ ls = .enter d :: (flat ts ++ .leave d :: ls) := by
      simp [Token.flat]
    have henter : nest outer done (.enter d :: (flat ts ++ .leave d :: ls))
        = nest ((d, done) :: outer) [] (flat ts ++ .leave d :: ls) := by cases outer <;> rfl
    rw [hflat, henter, nest_flat ts]
    simp [nest]
  | _ => cases outer <;> rfl

/-- Tokens that were laid flat are put together again. -/
theorem nest_flat (ts : Tokens) (outer : List (Delimiter × Tokens)) (done : Tokens) (ls : List Lexeme) :
    nest outer done (flat ts ++ ls) = nest outer (ts.reverse ++ done) ls := by
  cases ts with
  | nil => rfl
  | cons t ts =>
    rw [flat_cons, List.append_assoc, nest_token t, nest_flat ts, List.reverse_cons, List.append_assoc]
    rfl

end

end Lexer

mutual

theorem isInked_token (t : Token) (h : ∀ tok, .token tok ∈ t.flat → tok.isInked = true) :
    t.isInked = true := by
  cases t with
  | group d ts => exact isInked_of_flat ts fun tok hmem => h tok (by simp [Token.flat, hmem])
  | _ => exact h _ (by simp [Token.flat])

theorem isInked_of_flat (ts : Tokens) (h : ∀ tok, .token tok ∈ flat ts → tok.isInked = true) :
    isInked ts = true := by
  cases ts with
  | nil => rfl
  | cons t ts =>
    rw [isInked, isInked_token t fun tok hmem => h tok (by simp [hmem]),
      isInked_of_flat ts fun tok hmem => h tok (by simp [hmem])]
    rfl

end

/-- A declaration is read as its name, the colon and the tokens of its type. -/
theorem lex_declaration {name type : Text} {ts : Tokens}
    (hname : Lexer.identifier? name = some (name, [])) (h : Lexer.Spells isWhite type (flat ts)) :
    lex (name ++ ": ".toList ++ type) = some (.word name :: .punct ':' false :: ts) := by
  have hspells := h.declaration hname
  rw [lex, lexemes, hspells.dropByteOrderMark, hspells.lexemesFrom Lexer.isGap_of_isWhite]
  have hnest := Lexer.nest_flat (.word name :: .punct ':' false :: ts) [] [] []
  rw [List.append_nil, List.append_nil] at hnest
  refine hnest.trans ?_
  rw [Lexer.nest, List.reverse_reverse]

namespace Parser

/-! ## The pattern of a name -/

theorem branch_eq_some {α : Type} {test : Tokens → Bool} {p q : Parser α} {ts : Tokens}
    {x : α × Tokens} (h : (do if ← ahead test then p else q) ts = some x) :
    (test ts = true ∧ p ts = some x) ∨ (test ts = false ∧ q ts = some x) := by
  have h : (if test ts = true then p else q) ts = some x := h
  split at h
  · exact .inl ⟨‹_›, h⟩
  · exact .inr ⟨Bool.eq_false_iff.2 ‹_›, h⟩

variable {r : Nested} {name shown : Text} {ts rest : Tokens} {f : PatternForm}

theorem pattern_colon (ts : Tokens) : pattern r (.punct ':' false :: ts) = none := rfl

theorem nested_pattern_colon (n : Nat) (ts : Tokens) :
    (nested n).pattern (.punct ':' false :: ts) = none := by
  cases n with
  | zero => rfl
  | succ n => exact pattern_colon ts

theorem optional_eq_nil {test : Tokens → Bool} (p : Parser Tokens) (h : test ts = false) :
    optional test p ts = some ([], ts) := by
  show (if test ts = true then p else pure []) ts = some ([], ts)
  rw [h]
  rfl

theorem bindingPattern_word (hname : reserved.contains name = false)
    (h : bindingPattern r (.word name :: .punct ':' false :: ts) = some (f, rest)) :
    rest = .punct ':' false :: ts := by
  have hnone : ∀ w ∈ reserved, optionalWord w (.word name :: .punct ':' false :: ts)
      = some ([], .word name :: .punct ':' false :: ts) := by
    intro w hw
    refine optional_eq_nil _ ?_
    rw [startsWord, beq_eq_false_iff_ne]
    rintro rfl
    simp [hw] at hname
  unfold bindingPattern at h
  obtain ⟨ref, mid, href, h⟩ := bind_eq_some h
  rw [hnone _ (by decide)] at href
  cases href
  obtain ⟨mutable, mid, hmutable, h⟩ := bind_eq_some h
  rw [hnone _ (by decide)] at hmutable
  cases hmutable
  obtain ⟨isName, mid, hahead, h⟩ := bind_eq_some h
  cases hahead
  obtain ⟨u, mid, hguard, h⟩ := bind_eq_some h
  obtain ⟨-, rfl⟩ := guard_eq_some hguard
  cases h
  rfl

/-- In front of a colon, a pattern that begins with a word is that word. -/
theorem pattern_word (hr : ∀ ts, r.pattern (.punct ':' false :: ts) = none)
    (h : pattern r (.word name :: .punct ':' false :: ts) = some (f, rest)) :
    rest = .punct ':' false :: ts := by
  unfold pattern at h
  -- the word decides the branch; each one stops at the colon or fails there
  obtain ⟨htest, h⟩ | ⟨-, h⟩ := branch_eq_some h
  · have hmem : name = "Self".toList ∨ name = "super".toList ∨ name = "crate".toList := by
      simpa [startsPathPattern, startsOp, startsGroup, startsOneOf] using htest
    rcases hmem with rfl | rfl | rfl <;> (cases h; rfl)
  obtain ⟨htest, h⟩ | ⟨-, h⟩ := branch_eq_some h
  · cases h
    rfl
  obtain ⟨htest, h⟩ | ⟨-, h⟩ := branch_eq_some h
  · obtain rfl : name = "box".toList := by simpa [startsWord] using htest
    have hfail : boxPattern r (.word "box" :: .punct ':' false :: ts) = none := by
      simp [boxPattern, verbatim, bind, StateT.bind, word, hr]
    rw [hfail] at h
    cases h
  obtain ⟨htest, h⟩ | ⟨-, h⟩ := branch_eq_some h
  · have hmem : name = "true".toList ∨ name = "false".toList ∨ name = "const".toList := by
      simpa [startsOp, startsLiteral, startsWord, or_assoc] using htest
    rcases hmem with rfl | rfl | rfl
    · cases h
      rfl
    · cases h
      rfl
    · cases h
  obtain ⟨htest, h⟩ | ⟨-, h⟩ := branch_eq_some h
  · rcases Bool.or_eq_true_iff.1 htest with hword | hident
    · have hmem : name = "ref".toList ∨ name = "mut".toList ∨ name = "self".toList := by
        simpa [startsOneOf] using hword
      rcases hmem with rfl | rfl | rfl
      · cases h
      · cases h
      · cases h
        rfl
    · exact bindingPattern_word (by simpa [startsIdent] using hident) h
  cases h

/-- Behind a name and a colon, all that is left of a declaration is its type. -/
theorem declaration_word {n : Nat} {type : Tokens}
    (h : declaration (nested n) (.word name :: .punct ':' false :: ts)
      = some (.typed shown type, rest)) :
    (nested n).typeTokens ts = some (type, rest) := by
  unfold declaration at h
  obtain ⟨attrs, mid, hattrs, hbehind⟩ := bind_eq_some h
  cases hattrs
  have htyped : typedDeclaration (nested n) (.word name :: .punct ':' false :: ts)
      = some (.typed shown type, rest) := by
    split at hbehind
    · cases hbehind
    · exact hbehind
  unfold typedDeclaration at htyped
  obtain ⟨f, mid, hpattern, htokens⟩ := bind_eq_some htyped
  have hmid : mid = ts := by
    unfold parameterPattern at hpattern
    obtain ⟨htest, -⟩ | ⟨-, hpattern⟩ := branch_eq_some hpattern
    · simp [startsOp] at htest
    · obtain ⟨f, mid, hname, hcolon⟩ := bind_eq_some hpattern
      cases n with
      | zero => cases hname
      | succ n =>
        obtain rfl := pattern_word (nested_pattern_colon n) hname
        cases hcolon
        rfl
  rw [hmid] at htokens
  obtain ⟨tokens, mid, htype, hgiven⟩ := bind_eq_some htokens
  cases hgiven
  exact htype

end Parser

/-! ## Keys -/

/-- Whether the tokens of a type are written out as they stand. -/
def keepsShape (type : Text) : Bool := (lex type).any Parser.isStable

/-- A declared type is written out with the same characters, white space aside. -/
theorem compact_type_of_read {name type : Text} {p : Parameter}
    (hname : Lexer.identifier? name = some (name, []))
    (hspelled : Lexer.isSpelledFrom isWhite 0 type = true) (hshape : keepsShape type = true)
    (hread : Parameter.read (name ++ ": ".toList ++ type) = .ok p) : compact p.type = compact type := by
  obtain ⟨ts, hlex, hstable⟩ : ∃ ts, lex type = some ts ∧ Parser.isStable ts = true := by
    simpa [keepsShape, Option.any_eq_true] using hshape
  obtain ⟨ls, hls⟩ := Lexer.exists_spells hspelled
  have hmark := hls.dropByteOrderMark
  have hspells : Lexer.Spells isWhite type (flat ts) := by
    have h := spells_of_lex Lexer.isGap_of_isWhite (by rw [hmark]; exact hspelled) hlex
    rwa [hmark] at h
  have hink : compact type = ink ts := (compact_of_spells hspells).trans (flatten_ink_flat ts)
  have hts : Parser.Stable ts := ⟨hstable, isInked_of_flat ts hspells.isInked⟩
  unfold Parameter.read at hread
  split at hread
  · cases hread
  · cases hread
  · rename_i shown tokens hdeclaration
    cases hread
    unfold Declaration.read? at hdeclaration
    rw [lex_declaration hname hspells] at hdeclaration
    dsimp only at hdeclaration
    split at hdeclaration
    · rename_i d hd
      cases hdeclaration
      obtain ⟨taken, htaken, hcopied⟩ :=
        (Parser.copiesNested _).typeTokens ts hts _ _ (Parser.declaration_word hd)
      rw [List.append_nil] at htaken
      subst htaken
      exact hcopied.symm.trans hink.symm
    · cases hdeclaration

/-- A key with the name and the type of a declaration accepts what is declared.  So does a key whose type
differs in white space alone, and no other key of that name with a type. -/
theorem accepts_iff_compact_eq {name type : Text} {p : Parameter}
    (hname : Lexer.identifier? name = some (name, []))
    (hspelled : Lexer.isSpelledFrom isWhite 0 type = true) (hshape : keepsShape type = true)
    (hread : Parameter.read (name ++ ": ".toList ++ type) = .ok p) (hp : p.name = name) :
    ∀ type', Key.accepts ⟨name, some type'⟩ p.name p.type = true ↔ compact type' = compact type := by
  intro type'
  have htype := compact_type_of_read hname hspelled hshape hread
  simp [Key.accepts, hp, htype]

/-- A type with references, bounds, arguments, groups and expressions in it. -/
def nestedType : Text :=
  "&'a mut (dyn for<'b> Fn([u8; N + 1], Map<'b, K, V = T::Item>) -> <T as I>::Out + Send)"

/-- The same type with other white space. -/
def nestedTypeSpaced : Text :=
  "& 'a mut(dyn for<'b>Fn([u8;N+1],\tMap<'b,K,V=T::Item>)->< T as I >::Out+Send\n)"

theorem accepts_nestedType :
    ∃ p, Parameter.read ("r#fn".toList ++ ": ".toList ++ nestedType) = .ok p ∧ p.name = "r#fn".toList ∧
      Key.accepts ⟨"r#fn", some nestedType⟩ p.name p.type = true ∧
      Key.accepts ⟨"r#fn", some nestedTypeSpaced⟩ p.name p.type = true ∧
      Key.accepts ⟨"r#fn", some "u8"⟩ p.name p.type = false := by
  have hnamed : ((Parameter.read ("r#fn".toList ++ ": ".toList ++ nestedType)).toOption.any
      fun p => p.name == "r#fn".toList) = true := by decide +kernel
  cases hread : Parameter.read ("r#fn".toList ++ ": ".toList ++ nestedType) with
  | error e =>
    rw [hread] at hnamed
    cases hnamed
  | ok p =>
    rw [hread] at hnamed
    have hp : p.name = "r#fn".toList := by simpa [Except.toOption] using hnamed
    have hkeys := accepts_iff_compact_eq (by decide +kernel) (by decide +kernel) (by decide +kernel)
      hread hp
    refine ⟨p, rfl, hp, (hkeys _).2 rfl, (hkeys _).2 (by decide +kernel), ?_⟩
    rw [Bool.eq_false_iff, ne_eq, hkeys]
    decide +kernel

/-- Brackets with nothing between them are left out in front of parentheses, so a key that has them as
they are declared does not accept the parameter. -/
theorem emptyBrackets_not_accepted :
    Lexer.identifier? "f" = some ("f".toList, []) ∧
    Lexer.isSpelledFrom isWhite 0 "impl Fn<>(u8) -> u8" = true ∧
    (Parameter.read "f: impl Fn<>(u8) -> u8").toOption =
      some ⟨"f: impl Fn<>(u8) -> u8", "f", "impl Fn (u8) -> u8"⟩ ∧
    Key.accepts ⟨"f", some "impl Fn<>(u8) -> u8"⟩ "f" "impl Fn (u8) -> u8" = false := by
  refine ⟨?_, ?_, ?_, ?_⟩ <;> decide +kernel

end RuleFormat
