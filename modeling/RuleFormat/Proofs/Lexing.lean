import Mathlib.Data.List.Basic
import RuleFormat.Token.Lexer

/-!
# Texts made of tokens

A text without comments is made of tokens and of the characters that may stand between them.
`Spells` says so without a reader: each part of the text is a gap, a delimiter, or a token that the
lexer takes there.  Such a text is read as what it spells (`Spells.lexemesFrom`), whatever stands in
front of it, and `isSpelled` decides whether a text is one (`exists_spells`).

The tokens of a text are a tree, and its lexemes are that tree laid flat (`eq_flat_of_nest`).
-/

namespace RuleFormat

/-! ## What literals leave -/

namespace Literal

variable {t rest : Text}

theorem afterIdent?_suffix (h : afterIdent? t = some rest) : ∃ c cs, t = c :: cs ∧ rest <:+ cs := by
  cases t with
  | nil => cases h
  | cons c cs =>
    rw [afterIdent?] at h
    split at h
    · obtain rfl := Option.some.inj h
      exact ⟨c, cs, rfl, List.dropWhile_suffix _⟩
    · cases h

theorem afterSuffix_suffix (t : Text) : afterSuffix t <:+ t := by
  unfold afterSuffix
  cases h : afterIdent? t with
  | none => exact List.suffix_rfl
  | some rest =>
    obtain ⟨c, cs, rfl, hrest⟩ := afterIdent?_suffix h
    exact hrest.trans (List.suffix_cons _ _)

theorem afterString?_suffix {k : StringKind} {s : StringState} (h : afterString? k s t = some rest) :
    rest <:+ t := by
  induction t generalizing s with
  | nil => cases h
  | cons c cs ih =>
    rw [afterString?] at h
    split at h
    · cases h
    · exact (ih h).trans (List.suffix_cons _ _)
    · obtain rfl := Option.some.inj h
      exact List.suffix_cons _ _

theorem afterRaw?_suffix {k : StringKind} {hashes : Nat} (h : afterRaw? k hashes t = some rest) :
    rest <:+ t := by
  fun_induction afterRaw? k hashes t with
  | case1 => cases h
  | case2 cs _ =>
    obtain rfl := Option.some.inj h
    exact (List.drop_suffix _ _).trans (List.suffix_cons _ _)
  | case3 cs _ ih => exact (ih h).trans (List.suffix_cons _ _)
  | case4 cs ih => exact ((ih h).trans (List.suffix_cons _ _)).trans (List.suffix_cons _ _)
  | case5 => cases h
  | case6 => cases h
  | case7 c cs _ _ _ _ ih => exact (ih h).trans (List.suffix_cons _ _)

theorem afterRawOpen?_suffix {k : StringKind} (h : afterRawOpen? k t = some rest) : rest <:+ t := by
  unfold afterRawOpen? at h
  dsimp only at h
  split at h
  · rename_i cs hdrop
    split at h
    · cases h
    · have hcs : cs <:+ t := by
        refine (List.suffix_cons '"' cs).trans ?_
        rw [← hdrop]
        exact List.dropWhile_suffix _
      exact (afterRaw?_suffix h).trans hcs
  · cases h

theorem afterAnyString?_suffix (h : afterAnyString? t = some rest) :
    ∃ c cs, t = c :: cs ∧ rest <:+ cs := by
  unfold afterAnyString? at h
  split at h
  · exact ⟨_, _, rfl, afterString?_suffix h⟩
  · exact ⟨_, _, rfl, afterRawOpen?_suffix h⟩
  · exact ⟨_, _, rfl, (afterString?_suffix h).trans (List.suffix_cons _ _)⟩
  · exact ⟨_, _, rfl, (afterRawOpen?_suffix h).trans (List.suffix_cons _ _)⟩
  · exact ⟨_, _, rfl, (afterString?_suffix h).trans (List.suffix_cons _ _)⟩
  · exact ⟨_, _, rfl, (afterRawOpen?_suffix h).trans (List.suffix_cons _ _)⟩
  · cases h

theorem afterEscape?_suffix {k : StringKind} {s : StringState} (h : afterEscape? k s t = some rest) :
    rest <:+ t := by
  induction t generalizing s with
  | nil => cases h
  | cons c cs ih =>
    rw [afterEscape?] at h
    split at h
    · obtain rfl := Option.some.inj h
      exact List.suffix_cons _ _
    · cases h
    · cases h
    · exact (ih h).trans (List.suffix_cons _ _)
    · cases h

theorem afterOneChar?_suffix {k : StringKind} (h : afterOneChar? k t = some rest) : rest <:+ t := by
  unfold afterOneChar? at h
  split at h
  · exact (afterEscape?_suffix h).trans (List.suffix_cons _ _)
  · split at h
    · cases h
    · obtain rfl := Option.some.inj h
      exact List.suffix_cons _ _
  · cases h

theorem afterQuoted?_suffix {k : StringKind} (h : afterQuoted? k t = some rest) : rest <:+ t := by
  unfold afterQuoted? at h
  split at h
  · rename_i cs hone
    obtain rfl := Option.some.inj h
    exact (List.suffix_cons _ _).trans (afterOneChar?_suffix hone)
  · cases h

theorem afterCharacter?_suffix (h : afterCharacter? t = some rest) :
    ∃ c cs, t = c :: cs ∧ rest <:+ cs := by
  unfold afterCharacter? at h
  split at h
  · exact ⟨_, _, rfl, afterQuoted?_suffix h⟩
  · exact ⟨_, _, rfl, (afterQuoted?_suffix h).trans (List.suffix_cons _ _)⟩
  · cases h

theorem afterExponent?_suffix {sign digit : Bool} (h : afterExponent? sign digit t = some rest) :
    rest <:+ t := by
  induction t generalizing sign digit with
  | nil =>
    cases digit <;> simp [afterExponent?] at h
    subst h
    exact List.suffix_rfl
  | cons c cs ih =>
    rw [afterExponent?] at h
    split_ifs at h
    · obtain rfl := Option.some.inj h
      exact List.suffix_rfl
    · exact (ih h).trans (List.suffix_cons _ _)
    · exact (ih h).trans (List.suffix_cons _ _)
    · exact (ih h).trans (List.suffix_cons _ _)
    · obtain rfl := Option.some.inj h
      exact List.suffix_rfl

theorem afterFloatDigits?_suffix {point : Bool} (h : afterFloatDigits? point t = some rest) :
    rest <:+ t := by
  induction t generalizing point with
  | nil =>
    cases point <;> simp [afterFloatDigits?] at h
    subst h
    exact List.suffix_rfl
  | cons c cs ih =>
    rw [afterFloatDigits?] at h
    split_ifs at h
    · exact (ih h).trans (List.suffix_cons _ _)
    · exact (ih h).trans (List.suffix_cons _ _)
    · rcases Option.or_eq_some_iff.1 h with h | ⟨-, h⟩
      · exact (afterExponent?_suffix h).trans (List.suffix_cons _ _)
      · obtain rfl := Option.some.inj h
        exact List.suffix_rfl
    · rw [Option.or_none] at h
      exact (afterExponent?_suffix h).trans (List.suffix_cons _ _)
    · obtain rfl := Option.some.inj h
      exact List.suffix_rfl

theorem afterDigits?_suffix {base : Nat} {empty : Bool} (h : afterDigits? base empty t = some rest) :
    rest <:+ t ∧ (empty = true → ∃ c cs, t = c :: cs ∧ rest <:+ cs) := by
  induction t generalizing empty with
  | nil =>
    cases empty <;> simp [afterDigits?] at h
    exact ⟨h ▸ List.suffix_rfl, nofun⟩
  | cons c cs ih =>
    have hgo : ∀ {e : Bool}, afterDigits? base e cs = some rest →
        rest <:+ c :: cs ∧ (empty = true → ∃ d ds, c :: cs = d :: ds ∧ rest <:+ ds) := fun h' =>
      ⟨(ih h').1.trans (List.suffix_cons _ _), fun _ => ⟨c, cs, rfl, (ih h').1⟩⟩
    have hstop : (if empty then none else some (c :: cs)) = some rest →
        rest <:+ c :: cs ∧ (empty = true → ∃ d ds, c :: cs = d :: ds ∧ rest <:+ ds) := by
      intro h'
      cases empty <;> simp at h'
      exact ⟨h' ▸ List.suffix_rfl, nofun⟩
    rw [afterDigits?] at h
    split at h
    · split at h
      · exact hgo h
      · cases h
    · split at h
      · split at h
        · cases h
        · exact hgo h
      · split at h
        · split at h
          · exact hgo h
          · exact hstop h
        · exact hstop h

theorem afterInteger?_suffix (h : afterInteger? t = some rest) : ∃ c cs, t = c :: cs ∧ rest <:+ cs := by
  unfold afterInteger? at h
  split at h
  · exact ⟨_, _, rfl, (afterDigits?_suffix h).1.trans (List.suffix_cons _ _)⟩
  · exact ⟨_, _, rfl, (afterDigits?_suffix h).1.trans (List.suffix_cons _ _)⟩
  · exact ⟨_, _, rfl, (afterDigits?_suffix h).1.trans (List.suffix_cons _ _)⟩
  · exact (afterDigits?_suffix h).2 rfl

theorem afterNumberSuffix?_suffix (h : afterNumberSuffix? t = some rest) : rest <:+ t := by
  have hsuffix := afterSuffix_suffix t
  unfold afterNumberSuffix? at h
  split at h
  · obtain rfl := Option.some.inj h
    exact List.nil_suffix
  · rename_i c cs heq
    split at h
    · cases h
    · obtain rfl := Option.some.inj h
      rwa [heq] at hsuffix

theorem afterFloat?_suffix (h : afterFloat? t = some rest) : ∃ c cs, t = c :: cs ∧ rest <:+ cs := by
  unfold afterFloat? at h
  split at h
  · cases h
  · rename_i c cs
    split at h
    · obtain ⟨u, hu, hrest⟩ := Option.bind_eq_some_iff.1 h
      exact ⟨c, cs, rfl, (afterNumberSuffix?_suffix hrest).trans (afterFloatDigits?_suffix hu)⟩
    · cases h

theorem afterNumber?_suffix (h : afterNumber? t = some rest) : ∃ c cs, t = c :: cs ∧ rest <:+ cs := by
  rcases Option.or_eq_some_iff.1 h with h | ⟨-, h⟩
  · exact afterFloat?_suffix h
  · obtain ⟨u, hu, hrest⟩ := Option.bind_eq_some_iff.1 h
    obtain ⟨c, cs, rfl, hsuffix⟩ := afterInteger?_suffix hu
    exact ⟨c, cs, rfl, (afterNumberSuffix?_suffix hrest).trans hsuffix⟩

/-- A literal takes at least one character from the front of a text. -/
theorem after?_suffix (h : after? t = some rest) : ∃ c cs, t = c :: cs ∧ rest <:+ cs := by
  rcases Option.or_eq_some_iff.1 h with h | ⟨-, h⟩
  · obtain ⟨u, hu, rfl⟩ := Option.map_eq_some_iff.1 h
    obtain ⟨c, cs, rfl, hsuffix⟩ := afterAnyString?_suffix hu
    exact ⟨c, cs, rfl, (afterSuffix_suffix u).trans hsuffix⟩
  rcases Option.or_eq_some_iff.1 h with h | ⟨-, h⟩
  · obtain ⟨u, hu, rfl⟩ := Option.map_eq_some_iff.1 h
    obtain ⟨c, cs, rfl, hsuffix⟩ := afterCharacter?_suffix hu
    exact ⟨c, cs, rfl, (afterSuffix_suffix u).trans hsuffix⟩
  · exact afterNumber?_suffix h

theorem ten_le_of_hexValue? {c : Char} (h : isDigit c = false) {d : Nat}
    (hd : hexValue? c = some d) : 10 ≤ d := by
  unfold hexValue? at hd
  unfold isDigit at h
  split at hd
  · simp_all
  · split at hd
    · rename_i hlo
      obtain rfl := Option.some.inj hd
      have : 'a'.toNat ≤ c.toNat := hlo.1
      have ha : 'a'.toNat = 97 := rfl
      omega
    · split at hd
      · rename_i hlo
        obtain rfl := Option.some.inj hd
        have : 'A'.toNat ≤ c.toNat := hlo.1
        have ha : 'A'.toNat = 65 := rfl
        omega
      · cases hd

theorem afterNumber?_head {c : Char} {cs : Text} (h : afterNumber? (c :: cs) = some rest) :
    isDigit c = true := by
  rcases Option.or_eq_some_iff.1 h with h | ⟨-, h⟩
  · rw [afterFloat?] at h
    split at h
    · assumption
    · cases h
  · obtain ⟨u, hu, -⟩ := Option.bind_eq_some_iff.1 h
    unfold afterInteger? at hu
    split at hu
    · rename_i heq; cases heq; rfl
    · rename_i heq; cases heq; rfl
    · rename_i heq; cases heq; rfl
    · by_contra hdigit
      rw [afterDigits?, if_neg hdigit] at hu
      split at hu
      · cases hu
      · split at hu
        · rename_i d hd
          have := ten_le_of_hexValue? (by simpa using hdigit) hd
          rw [if_neg (by omega)] at hu
          cases hu
        · cases hu

/-- A literal begins with a quote, a letter or a digit. -/
theorem after?_head {c : Char} {cs : Text} (h : after? (c :: cs) = some rest) :
    c ∈ ['"', 'r', 'b', 'c', '\''] ∨ isDigit c = true := by
  rcases Option.or_eq_some_iff.1 h with h | ⟨-, h⟩
  · obtain ⟨u, hu, -⟩ := Option.map_eq_some_iff.1 h
    unfold afterAnyString? at hu
    split at hu <;> simp_all
  rcases Option.or_eq_some_iff.1 h with h | ⟨-, h⟩
  · obtain ⟨u, hu, -⟩ := Option.map_eq_some_iff.1 h
    unfold afterCharacter? at hu
    split at hu <;> simp_all
  · exact Or.inr (afterNumber?_head h)

theorem after?_eq_none {c : Char} (hletter : c ∉ ['"', 'r', 'b', 'c', '\'']) (hdigit : isDigit c = false)
    (cs : Text) : after? (c :: cs) = none := by
  rw [Option.eq_none_iff_forall_ne_some]
  intro rest h
  rcases after?_head h with hc | hc
  · exact hletter hc
  · rw [hdigit] at hc
    cases hc

end Literal

namespace Lexer

variable {t rest : Text}

/-! ## What tokens leave -/

theorem afterIdent?_eq (h : Literal.afterIdent? t = some rest) :
    t.take (t.length - rest.length) ≠ [] ∧ t.take (t.length - rest.length) ++ rest = t := by
  obtain ⟨c, cs, rfl, hrest⟩ := Literal.afterIdent?_suffix h
  refine ⟨?_, List.suffix_iff_eq_append.1 (hrest.trans (List.suffix_cons _ _))⟩
  have hle := hrest.length_le
  have hsub : (c :: cs).length - rest.length = (cs.length - rest.length) + 1 := by
    rw [List.length_cons]
    omega
  rw [hsub, List.take_succ_cons]
  exact List.cons_ne_nil _ _

theorem identifier?_eq {name : Text} (h : identifier? t = some (name, rest)) :
    name ≠ [] ∧ t = name ++ rest := by
  unfold identifier? at h
  split at h
  · rename_i cs
    obtain ⟨u, hu, h⟩ := Option.bind_eq_some_iff.1 h
    dsimp only at h
    split at h
    · cases h
    · obtain ⟨rfl, rfl⟩ := Prod.mk.inj (Option.some.inj h)
      refine ⟨List.cons_ne_nil _ _, ?_⟩
      rw [List.cons_append, List.cons_append, (afterIdent?_eq hu).2]
  · obtain ⟨u, hu, h⟩ := Option.bind_eq_some_iff.1 h
    obtain ⟨rfl, rfl⟩ := Prod.mk.inj (Option.some.inj h)
    exact ⟨(afterIdent?_eq hu).1, (afterIdent?_eq hu).2.symm⟩

theorem lifetime?_eq {name : Text} (h : lifetime? t = some (name, rest)) :
    name ≠ [] ∧ t = name ++ rest := by
  unfold lifetime? at h
  split at h
  · rename_i cs
    split at h
    · cases h
    · cases h
    · rename_i name' rest' hname
      split at h
      · obtain ⟨rfl, rfl⟩ := Prod.mk.inj (Option.some.inj h)
        exact ⟨List.cons_ne_nil _ _, by rw [(identifier?_eq hname).2, List.cons_append]⟩
      · cases h
    · rename_i name' rest' _ _ hname
      obtain ⟨rfl, rfl⟩ := Prod.mk.inj (Option.some.inj h)
      exact ⟨List.cons_ne_nil _ _, by rw [(identifier?_eq hname).2, List.cons_append]⟩
  · cases h

/-- What the token at the front of a text can be, with what follows it. -/
inductive LeafAt : Text → Token → Text → Prop where
  | literal {t rest : Text} (h : Literal.after? t = some rest) :
      LeafAt t (.literal (t.take (t.length - rest.length))) rest
  /-- The quote in front of a literal whose letters could be the name of a lifetime. -/
  | quote {cs : Text} : LeafAt ('\'' :: cs) (.punct '\'' true) cs
  | lifetime {cs name rest : Text} (h : lifetime? ('\'' :: cs) = some (name, rest)) :
      LeafAt ('\'' :: cs) (.lifetime name) rest
  | punct {c : Char} {cs : Text} (h : startsPunct (c :: cs) = true) :
      LeafAt (c :: cs) (.punct c (startsPunct cs)) cs
  | word {t name rest : Text} (h : identifier? t = some (name, rest)) : LeafAt t (.word name) rest

theorem leafAt_of_leaf? {tok : Token} (h : leaf? t = some (tok, rest)) : LeafAt t tok rest := by
  unfold leaf? at h
  split at h
  · rename_i u hu
    obtain ⟨rfl, rfl⟩ := Prod.mk.inj (Option.some.inj h)
    exact .literal hu
  · split at h
    · cases h
    · obtain ⟨⟨name, u⟩, hname, heq⟩ := Option.map_eq_some_iff.1 h
      dsimp only at heq
      split at heq
      · obtain ⟨rfl, rfl⟩ := Prod.mk.inj heq
        exact .quote
      · obtain ⟨rfl, rfl⟩ := Prod.mk.inj heq
        exact .lifetime hname
    · split at h
      · rename_i hpunct
        obtain ⟨rfl, rfl⟩ := Prod.mk.inj (Option.some.inj h)
        exact .punct hpunct
      · obtain ⟨⟨name, u⟩, hname, heq⟩ := Option.map_eq_some_iff.1 h
        obtain ⟨rfl, rfl⟩ := Prod.mk.inj heq
        unfold word? at hname
        split at hname
        · cases hname
        · exact .word hname

/-- The token at the front of a text is the beginning of the text. -/
theorem leaf?_eq {tok : Token} (h : leaf? t = some (tok, rest)) :
    tok.render ≠ [] ∧ t = tok.render ++ rest := by
  cases leafAt_of_leaf? h with
  | literal hu =>
    obtain ⟨c, cs, rfl, hrest⟩ := Literal.after?_suffix hu
    have happend := List.suffix_iff_eq_append.1 (hrest.trans (List.suffix_cons c cs))
    refine ⟨fun hnil => ?_, happend.symm⟩
    rw [Token.render] at hnil
    rw [hnil] at happend
    have hlen := congrArg List.length happend
    have hle := hrest.length_le
    simp at hlen
    omega
  | quote => exact ⟨List.cons_ne_nil _ _, rfl⟩
  | lifetime hname => exact lifetime?_eq hname
  | punct _ => exact ⟨List.cons_ne_nil _ _, rfl⟩
  | word hname => exact identifier?_eq hname

/-! ## Where a token may begin -/

/-- The first characters of tokens: none of them is a gap or a delimiter. -/
def isFirst (c : Char) : Bool :=
  c == '"' || Literal.isDigit c || isIdentStart c || punctuation.contains c

theorem identifier?_head {c : Char} {cs name : Text} (h : identifier? (c :: cs) = some (name, rest)) :
    isIdentStart c = true := by
  unfold identifier? at h
  split at h
  · rename_i heq
    cases heq
    decide
  · obtain ⟨u, hu, -⟩ := Option.bind_eq_some_iff.1 h
    rw [Literal.afterIdent?] at hu
    split at hu
    · assumption
    · cases hu

/-- Whether a text begins with the mark of a comment. -/
def opensComment : Text → Bool
  | '/' :: '/' :: _ => true
  | '/' :: '*' :: _ => true
  | _ => false

theorem comment?_eq_none (h : opensComment t = false) : comment? t = none := by
  unfold comment?
  split <;> first | rfl | cases h

theorem opensComment_of_ne {c : Char} (hc : c ≠ '/') (cs : Text) : opensComment (c :: cs) = false := by
  unfold opensComment
  split <;> simp_all

theorem not_opensComment_of_startsPunct (h : startsPunct t = true) : opensComment t = false := by
  unfold startsPunct at h
  split at h
  · cases h
  · cases h
  · unfold opensComment
    split <;> simp_all
  · cases h

theorem startsPunct_head {c : Char} {cs : Text} (h : startsPunct (c :: cs) = true) :
    punctuation.contains c = true := by
  unfold startsPunct at h
  split at h
  · cases h
  · cases h
  · rename_i heq
    cases heq
    exact h
  · cases h

theorem leaf?_head {c : Char} {cs : Text} {tok : Token} (h : leaf? (c :: cs) = some (tok, rest)) :
    isFirst c = true ∧ opensComment (c :: cs) = false := by
  cases leafAt_of_leaf? h with
  | literal hu =>
    have hc : isFirst c = true ∧ c ≠ '/' := by
      rcases Literal.after?_head hu with hc | hc
      · have hall : ∀ d ∈ ['"', 'r', 'b', 'c', '\''], (isFirst d && d != '/') = true :=
          List.all_eq_true.1 (by decide)
        simpa using hall c hc
      · refine ⟨by simp [isFirst, hc], ?_⟩
        rintro rfl
        exact absurd hc (by decide)
    exact ⟨hc.1, opensComment_of_ne hc.2 cs⟩
  | quote => exact ⟨by decide, rfl⟩
  | lifetime _ => exact ⟨by decide, rfl⟩
  | punct hpunct =>
    refine ⟨?_, not_opensComment_of_startsPunct hpunct⟩
    rw [isFirst, startsPunct_head hpunct, Bool.or_true]
  | word hname =>
    have hc := identifier?_head hname
    refine ⟨by simp [isFirst, hc], opensComment_of_ne ?_ _⟩
    rintro rfl
    exact absurd hc (by decide)

/-- The code points of the characters between tokens. -/
def gapCodes : List Nat :=
  [9, 10, 11, 12, 13, 0x20, 0x85, 0xA0, 0x1680, 0x2000, 0x2001, 0x2002, 0x2003, 0x2004, 0x2005, 0x2006,
   0x2007, 0x2008, 0x2009, 0x200A, 0x200E, 0x200F, 0x2028, 0x2029, 0x202F, 0x205F, 0x3000]

theorem toNat_mem_gapCodes {c : Char} (h : isGap c = true) : c.toNat ∈ gapCodes := by
  simp only [isGap, isWhite, Bool.or_eq_true, Bool.and_eq_true, decide_eq_true_eq, beq_iff_eq] at h
  simp only [gapCodes, List.mem_cons, List.not_mem_nil, or_false]
  omega

/-- What holds of no gap by its code point. -/
theorem eq_false_of_isGap {p : Char → Bool}
    (hp : gapCodes.all (fun n => !p (Char.ofNat n)) = true) {c : Char} (h : isGap c = true) :
    p c = false := by
  have hc := List.all_eq_true.1 hp _ (toNat_mem_gapCodes h)
  rw [Char.ofNat_toNat] at hc
  simpa using hc

theorem isFirst_of_isGap {c : Char} (h : isGap c = true) : isFirst c = false :=
  eq_false_of_isGap (by decide +kernel) h

theorem not_delimiter_of_isFirst {c : Char} (h : isFirst c = true) :
    c ≠ '(' ∧ Delimiter.ofOpen? c = none ∧ Delimiter.ofClose? c = none := by
  have hne : ∀ d, isFirst d = false → c ≠ d := by
    rintro d hd rfl
    rw [hd] at h
    cases h
  refine ⟨hne '(' (by decide), ?_, ?_⟩
  · unfold Delimiter.ofOpen?
    split
    · exact absurd rfl (hne '(' (by decide))
    · exact absurd rfl (hne '[' (by decide))
    · exact absurd rfl (hne '{' (by decide))
    · rfl
  · unfold Delimiter.ofClose?
    split
    · exact absurd rfl (hne ')' (by decide))
    · exact absurd rfl (hne ']' (by decide))
    · exact absurd rfl (hne '}' (by decide))
    · rfl

/-! ## Texts that spell lexemes -/

/-- A text is made of these lexemes, one behind the other, with characters of `gap` between them and
with no comment. -/
inductive Spells (gap : Char → Bool) : Text → List Lexeme → Prop where
  | nil : Spells gap [] []
  | gap {c : Char} {t : Text} {ls : List Lexeme} (hc : gap c = true) (h : Spells gap t ls) :
      Spells gap (c :: t) ls
  | enter {c : Char} {d : Delimiter} {t : Text} {ls : List Lexeme}
      (hc : Delimiter.ofOpen? c = some d) (h : Spells gap t ls) : Spells gap (c :: t) (.enter d :: ls)
  | leave {c : Char} {d : Delimiter} {t : Text} {ls : List Lexeme}
      (hc : Delimiter.ofClose? c = some d) (h : Spells gap t ls) : Spells gap (c :: t) (.leave d :: ls)
  | token {tok : Token} {t : Text} {ls : List Lexeme}
      (htok : leaf? (tok.render ++ t) = some (tok, t)) (h : Spells gap t ls) :
      Spells gap (tok.render ++ t) (.token tok :: ls)

/-- Whether a text behind its first `n` characters spells lexemes. -/
def isSpelledFrom (gap : Char → Bool) : Nat → Text → Bool
  | _, [] => true
  | n + 1, _ :: cs => isSpelledFrom gap n cs
  | 0, c :: cs =>
    if gap c || (Delimiter.ofOpen? c).isSome || (Delimiter.ofClose? c).isSome then
      isSpelledFrom gap 0 cs
    else
      match leaf? (c :: cs) with
      | none => false
      | some (_, rest) => isSpelledFrom gap (cs.length - rest.length) cs

theorem exists_spells_drop {gap : Char → Bool} {n : Nat} (h : isSpelledFrom gap n t = true) :
    ∃ ls, Spells gap (t.drop n) ls := by
  induction t generalizing n with
  | nil => exact ⟨[], by rw [List.drop_nil]; exact .nil⟩
  | cons c cs ih =>
    cases n with
    | succ n => exact ih h
    | zero =>
      rw [isSpelledFrom] at h
      split at h
      · rename_i hc
        obtain ⟨ls, hls⟩ := ih h
        cases hopen : Delimiter.ofOpen? c with
        | some d => exact ⟨_, .enter hopen hls⟩
        | none =>
          cases hclose : Delimiter.ofClose? c with
          | some d => exact ⟨_, .leave hclose hls⟩
          | none => exact ⟨_, .gap (by simpa [hopen, hclose] using hc) hls⟩
      · split at h
        · cases h
        · rename_i tok rest hleaf
          obtain ⟨ls, hls⟩ := ih h
          obtain ⟨hne, heq⟩ := leaf?_eq hleaf
          obtain ⟨d, ds, hd⟩ := List.exists_cons_of_ne_nil hne
          rw [hd, List.cons_append] at heq
          obtain ⟨rfl, rfl⟩ := List.cons.inj heq
          have hdrop : (ds ++ rest).drop ((ds ++ rest).length - rest.length) = rest := by
            simp
          rw [hdrop] at hls
          rw [← List.cons_append, ← hd] at hleaf
          rw [List.drop_zero, ← List.cons_append, ← hd]
          exact ⟨_, .token hleaf hls⟩

/-- A text that can be read without passing over a comment spells lexemes. -/
theorem exists_spells {gap : Char → Bool} (h : isSpelledFrom gap 0 t = true) : ∃ ls, Spells gap t ls :=
  exists_spells_drop h

/-! ## Reading what is spelled -/

theorem lexemesFrom_zero (c : Char) (cs : Text) :
    lexemesFrom 0 (c :: cs) = match next? c cs with
    | none => none
    | some (ls, rest) => (lexemesFrom (cs.length - rest.length) cs).map (ls ++ ·) := (rfl)

theorem lexemesFrom_eq_drop (n : Nat) (t : Text) : lexemesFrom n t = lexemesFrom 0 (t.drop n) := by
  induction n generalizing t with
  | zero => rfl
  | succ n ih =>
    cases t with
    | nil => rfl
    | cons c cs => exact ih cs

theorem lexemesFrom_cons {c : Char} {cs : Text} {ls : List Lexeme}
    (h : next? c cs = some (ls, rest)) (hrest : rest <:+ cs) :
    lexemesFrom 0 (c :: cs) = (lexemesFrom 0 rest).map (ls ++ ·) := by
  rw [lexemesFrom_zero, h]
  dsimp only
  rw [lexemesFrom_eq_drop (cs.length - rest.length)]
  rw [← List.suffix_iff_eq_drop.1 hrest]

/-- At a character that is no gap and begins neither a comment nor the mark of what could not be
read, a delimiter or a token is read. -/
theorem next?_of_not_gap {c : Char} {cs : Text} (hgap : isGap c = false)
    (hnot : unreadable.isPrefixOf (c :: cs) = false) (hopens : opensComment (c :: cs) = false) :
    next? c cs = match Delimiter.ofOpen? c, Delimiter.ofClose? c with
      | some d, _ => some ([.enter d], cs)
      | none, some d => some ([.leave d], cs)
      | none, none => (leaf? (c :: cs)).map fun (t, rest) => ([.token t], rest) := by
  unfold next?
  rw [hgap, hnot, comment?_eq_none hopens]
  cases Delimiter.ofOpen? c <;> cases Delimiter.ofClose? c <;> rfl

theorem Spells.opensComment {gap : Char → Bool} (hgap : gap '/' = false) {ls : List Lexeme}
    (h : Spells gap t ls) : opensComment t = false := by
  cases h with
  | nil => rfl
  | gap hc _ =>
    refine opensComment_of_ne ?_ _
    rintro rfl
    rw [hgap] at hc
    cases hc
  | enter hc _ =>
    refine opensComment_of_ne ?_ _
    rintro rfl
    cases hc
  | leave hc _ =>
    refine opensComment_of_ne ?_ _
    rintro rfl
    cases hc
  | @token tok t ls htok _ =>
    obtain ⟨c, cs, heq⟩ := List.exists_cons_of_ne_nil (leaf?_eq htok).1
    rw [heq, List.cons_append] at htok ⊢
    exact (leaf?_head htok).2

theorem isPrefixOf_unreadable_of_ne {c : Char} (hc : c ≠ '(') (cs : Text) :
    unreadable.isPrefixOf (c :: cs) = false := by
  have hcons : unreadable = '(' :: unreadable.tail := by decide
  have hne : ('(' == c) = false := by simpa using Ne.symm hc
  rw [hcons, List.isPrefixOf, hne, Bool.false_and]

/-- The mark of what could not be read holds a comment. -/
theorem isPrefixOf_unreadable_cons {c : Char} {cs : Text} (h : opensComment cs = false) :
    unreadable.isPrefixOf (c :: cs) = false := by
  by_contra hne
  have hprefix : unreadable <+: c :: cs := List.isPrefixOf_iff_prefix.1 (by simpa using hne)
  have hcs : ['/', '*'] <+: cs := by
    have hshort : ['(', '/', '*'] <+: c :: cs := List.IsPrefix.trans (by decide) hprefix
    exact (List.cons_prefix_cons.1 hshort).2
  obtain ⟨u, rfl⟩ := hcs
  cases h

/-- A spelled text is read as what it spells. -/
theorem Spells.lexemesFrom {gap : Char → Bool} (hgap : ∀ c, gap c = true → isGap c = true)
    {ls : List Lexeme} (h : Spells gap t ls) : lexemesFrom 0 t = some ls := by
  induction h with
  | nil => rfl
  | @gap c t ls hc _ ih =>
    have hnext : next? c t = some ([], t) := if_pos (hgap c hc)
    rw [lexemesFrom_cons hnext List.suffix_rfl, ih]
    rfl
  | @enter c d t ls hc h ih =>
    -- behind a bracket a comment could make the mark of what cannot be read; here none stands there
    have hslash : gap '/' = false := by
      by_contra hne
      exact absurd (hgap '/' (by simpa using hne)) (by decide)
    have hchar : isGap c = false ∧ c ≠ '/' := by
      unfold Delimiter.ofOpen? at hc
      split at hc <;> first | decide | cases hc
    have hnext : next? c t = some ([.enter d], t) := by
      rw [next?_of_not_gap hchar.1 (isPrefixOf_unreadable_cons (h.opensComment hslash))
        (opensComment_of_ne hchar.2 t), hc]
    rw [lexemesFrom_cons hnext List.suffix_rfl, ih]
    rfl
  | @leave c d t ls hc h ih =>
    have hchar : isGap c = false ∧ c ≠ '/' ∧ c ≠ '(' ∧ Delimiter.ofOpen? c = none := by
      unfold Delimiter.ofClose? at hc
      split at hc <;> first | decide | cases hc
    have hnext : next? c t = some ([.leave d], t) := by
      rw [next?_of_not_gap hchar.1 (isPrefixOf_unreadable_of_ne hchar.2.2.1 t)
        (opensComment_of_ne hchar.2.1 t), hchar.2.2.2, hc]
    rw [lexemesFrom_cons hnext List.suffix_rfl, ih]
    rfl
  | @token tok t ls htok h ih =>
    obtain ⟨c, cs, heq⟩ := List.exists_cons_of_ne_nil (leaf?_eq htok).1
    rw [heq, List.cons_append] at htok ⊢
    obtain ⟨hfirst, hopens⟩ := leaf?_head htok
    have hgap : isGap c = false := by
      by_contra hne
      rw [isFirst_of_isGap (by simpa using hne)] at hfirst
      cases hfirst
    obtain ⟨hround, hopen, hclose⟩ := not_delimiter_of_isFirst hfirst
    have hnext : next? c (cs ++ t) = some ([.token tok], t) := by
      rw [next?_of_not_gap hgap (isPrefixOf_unreadable_of_ne hround _) hopens, hopen, hclose, htok]
      rfl
    rw [lexemesFrom_cons hnext (List.suffix_append _ _), ih]
    rfl

end Lexer

/-! ## Groups -/

mutual

/-- The lexemes of a token. -/
def Token.flat : Token → List Lexeme
  | .group d ts => .enter d :: flat ts ++ [.leave d]
  | t => [.token t]

/-- The lexemes of tokens, in which a group is laid flat. -/
def flat : Tokens → List Lexeme
  | [] => []
  | t :: ts => t.flat ++ flat ts

end

@[simp] theorem flat_nil : flat [] = [] := rfl

@[simp] theorem flat_cons (t : Token) (ts : Tokens) : flat (t :: ts) = t.flat ++ flat ts := rfl

@[simp] theorem flat_append (ts us : Tokens) : flat (ts ++ us) = flat ts ++ flat us := by
  induction ts with
  | nil => rfl
  | cons t ts ih => rw [List.cons_append, flat_cons, flat_cons, ih, List.append_assoc]

/-- Whether a token is no group. -/
def Token.isLeaf : Token → Bool
  | .group _ _ => false
  | _ => true

theorem Token.flat_of_isLeaf {t : Token} (h : t.isLeaf = true) : t.flat = [.token t] := by
  cases t <;> first | rfl | cases h

namespace Lexer

theorem isLeaf_of_leaf? {t rest : Text} {tok : Token} (h : leaf? t = some (tok, rest)) :
    tok.isLeaf = true := by
  cases leafAt_of_leaf? h <;> rfl

/-- The tokens among lexemes are no groups. -/
theorem Spells.isLeaf {gap : Char → Bool} {t : Text} {ls : List Lexeme} (h : Spells gap t ls) :
    ∀ tok, .token tok ∈ ls → tok.isLeaf = true := by
  induction h with
  | nil => simp
  | gap _ _ ih => exact ih
  | enter _ _ ih => simpa using ih
  | leave _ _ ih => simpa using ih
  | @token tok t ls htok _ ih =>
    intro tok' hmem
    rcases List.mem_cons.1 hmem with heq | hmem
    · cases heq
      exact isLeaf_of_leaf? htok
    · exact ih tok' hmem

/-- The lexemes in front of a place, by the groups that are open there. -/
def flatOpen : List (Delimiter × Tokens) → Tokens → List Lexeme
  | [], done => flat done.reverse
  | (d, before) :: outer, done => flatOpen outer before ++ .enter d :: flat done.reverse

theorem flatOpen_cons (outer : List (Delimiter × Tokens)) (t : Token) (done : Tokens) :
    flatOpen outer (t :: done) = flatOpen outer done ++ t.flat := by
  cases outer with
  | nil => simp [flatOpen]
  | cons o outer => simp [flatOpen]

theorem flatOpen_of_nest {outer : List (Delimiter × Tokens)} {done ts : Tokens} {ls : List Lexeme}
    (hleaf : ∀ tok, .token tok ∈ ls → tok.isLeaf = true) (h : nest outer done ls = some ts) :
    flatOpen outer done ++ ls = flat ts := by
  induction ls generalizing outer done with
  | nil =>
    cases outer with
    | nil =>
      obtain rfl := Option.some.inj h
      exact List.append_nil _
    | cons o outer => cases h
  | cons l ls ih =>
    have hleaf' : ∀ tok, .token tok ∈ ls → tok.isLeaf = true := fun tok hmem => hleaf tok (by simp [hmem])
    cases l with
    | token t =>
      have hflat := Token.flat_of_isLeaf (hleaf t (by simp))
      have h' : nest outer (t :: done) ls = some ts := by cases outer <;> exact h
      rw [← ih hleaf' h', flatOpen_cons, hflat, List.append_assoc]
      rfl
    | enter d =>
      have h' : nest ((d, done) :: outer) [] ls = some ts := by cases outer <;> exact h
      rw [← ih hleaf' h', flatOpen, List.append_assoc]
      rfl
    | leave d =>
      cases outer with
      | nil => cases h
      | cons o outer =>
        obtain ⟨d', before⟩ := o
        rw [nest] at h
        split at h
        · rename_i heq
          subst heq
          rw [← ih hleaf' h, flatOpen_cons, flatOpen, Token.flat]
          simp
        · cases h

/-- Lexemes are the tokens that are made of them, laid flat. -/
theorem Spells.eq_flat {gap : Char → Bool} {t : Text} {ls : List Lexeme} {ts : Tokens}
    (h : Spells gap t ls) (hnest : nest [] [] ls = some ts) : ls = flat ts :=
  flatOpen_of_nest h.isLeaf hnest

end Lexer

/-- A spelled text is read as tokens that it spells when they are laid flat. -/
theorem spells_of_lex {gap : Char → Bool} (hgap : ∀ c, gap c = true → Lexer.isGap c = true)
    {t : Text} {ts : Tokens} (h : Lexer.isSpelledFrom gap 0 (dropByteOrderMark t) = true)
    (hlex : lex t = some ts) : Lexer.Spells gap (dropByteOrderMark t) (flat ts) := by
  obtain ⟨ls, hls⟩ := Lexer.exists_spells h
  unfold lex lexemes at hlex
  rw [hls.lexemesFrom hgap] at hlex
  exact hls.eq_flat hlex ▸ hls

end RuleFormat
