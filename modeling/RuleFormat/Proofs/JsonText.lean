import Mathlib.Data.List.Basic
import RuleFormat.Report

/-!
# JSON is read in one way only

A report for programs is a text, and whoever reads it has only the text.  Here it is shown that the
text says everything: two results of runs with the same report are the same
(`render_json_eq_iff`).  Only a run on a path that is no text has no such report.

The argument goes from left to right.  Whatever a value is followed by, as long as no digit comes
next, the text of the value can be told from its rest (`pretty_append_inj`):

* no escape is the beginning of another, and none begins with a quotation mark
  (`escapeChar_append_inj`), so a string ends at the first mark that stands alone;
* a number ends where its digits end;
* the first character tells the kind of a value (`kindOf_pretty`), and behind an element or a field
  a comma tells that there is another one.
-/

namespace RuleFormat

namespace JsonValue

/-! ## Strings -/

/-- Whether a character is escaped inside a string. -/
def isEscaped (c : Char) : Bool := c == '"' || c == '\\' || c.toNat < 0x20

/-- All characters that are escaped. -/
def escapedChars : List Char := '"' :: '\\' :: (List.range 0x20).map Char.ofNat

theorem mem_escapedChars {c : Char} (h : isEscaped c = true) : c ∈ escapedChars := by
  simp only [isEscaped, Bool.or_eq_true, beq_iff_eq, decide_eq_true_eq] at h
  rcases h with (rfl | rfl) | h
  · exact List.mem_cons_self
  · exact List.mem_cons_of_mem _ List.mem_cons_self
  · refine List.mem_cons_of_mem _ (List.mem_cons_of_mem _ ?_)
    exact List.mem_map.2 ⟨c.toNat, List.mem_range.2 h, Char.ofNat_toNat c⟩

theorem escapeChar_of_not_isEscaped {c : Char} (h : isEscaped c = false) : escapeChar c = [c] := by
  simp only [isEscaped, Bool.or_eq_false_iff, beq_eq_false_iff_ne, decide_eq_false_iff_not] at h
  obtain ⟨⟨hquote, hslash⟩, hcontrol⟩ := h
  have htab : c ≠ '\t' := by rintro rfl; exact hcontrol (by decide)
  have hfeed : c ≠ '\n' := by rintro rfl; exact hcontrol (by decide)
  have hreturn : c ≠ '\r' := by rintro rfl; exact hcontrol (by decide)
  have h₈ : c.toNat ≠ 0x08 := by omega
  have h₁₂ : c.toNat ≠ 0x0C := by omega
  have h₁₆ : ¬c.toNat < 0x10 := by omega
  simp only [escapeChar, hquote, hslash, hcontrol, htab, hfeed, hreturn, h₈, h₁₂, h₁₆, if_false]

/-- No escape is the beginning of another one. -/
theorem eq_of_escapeChar_isPrefix {c d : Char} (hc : isEscaped c = true) (hd : isEscaped d = true)
    (h : escapeChar c <+: escapeChar d) : c = d := by
  have hall : escapedChars.all (fun c => escapedChars.all fun d =>
      !(escapeChar c).isPrefixOf (escapeChar d) || c == d) = true := by decide +kernel
  have hpair := List.all_eq_true.1 (List.all_eq_true.1 hall c (mem_escapedChars hc)) d
    (mem_escapedChars hd)
  rw [List.isPrefixOf_iff_prefix.2 h, Bool.not_true, Bool.false_or] at hpair
  exact beq_iff_eq.1 hpair

/-- No character of a string begins with a quotation mark, and only the escapes begin with a
backslash. -/
theorem exists_escapeChar_eq_cons (c : Char) :
    ∃ d u, escapeChar c = d :: u ∧ d ≠ '"' ∧ (isEscaped c = true ↔ d = '\\') := by
  cases h : isEscaped c with
  | true =>
    have hall : escapedChars.all (fun c => (escapeChar c).head? == some '\\') = true := by decide
    have hhead := beq_iff_eq.1 (List.all_eq_true.1 hall c (mem_escapedChars h))
    obtain ⟨u, hu⟩ := List.head?_eq_some_iff.1 hhead
    exact ⟨'\\', u, hu, by decide, by simp⟩
  | false =>
    have hc : c ≠ '"' ∧ c ≠ '\\' := by
      constructor <;> (rintro rfl; exact absurd h (by decide))
    exact ⟨c, [], escapeChar_of_not_isEscaped h, hc.1, by simp [hc.2]⟩

theorem escapeChar_append_inj {c d : Char} {s t : Text}
    (h : escapeChar c ++ s = escapeChar d ++ t) : c = d ∧ s = t := by
  have hcd : c = d := by
    obtain ⟨a, u, hu, -, ha⟩ := exists_escapeChar_eq_cons c
    obtain ⟨b, v, hv, -, hb⟩ := exists_escapeChar_eq_cons d
    have hab : a = b := by
      rw [hu, hv] at h
      exact (List.cons.inj h).1
    have hsame : isEscaped c = isEscaped d := by rw [Bool.eq_iff_iff, ha, hb, hab]
    cases hd : isEscaped d with
    | true =>
      rw [hd] at hsame
      have hc : escapeChar c <+: escapeChar d ++ t := ⟨s, h⟩
      rcases List.prefix_or_prefix_of_prefix hc (List.prefix_append _ t) with hcd | hdc
      · exact eq_of_escapeChar_isPrefix hsame hd hcd
      · exact (eq_of_escapeChar_isPrefix hd hsame hdc).symm
    | false =>
      rw [hd] at hsame
      rw [escapeChar_of_not_isEscaped hsame, escapeChar_of_not_isEscaped hd] at h
      exact (List.cons.inj h).1
  subst hcd
  exact ⟨rfl, List.append_cancel_left h⟩

theorem stringText_append_inj {a b s t : Text} (h : stringText a ++ s = stringText b ++ t) :
    a = b ∧ s = t := by
  simp only [stringText, List.cons_append, List.append_assoc, List.cons.injEq, true_and,
    List.nil_append] at h
  induction a generalizing b with
  | nil =>
    cases b with
    | nil => exact ⟨rfl, (List.cons.inj h).2⟩
    | cons d b =>
      obtain ⟨e, u, hu, he, -⟩ := exists_escapeChar_eq_cons d
      rw [List.flatMap_nil, List.flatMap_cons, hu] at h
      exact absurd (List.cons.inj h).1.symm he
  | cons c a ih =>
    cases b with
    | nil =>
      obtain ⟨e, u, hu, he, -⟩ := exists_escapeChar_eq_cons c
      rw [List.flatMap_nil, List.flatMap_cons, hu] at h
      exact absurd (List.cons.inj h).1 he
    | cons d b =>
      rw [List.flatMap_cons, List.flatMap_cons, List.append_assoc, List.append_assoc] at h
      obtain ⟨rfl, hrest⟩ := escapeChar_append_inj h
      obtain ⟨rfl, hst⟩ := ih hrest
      exact ⟨rfl, hst⟩

/-! ## Numbers -/

/-- A text that does not go on with a digit. -/
def Undigited (t : Text) : Prop := ∀ c, t.head? = some c → c.isDigit = false

theorem undigited_cons {c : Char} (hc : c.isDigit = false) (t : Text) : Undigited (c :: t) := by
  rintro d hd
  obtain rfl := Option.some.inj hd
  exact hc

theorem takeWhile_decimal_append (n : Nat) {t : Text} (ht : Undigited t) :
    (decimal n ++ t).takeWhile Char.isDigit = decimal n := by
  have hdigits : ∀ c ∈ decimal n, c.isDigit = true :=
    fun c hc => Nat.isDigit_of_mem_toDigits (by decide) (by decide) hc
  rw [List.takeWhile_append_of_pos hdigits]
  cases t with
  | nil => simp
  | cons c t => simp [ht c rfl]

theorem decimal_append_inj {m n : Nat} {s t : Text} (hs : Undigited s) (ht : Undigited t)
    (h : decimal m ++ s = decimal n ++ t) : m = n ∧ s = t := by
  have hdigits : decimal m = decimal n := by
    rw [← takeWhile_decimal_append m hs, h, takeWhile_decimal_append n ht]
  have hmn : m = n := by
    have hvalue := congrArg (fun ds => Nat.ofDigitChars 10 ds 0) hdigits
    simpa only [decimal, Nat.ofDigitChars_ten_toDigits] using hvalue
  subst hmn
  exact ⟨rfl, List.append_cancel_left h⟩

/-! ## Values -/

/-- The kinds of values. -/
inductive Kind where
  | string | number | boolean | array | object
  deriving DecidableEq

/-- The kind of a value. -/
def kind : JsonValue → Kind
  | .string _ => .string
  | .number _ => .number
  | .boolean _ => .boolean
  | .array _ => .array
  | .object _ => .object

/-- The kind of the values that begin with a character. -/
def kindOf (c : Char) : Kind :=
  if c = '"' then .string
  else if c.isDigit then .number
  else if c = '[' then .array
  else if c = '\x7b' then .object
  else .boolean

theorem kindOf_pretty (level : Nat) (v : JsonValue) :
    ∃ c u, pretty level v = c :: u ∧ kindOf c = v.kind := by
  cases v with
  | string t => exact ⟨'"', _, rfl, rfl⟩
  | number n =>
    obtain ⟨c, u, hu⟩ := List.exists_cons_of_ne_nil (Nat.toDigits_ne_nil (n := n) (b := 10))
    have hc : c.isDigit = true :=
      Nat.isDigit_of_mem_toDigits (b := 10) (n := n) (by decide) (by decide) (by simp [hu])
    have hquote : c ≠ '"' := by rintro rfl; exact absurd hc (by decide)
    exact ⟨c, u, by rw [pretty, decimal, hu], by simp [kindOf, hquote, hc, kind]⟩
  | boolean b => cases b <;> exact ⟨_, _, rfl, rfl⟩
  | array vs => cases vs <;> exact ⟨'[', _, rfl, rfl⟩
  | object fs => cases fs <;> exact ⟨'\x7b', _, rfl, rfl⟩

theorem kind_eq_of_append_eq {level : Nat} {v w : JsonValue} {s t : Text}
    (h : pretty level v ++ s = pretty level w ++ t) : v.kind = w.kind := by
  obtain ⟨c, u, hu, hc⟩ := kindOf_pretty level v
  obtain ⟨d, r, hr, hd⟩ := kindOf_pretty level w
  rw [hu, hr] at h
  rw [← hc, ← hd, (List.cons.inj h).1]

theorem undigited_of_feed {t : Text} (ht : t.head? = some '\n') : Undigited t := by
  intro c hc
  obtain rfl := Option.some.inj (hc.symm.trans ht)
  decide

theorem undigited_prettyRest (level : Nat) (vs : List JsonValue) {t : Text} (ht : Undigited t) :
    Undigited (prettyRest level vs ++ t) := by
  cases vs with
  | nil => exact ht
  | cons v vs => exact undigited_cons (by decide) _

theorem undigited_prettyFields (level : Nat) (fs : List (Text × JsonValue)) {t : Text}
    (ht : Undigited t) : Undigited (prettyFields level fs ++ t) := by
  cases fs with
  | nil => exact ht
  | cons f fs => exact undigited_cons (by decide) _

mutual

/-- The text of a value can be told from what follows it, if that is no digit. -/
theorem pretty_append_inj (level : Nat) (v w : JsonValue) {s t : Text} (hs : Undigited s)
    (ht : Undigited t) (h : pretty level v ++ s = pretty level w ++ t) : v = w ∧ s = t := by
  have hkind := kind_eq_of_append_eq h
  -- the first character tells the kind of a value, so that both are of one kind
  cases v with
  | string a =>
    cases w with
    | string b =>
      obtain ⟨rfl, hst⟩ := stringText_append_inj h
      exact ⟨rfl, hst⟩
    | _ => cases hkind
  | number m =>
    cases w with
    | number n =>
      obtain ⟨rfl, hst⟩ := decimal_append_inj hs ht h
      exact ⟨rfl, hst⟩
    | _ => cases hkind
  | boolean b =>
    cases w with
    | boolean b' =>
      cases b <;> cases b'
      · exact ⟨rfl, List.append_cancel_left h⟩
      · simp [pretty] at h
      · simp [pretty] at h
      · exact ⟨rfl, List.append_cancel_left h⟩
    | _ => cases hkind
  | array vs =>
    cases w with
    | array ws =>
      cases vs with
      | nil =>
        cases ws with
        | nil => exact ⟨rfl, by simpa [pretty] using h⟩
        | cons w ws => simp [pretty, newLine] at h
      | cons v vs =>
        cases ws with
        | nil => simp [pretty, newLine] at h
        | cons w ws =>
          simp only [pretty, List.cons_append, List.append_assoc, List.cons.injEq, true_and,
            List.append_cancel_left_eq] at h
          obtain ⟨rfl, hrest⟩ := pretty_append_inj (level + 1) v w
            (undigited_prettyRest _ vs (undigited_of_feed rfl))
            (undigited_prettyRest _ ws (undigited_of_feed rfl)) h
          obtain ⟨rfl, hend⟩ := prettyRest_append_inj (level + 1) vs ws rfl rfl hrest
          exact ⟨rfl, by simpa using hend⟩
    | _ => cases hkind
  | object fs =>
    cases w with
    | object gs =>
      cases fs with
      | nil =>
        cases gs with
        | nil => exact ⟨rfl, by simpa [pretty] using h⟩
        | cons g gs => simp [pretty, newLine] at h
      | cons f fs =>
        cases gs with
        | nil => simp [pretty, newLine] at h
        | cons g gs =>
          obtain ⟨k, v⟩ := f
          obtain ⟨l, w⟩ := g
          simp only [pretty, List.cons_append, List.append_assoc, List.cons.injEq, true_and,
            List.append_cancel_left_eq] at h
          obtain ⟨rfl, hvalue⟩ := stringText_append_inj h
          obtain ⟨rfl, hrest⟩ := pretty_append_inj (level + 1) v w
            (undigited_prettyFields _ fs (undigited_of_feed rfl))
            (undigited_prettyFields _ gs (undigited_of_feed rfl)) (List.append_cancel_left hvalue)
          obtain ⟨rfl, hend⟩ := prettyFields_append_inj (level + 1) fs gs rfl rfl hrest
          exact ⟨rfl, by simpa using hend⟩
    | _ => cases hkind

/-- The elements of an array end in front of a line feed. -/
theorem prettyRest_append_inj (level : Nat) (vs ws : List JsonValue) {s t : Text}
    (hs : s.head? = some '\n') (ht : t.head? = some '\n')
    (h : prettyRest level vs ++ s = prettyRest level ws ++ t) : vs = ws ∧ s = t := by
  cases vs with
  | nil =>
    cases ws with
    | nil => exact ⟨rfl, h⟩
    | cons w ws =>
      rw [show s = _ from h] at hs
      simp [prettyRest] at hs
  | cons v vs =>
    cases ws with
    | nil =>
      rw [show t = _ from h.symm] at ht
      simp [prettyRest] at ht
    | cons w ws =>
      simp only [prettyRest, List.cons_append, List.append_assoc, List.cons.injEq, true_and,
        List.append_cancel_left_eq] at h
      obtain ⟨rfl, hrest⟩ := pretty_append_inj level v w
        (undigited_prettyRest _ vs (undigited_of_feed hs))
        (undigited_prettyRest _ ws (undigited_of_feed ht)) h
      obtain ⟨rfl, hst⟩ := prettyRest_append_inj level vs ws hs ht hrest
      exact ⟨rfl, hst⟩

/-- The fields of an object end in front of a line feed. -/
theorem prettyFields_append_inj (level : Nat) (fs gs : List (Text × JsonValue)) {s t : Text}
    (hs : s.head? = some '\n') (ht : t.head? = some '\n')
    (h : prettyFields level fs ++ s = prettyFields level gs ++ t) : fs = gs ∧ s = t := by
  cases fs with
  | nil =>
    cases gs with
    | nil => exact ⟨rfl, h⟩
    | cons g gs =>
      rw [show s = _ from h] at hs
      simp [prettyFields] at hs
  | cons f fs =>
    cases gs with
    | nil =>
      rw [show t = _ from h.symm] at ht
      simp [prettyFields] at ht
    | cons g gs =>
      obtain ⟨k, v⟩ := f
      obtain ⟨l, w⟩ := g
      simp only [prettyFields, List.cons_append, List.append_assoc, List.cons.injEq, true_and,
        List.append_cancel_left_eq] at h
      obtain ⟨rfl, hvalue⟩ := stringText_append_inj h
      obtain ⟨rfl, hrest⟩ := pretty_append_inj level v w
        (undigited_prettyFields _ fs (undigited_of_feed hs))
        (undigited_prettyFields _ gs (undigited_of_feed ht)) (List.append_cancel_left hvalue)
      obtain ⟨rfl, hst⟩ := prettyFields_append_inj level fs gs hs ht hrest
      exact ⟨rfl, hst⟩

end

end JsonValue

/-! ## Reports -/

theorem DropReason.label_injective : Function.Injective DropReason.label := by
  intro r r' h
  cases r <;> cases r' <;> (revert h; decide)

theorem Diagnostic.toJson_injective : Function.Injective Diagnostic.toJson := by
  intro d e h
  -- diagnostics of different kinds differ in their first field already
  cases d with
  | noMatches =>
    cases e with
    | noMatches => rfl
    | _ => simp [Diagnostic.toJson] at h
  | malformed rule line reason =>
    cases e with
    | malformed rule' line' reason' => simpa [Diagnostic.toJson] using h
    | _ => simp [Diagnostic.toJson] at h
  | dropped rule line parameter reason =>
    cases e with
    | dropped rule' line' parameter' reason' =>
      simp only [Diagnostic.toJson, JsonValue.object.injEq, JsonValue.string.injEq,
        JsonValue.number.injEq, List.cons.injEq, Prod.mk.injEq, true_and, and_true] at h
      obtain ⟨rfl, rfl, rfl, hreason⟩ := h
      rw [DropReason.label_injective hreason]
    | _ => simp [Diagnostic.toJson] at h

theorem RuleSummary.toJson_injective : Function.Injective RuleSummary.toJson := by
  rintro ⟨⟩ ⟨⟩ h
  simpa [RuleSummary.toJson] using h

theorem Report.toJson_injective : Function.Injective Report.toJson := by
  rintro ⟨matched, changed, rules, diagnostics⟩ ⟨matched', changed', rules', diagnostics'⟩ h
  simp only [Report.toJson, JsonValue.object.injEq, JsonValue.array.injEq, JsonValue.number.injEq,
    List.cons.injEq, Prod.mk.injEq, true_and, and_true] at h
  obtain ⟨rfl, rfl, hrules, hdiagnostics⟩ := h
  rw [List.map_injective_iff.2 RuleSummary.toJson_injective hrules,
    List.map_injective_iff.2 Diagnostic.toJson_injective hdiagnostics]

/-- A result has a form in JSON exactly when its path is a text. -/
theorem Outcome.toJson?_eq_none_iff {o : Outcome} :
    o.toJson? = none ↔ ¬∃ path, utf8 path = o.path := by
  rw [Outcome.toJson?, Option.map_eq_none_iff, Option.eq_none_iff_forall_ne_some, not_exists]
  simp only [ne_eq, toText?_eq_some_iff]

theorem Outcome.eq_of_toJson?_eq_some {o o' : Outcome} {v : JsonValue} (h : o.toJson? = some v)
    (h' : o'.toJson? = some v) : o = o' := by
  obtain ⟨path, report, wouldChange, written⟩ := o
  obtain ⟨path', report', wouldChange', written'⟩ := o'
  obtain ⟨t, ht, rfl⟩ := Option.map_eq_some_iff.1 h
  obtain ⟨t', ht', hsame⟩ := Option.map_eq_some_iff.1 h'
  obtain rfl := toText?_eq_some_iff.1 ht
  obtain rfl := toText?_eq_some_iff.1 ht'
  simp only [JsonValue.object.injEq, JsonValue.string.injEq, JsonValue.boolean.injEq,
    List.cons.injEq, Prod.mk.injEq, true_and, and_true] at hsame
  obtain ⟨rfl, hreport, rfl, rfl⟩ := hsame
  rw [Report.toJson_injective hreport]

/-- **A report for programs says everything.**  There is one exactly when the path is a text.  Two
results of runs have the same report exactly when they agree in their paths, in the summaries of all
rules, in all diagnostics, in the counts, and in what was and would be done to the file, unless there
is none for both of them.  Colours make no difference. -/
theorem render_json_eq_iff (o o' : Outcome) (color color' : Bool) :
    (o.render color .json = none ↔ ¬∃ path, utf8 path = o.path) ∧
      (o.render color .json = o'.render color' .json ↔
        o = o' ∨ o.render color .json = none ∧ o'.render color' .json = none) := by
  have hnone : ∀ (o : Outcome) (color : Bool), o.render color .json = none ↔ o.toJson? = none :=
    fun o _ => Option.map_eq_none_iff
  refine ⟨(hnone o color).trans Outcome.toJson?_eq_none_iff, ?_⟩
  rw [hnone, hnone]
  constructor
  · intro h
    change o.toJson?.map _ = o'.toJson?.map _ at h
    cases hv : o.toJson? with
    | none => exact .inr ⟨rfl, by simpa [hv] using h.symm⟩
    | some v =>
      obtain ⟨v', hv', htext⟩ := Option.map_eq_some_iff.1 (h.symm.trans (by rw [hv, Option.map_some]))
      have hend : JsonValue.Undigited ['\n'] := JsonValue.undigited_of_feed rfl
      obtain ⟨rfl, -⟩ := JsonValue.pretty_append_inj 0 v' v hend hend htext
      exact .inl (Outcome.eq_of_toJson?_eq_some hv hv')
  · rintro (rfl | ⟨h, h'⟩)
    · rfl
    · rw [(hnone o color).2 h, (hnone o' color').2 h']

end RuleFormat
