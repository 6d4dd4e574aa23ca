import RuleFormat.Proofs.Block

/-!
# The atoms of a block

The reader of a block has modes, and goes on by one or two characters at a time.  Here a block is
read without modes, as a sequence of *atoms*: comments, string literals and arrows, each as a whole,
and all other characters one by one.  What a comment and a literal are is said by their bodies,
`CommentBody` and `StringBody`.

An atom in front of what can be read can be read (`Atom.Stands.reads`), and what can be read begins
with an atom, or with the comma that cuts it, or with the bracket that closes the block
(`Reads.exists_atom`).
-/

namespace RuleFormat

variable {inner inner' : List Bracket} {t u : Text} {w : Walk}

/-! ## String literals -/

/-- What stands between the quotes of a string literal: characters, and escapes of one character,
which may be a quote. -/
inductive StringBody : Text → Prop where
  | nil : StringBody []
  | char {c : Char} {u : Text} (hquote : c ≠ '"') (hescape : c ≠ '\\') (h : StringBody u) :
      StringBody (c :: u)
  | escape {c : Char} {u : Text} (h : StringBody u) : StringBody ('\\' :: c :: u)

theorem Keeps.string_char {c : Char} (hquote : c ≠ '"') (hescape : c ≠ '\\') :
    Keeps .string inner [c] t .string inner := by
  have hk : Keeps .string inner [c] t _ inner := .string
  rwa [if_neg hquote, if_neg hescape] at hk

theorem StringBody.reads (hu : StringBody u) (h : Reads .code inner t w) :
    Reads .string inner (u ++ '"' :: t) (w.put (u ++ ['"']) (u ++ ['"'])) := by
  induction hu with
  | nil => exact .keep .string h
  | char hquote hescape _ ih =>
    have hread := Reads.keep (.string_char hquote hescape) ih
    rwa [Walk.put_put] at hread
  | @escape c u _ ih =>
    have hread : Reads .string inner ('\\' :: c :: (u ++ '"' :: t)) _ :=
      .keep .string (.keep .escape ih)
    rwa [Walk.put_put, Walk.put_put] at hread

theorem Reads.exists_stringBody (h : Reads .string inner t w) :
    ∃ u t' w', StringBody u ∧ t = u ++ '"' :: t' ∧ Reads .code inner t' w' ∧
      w = w'.put (u ++ ['"']) (u ++ ['"']) := by
  induction hn : t.length using Nat.strongRecOn generalizing t w with
  | ind n ih =>
    cases h with
    | hide hh => cases hh
    | keep hk h =>
      cases hk with
      | @string _ _ c =>
        by_cases hquote : c = '"'
        · subst hquote
          exact ⟨[], _, _, .nil, rfl, h, rfl⟩
        rw [if_neg hquote] at h
        by_cases hescape : c = '\\'
        · -- an escape takes one more character, whatever that is
          subst hescape
          cases h with
          | hide hh => cases hh
          | keep hk h =>
            cases hk with
            | @escape _ _ d =>
              simp only [List.length_append, List.length_cons] at hn
              obtain ⟨u, t', w', hu, rfl, hread, rfl⟩ := ih _ (by omega) h rfl
              exact ⟨'\\' :: d :: u, t', w', .escape hu, rfl, hread, by
                rw [Walk.put_put, Walk.put_put]; rfl⟩
        · rw [if_neg hescape] at h
          simp only [List.length_append, List.length_cons] at hn
          obtain ⟨u, t', w', hu, rfl, hread, rfl⟩ := ih _ (by omega) h rfl
          exact ⟨c :: u, t', w', .char hquote hescape hu, rfl, hread, by rw [Walk.put_put]; rfl⟩

/-! ## Block comments -/

/-- What stands between the marks of a block comment: whole comments, and characters with which no
mark begins.  The closing mark is in view of the last one. -/
inductive CommentBody : Text → Prop where
  | nil : CommentBody []
  | char {c : Char} {u : Text} (hend : ¬(c = '*' ∧ (u ++ ['*', '/']).head? = some '/'))
      (hstart : ¬(c = '/' ∧ (u ++ ['*', '/']).head? = some '*')) (h : CommentBody u) :
      CommentBody (c :: u)
  | nested {u v : Text} (hu : CommentBody u) (hv : CommentBody v) :
      CommentBody ('/' :: '*' :: (u ++ '*' :: '/' :: v))

/-- The mode behind a comment that stands inside of `d` others. -/
def Mode.behindComment : Nat → Mode
  | 0 => .code
  | d + 1 => .comment d

theorem Hides.commentClose (d : Nat) :
    Hides (.comment d) ['*', '/'] [] t (Mode.behindComment d) := by
  cases d with
  | zero => exact .commentEnd
  | succ d => exact .innerEnd

theorem head?_append_commentClose (u t : Text) :
    (u ++ '*' :: '/' :: t).head? = (u ++ ['*', '/']).head? := by
  cases u <;> rfl

theorem CommentBody.reads (hu : CommentBody u) {d : Nat}
    (h : Reads (Mode.behindComment d) inner t w) :
    Reads (.comment d) inner (u ++ '*' :: '/' :: t) (w.put [] (u ++ ['*', '/'])) := by
  induction hu generalizing d t w with
  | nil => exact .hide (.commentClose d) h
  | char hend hstart _ ih =>
    rw [← head?_append_commentClose _ t] at hend hstart
    have hread := Reads.hide (.commentChar hend hstart) (ih h)
    rwa [Walk.put_put] at hread
  | @nested u v _ _ ihu ihv =>
    -- the inner comment is one deeper, and behind it the body goes on
    have hread := Reads.hide .innerStart (ihu (d := d + 1) (ihv h))
    simpa [Walk.put_put] using hread

theorem Reads.exists_commentBody {d : Nat} (h : Reads (.comment d) inner t w) :
    ∃ u t' w', CommentBody u ∧ t = u ++ '*' :: '/' :: t' ∧
      Reads (Mode.behindComment d) inner t' w' ∧ w = w'.put [] (u ++ ['*', '/']) := by
  induction hn : t.length using Nat.strongRecOn generalizing d t w with
  | ind n ih =>
    cases h with
    | keep hk => cases hk
    | hide hh h =>
      cases hh with
      | commentEnd => exact ⟨[], _, _, .nil, rfl, h, rfl⟩
      | innerEnd => exact ⟨[], _, _, .nil, rfl, h, rfl⟩
      | innerStart =>
        simp only [List.length_append, List.length_cons] at hn
        obtain ⟨u, t₁, w₁, hu, rfl, h₁, rfl⟩ := ih _ (by omega) h rfl
        simp only [List.length_append, List.length_cons] at hn
        obtain ⟨v, t₂, w₂, hv, rfl, h₂, rfl⟩ := ih _ (by omega) h₁ rfl
        refine ⟨_, t₂, w₂, .nested hu hv, by simp, h₂, ?_⟩
        simp [Walk.put_put]
      | commentChar hend hstart =>
        simp only [List.length_append, List.length_cons] at hn
        obtain ⟨u, t', w', hu, rfl, hread, rfl⟩ := ih _ (by omega) h rfl
        rw [head?_append_commentClose] at hend hstart
        exact ⟨_, t', w', .char hend hstart hu, rfl, hread, by rw [Walk.put_put]; rfl⟩

/-! ## Line comments -/

/-- A line feed ends a line comment, and is itself read as in code. -/
theorem walk_line_feed (inner : List Bracket) (t : Text) :
    walk .line inner ('\n' :: t) = walk .code inner ('\n' :: t) := by
  cases inner <;> rfl

theorem reads_line_feed_iff :
    Reads .line inner ('\n' :: t) w ↔ Reads .code inner ('\n' :: t) w := by
  rw [← walk_eq_ok_iff, walk_line_feed, walk_eq_ok_iff]

theorem Reads.line_chars (hu : '\n' ∉ u) (h : Reads .line inner t w) :
    Reads .line inner (u ++ t) (w.put [] u) := by
  induction u with
  | nil => exact h
  | cons c u ih =>
    rw [List.mem_cons, not_or] at hu
    have hread := Reads.hide (.lineChar (Ne.symm hu.1)) (ih hu.2)
    rwa [Walk.put_put] at hread

theorem Reads.exists_line (h : Reads .line inner t w) :
    ∃ u t' w', '\n' ∉ u ∧ t = u ++ '\n' :: t' ∧ Reads .code inner ('\n' :: t') w' ∧
      w = w'.put [] u := by
  generalize hm : Mode.line = m at h
  induction h with
  | done => cases hm
  | cut => cases hm
  | keep hk => subst hm; cases hk
  | hide hh h ih =>
    subst hm
    cases hh with
    | lineEnd => exact ⟨[], _, _, by simp, rfl, reads_line_feed_iff.1 (.hide .lineEnd h), rfl⟩
    | @lineChar _ c hc =>
      obtain ⟨u, t', w', hu, rfl, hread, rfl⟩ := ih rfl
      exact ⟨c :: u, t', w', by simp [Ne.symm hc, hu], rfl, hread, by rw [Walk.put_put]; rfl⟩

/-! ## Atoms -/

/-- The parts of a block that are read as a whole. -/
inductive Atom where
  /-- A line comment, the line feed behind it left out. -/
  | line (u : Text)
  | comment (u : Text)
  | string (u : Text)
  | arrow
  /-- A character outside of comments, string literals and arrows. -/
  | char (c : Char)
  deriving DecidableEq, Repr

namespace Atom

/-- An atom as it is written. -/
def text : Atom → Text
  | line u => '/' :: '/' :: u
  | comment u => '/' :: '*' :: (u ++ ['*', '/'])
  | string u => '"' :: (u ++ ['"'])
  | arrow => ['-', '>']
  | char c => [c]

/-- What an atom shows in its piece: a comment stands for one blank. -/
def shown : Atom → Text
  | line _ => [' ']
  | comment _ => [' ']
  | a => a.text

/-- Whether an atom is read when `ahead` follows it. -/
def Stands : Atom → Text → Prop
  | line u, ahead => '\n' ∉ u ∧ ∀ d, ahead.head? = some d → d = '\n'
  | comment u, _ => CommentBody u
  | string u, _ => StringBody u
  | arrow, _ => True
  | char c, ahead => c ≠ '"' ∧ Apart c ahead

/-- Whether an atom opens or closes a bracket. -/
def isBracket : Atom → Bool
  | char c => (Bracket.ofOpen? c).isSome || isClose c
  | _ => false

/-- The comma, which cuts a block where it stands outside of all brackets. -/
def comma : Atom := char ','

/-- `Moves inner a inner'`: an atom leads from inside the brackets `inner` to inside `inner'`. -/
inductive Moves : List Bracket → Atom → List Bracket → Prop where
  | opens {inner : List Bracket} {c : Char} {b : Bracket} (hb : Bracket.ofOpen? c = some b) :
      Moves inner (char c) (b :: inner)
  | closes {outer : List Bracket} {b : Bracket} : Moves (b :: outer) (char b.close) outer
  | other {inner : List Bracket} {a : Atom} (ha : a.isBracket = false) : Moves inner a inner

theorem text_ne_nil (a : Atom) : a.text ≠ [] := by
  cases a <;> simp [text]

theorem isBracket_char {c : Char} :
    (char c).isBracket = false ↔ Bracket.ofOpen? c = none ∧ isClose c = false := by
  simp [isBracket]

/-- An atom that is no bracket stays inside of the same ones. -/
theorem Moves.eq_of_not_bracket {a : Atom} (h : Moves inner a inner')
    (ha : a.isBracket = false) : inner' = inner := by
  cases h with
  | opens hb => simp [isBracket, hb] at ha
  | closes => simp [isBracket, isClose_close] at ha
  | other => rfl

end Atom

/-- An atom, unless it is a comma that cuts, can be read in front of what can be read. -/
theorem Atom.Stands.reads {a : Atom} (ha : a.Stands t) (hm : Moves inner a inner')
    (hcut : ¬(a = comma ∧ inner = [])) (h : Reads .code inner' t w) :
    Reads .code inner (a.text ++ t) (w.put a.shown a.text) := by
  cases a with
  | line u =>
    obtain rfl := hm.eq_of_not_bracket rfl
    obtain ⟨hu, hahead⟩ := ha
    cases t with
    | nil => exact absurd h.eq_append (by simp)
    | cons d t =>
      obtain rfl := hahead d rfl
      have hread := Reads.hide .lineStart ((reads_line_feed_iff.2 h).line_chars hu)
      rwa [Walk.put_put] at hread
  | comment u =>
    obtain rfl := hm.eq_of_not_bracket rfl
    have hread := Reads.hide .commentStart (CommentBody.reads ha (d := 0) h)
    simpa [Walk.put_put, text, shown] using hread
  | string u =>
    obtain rfl := hm.eq_of_not_bracket rfl
    have hread := Reads.keep .quote (StringBody.reads ha h)
    simpa [Walk.put_put, text, shown] using hread
  | arrow =>
    obtain rfl := hm.eq_of_not_bracket rfl
    exact .keep .arrow h
  | char c =>
    cases hm with
    | opens hb => exact .keep (.opens hb) h
    | closes => exact .keep .closes h
    | other hother =>
      obtain ⟨hopen, hclose⟩ := isBracket_char.1 hother
      have hcomma : ¬(c = ',' ∧ inner = []) := fun hc => hcut ⟨congrArg Atom.char hc.1, hc.2⟩
      exact .keep (.other hopen hclose ha.1 hcomma ha.2) h

/-- A block that can be read closes at once, or is cut at once, or begins with an atom that does
neither. -/
theorem Reads.exists_atom (h : Reads .code inner t w) :
    (∃ rest, inner = [] ∧ t = ')' :: rest ∧ w = .done rest) ∨
      (∃ t' w', inner = [] ∧ t = ',' :: t' ∧ Reads .code [] t' w' ∧ w = w'.cut) ∨
      ∃ a inner' t' w', Atom.Stands a t' ∧ Atom.Moves inner a inner' ∧
        ¬(a = .comma ∧ inner = []) ∧ t = a.text ++ t' ∧ Reads .code inner' t' w' ∧
        w = w'.put a.shown a.text := by
  cases h with
  | done => exact Or.inl ⟨_, rfl, rfl, rfl⟩
  | cut h => exact Or.inr (Or.inl ⟨_, _, rfl, rfl, h, rfl⟩)
  | keep hk h =>
    refine Or.inr (Or.inr ?_)
    cases hk with
    | quote =>
      obtain ⟨u, t', w', hu, rfl, hread, rfl⟩ := h.exists_stringBody
      refine ⟨.string u, inner, t', w', hu, .other rfl, nofun, ?_, hread, ?_⟩
      · simp [Atom.text]
      · simp [Walk.put_put, Atom.text, Atom.shown]
    | arrow => exact ⟨.arrow, inner, _, _, trivial, .other rfl, nofun, rfl, h, rfl⟩
    | @opens _ _ c b hb =>
      have hapart := apart_bracket (c := c) (Or.inl (by simp [hb]))
      refine ⟨.char c, _, _, _, hapart _, .opens hb, ?_, rfl, h, rfl⟩
      rintro ⟨hc, -⟩
      obtain rfl := Atom.char.inj hc
      cases hb
    | @closes _ _ b =>
      exact ⟨.char b.close, _, _, _, apart_bracket (Or.inr (isClose_close b)) _, .closes, nofun,
        rfl, h, rfl⟩
    | @other _ _ c hopen hclose hquote hcut hapart =>
      refine ⟨.char c, inner, _, _, ⟨hquote, hapart⟩,
        .other (Atom.isBracket_char.2 ⟨hopen, hclose⟩), ?_, rfl, h, rfl⟩
      exact fun hc => hcut ⟨Atom.char.inj hc.1, hc.2⟩
  | hide hh h =>
    refine Or.inr (Or.inr ?_)
    cases hh with
    | lineStart =>
      obtain ⟨u, t', w', hu, rfl, hread, rfl⟩ := h.exists_line
      refine ⟨.line u, inner, '\n' :: t', w', ⟨hu, ?_⟩, .other rfl, nofun, rfl, hread, ?_⟩
      · intro d hd
        exact (Option.some.inj hd).symm
      · rw [Walk.put_put]
        rfl
    | commentStart =>
      obtain ⟨u, t', w', hu, rfl, hread, rfl⟩ := h.exists_commentBody
      refine ⟨.comment u, inner, t', w', hu, .other rfl, nofun, ?_, hread, ?_⟩
      · simp [Atom.text]
      · simp [Walk.put_put, Atom.text, Atom.shown]

end RuleFormat
