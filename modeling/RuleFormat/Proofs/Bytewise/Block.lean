import RuleFormat.Proofs.Atom
import RuleFormat.Proofs.Utf8

/-!
# Parameter blocks byte by byte

`walk` reads the characters of a block.  `blockFrom` reads the same block by offsets into the bytes
of the whole text, with one loop for a comment (`skipComment`) and one for a string literal
(`skipString`), both of which go through characters of several bytes one byte at a time.

Every access is checked.  The loops say `none` where they would read a byte past the end, cut the
text at an offset that does not allow it (`slice?`), leave more comments than they have entered, or
not move on.  They never do: from an offset between two characters, `blockFrom` says what `walk`
does (`blockFrom_eq`), and behind the end of the text it finds the block unclosed
(`blockFrom_past_end`).
-/

namespace RuleFormat.Bytewise

/-! ## The loops -/

/-- A difference, if there is one. -/
def minus? (m n : Nat) : Option Nat := if n ≤ m then some (m - n) else none

/-- The offset behind a block comment, from offset `i` inside of `depth` comments. -/
def skipComment (t : Text) (depth i : Nat) : Option (Except BlockFault Nat) :=
  if i + 1 < byteLength t then do
    let c ← byteAt? t i
    let d ← byteAt? t (i + 1)
    if c = '/' ∧ d = '*' then skipComment t (depth + 1) (i + 2)
    else if c = '*' ∧ d = '/' then
      let outer ← minus? depth 1
      if outer = 0 then return .ok (i + 2) else skipComment t outer (i + 2)
    else skipComment t depth (i + 1)
  else return .error .unclosedComment
termination_by byteLength t - i

/-- The offset behind a string literal, from offset `i` inside of it. -/
def skipString (t : Text) (i : Nat) : Option (Except BlockFault Nat) :=
  if i < byteLength t then do
    let c ← byteAt? t i
    if c = '\\' then skipString t (i + 2)
    else if c = '"' then return .ok (i + 1)
    else skipString t (i + 1)
  else return .error .unclosedString
termination_by byteLength t - i

/-- The offset where the line of offset `i` ends. -/
def lineEnd (t : Text) (i : Nat) : Option Nat := do
  let rest ← slice? t i (byteLength t)
  return if '\n' ∈ rest then i + byteLength (rest.takeWhile (· != '\n')) else byteLength t

/-- The number of bytes of the character at an offset. -/
def charSize (t : Text) (i : Nat) : Option Nat := do
  let rest ← slice? t i (byteLength t)
  return (rest.head?.map Char.utf8Size).getD 1

/-- The brackets that are open behind a byte in code. -/
def nest (inner : List Bracket) (c : Char) : Except BlockFault (List Bracket) :=
  match Bracket.ofOpen? c with
  | some b => .ok (b :: inner)
  | none =>
    if isClose c then
      match inner with
      | [] => .error (.unbalanced c)
      | b :: outer => if b.close = c then .ok outer else .error (.unbalanced c)
    else .ok inner

/-- A block that could be read: the offset of its closing bracket, and its fragments. -/
structure BlockEnd where
  close : Nat
  fragments : List Text
  deriving DecidableEq, Repr

/-- Reads a block from offset `i` on, inside of the brackets `inner`, with the fragments `done`
finished and `piece` read of the next one. -/
def blockFrom (t : Text) (inner : List Bracket) (done : List Text) (piece : Text) (i : Nat) :
    Option (Except BlockFault BlockEnd) :=
  if i < byteLength t then do
    let c ← byteAt? t i
    let next := byteAt? t (i + 1)
    if c = '/' ∧ next = some '/' then
      let j ← lineEnd t i
      if i < j then blockFrom t inner done (piece ++ [' ']) j else none
    else if c = '/' ∧ next = some '*' then
      match ← skipComment t 0 i with
      | .error f => return .error f
      | .ok j => if i < j then blockFrom t inner done (piece ++ [' ']) j else none
    else if c = '"' then
      match ← skipString t (i + 1) with
      | .error f => return .error f
      | .ok j =>
        let literal ← slice? t i j
        if i < j then blockFrom t inner done (piece ++ literal) j else none
    else if c = '-' ∧ next = some '>' then blockFrom t inner done (piece ++ ['-', '>']) (i + 2)
    else if c = ')' ∧ inner = [] then return .ok ⟨i, done ++ fragments [piece]⟩
    else if c = ',' ∧ inner = [] then blockFrom t inner (done ++ fragments [piece]) [] (i + 1)
    else
      match nest inner c with
      | .error f => return .error f
      | .ok inner' =>
        let size ← charSize t i
        let shown ← slice? t i (i + size)
        if 0 < size then blockFrom t inner' done (piece ++ shown) (i + size) else none
  else return .error .unclosedList
termination_by byteLength t - i

/-! ## Passing characters by -/

/-- A loop that passes each of `n` bytes by passes them all. -/
theorem pass_bytes {α : Type} {f : Nat → α} {i n : Nat}
    (h : ∀ k, k < n → f (i + k) = f (i + k + 1)) : f i = f (i + n) := by
  induction n with
  | zero => rfl
  | succ n ih =>
    have hfirst : f i = f (i + n) := ih fun k hk => h k (Nat.lt_succ_of_lt hk)
    rw [hfirst, h n (Nat.lt_succ_self n)]
    rfl

theorem byteLength_append_singleton (p : Text) (c : Char) :
    byteLength (p ++ [c]) = byteLength p + c.utf8Size := by
  simp

theorem skipString_step {t : Text} {i : Nat} {b : Char} (hb : byteAt? t i = some b)
    (hbackslash : b ≠ '\\') (hquote : b ≠ '"') : skipString t i = skipString t (i + 1) := by
  rw [skipString, if_pos (exists_byteAt?_iff.1 ⟨b, hb⟩), hb]
  simp only [Option.bind_eq_bind, Option.bind_some, if_neg hbackslash, if_neg hquote]

theorem skipString_char {c : Char} (hbackslash : c ≠ '\\') (hquote : c ≠ '"') (p cs : Text) :
    skipString (p ++ c :: cs) (byteLength p)
      = skipString (p ++ c :: cs) (byteLength (p ++ [c])) := by
  rw [byteLength_append_singleton]
  refine pass_bytes fun k hk => ?_
  obtain ⟨b, hb, hcase⟩ := byteAt?_cons_of_lt hk cs
  rw [← byteAt?_append p] at hb
  rcases hcase with ⟨rfl, -⟩ | ⟨hlarge, -⟩
  · exact skipString_step hb hbackslash hquote
  · refine skipString_step hb ?_ ?_ <;> (rintro rfl; exact hlarge rfl)

/-- From inside of a character, the loop comes to its end. -/
theorem skipString_inside (c : Char) (p cs : Text) :
    skipString (p ++ c :: cs) (byteLength p + 1)
      = skipString (p ++ c :: cs) (byteLength (p ++ [c])) := by
  have hpos := c.utf8Size_pos
  have hstop : byteLength (p ++ [c]) = byteLength p + 1 + (c.utf8Size - 1) := by
    rw [byteLength_append_singleton]
    omega
  rw [hstop]
  refine pass_bytes fun k hk => ?_
  have hinside : 1 + k < c.utf8Size := by omega
  obtain ⟨b, hb, hcase⟩ := byteAt?_cons_of_lt hinside cs
  rw [← byteAt?_append p, ← Nat.add_assoc] at hb
  rcases hcase with ⟨-, hone⟩ | ⟨hlarge, -⟩
  · omega
  · refine skipString_step hb ?_ ?_ <;> (rintro rfl; exact hlarge rfl)

theorem skipComment_step {t : Text} {i : Nat} {b : Char} (depth : Nat) (hb : byteAt? t i = some b)
    (hstart : ¬(b = '/' ∧ byteAt? t (i + 1) = some '*'))
    (hend : ¬(b = '*' ∧ byteAt? t (i + 1) = some '/')) :
    skipComment t depth i = skipComment t depth (i + 1) := by
  by_cases hi : i + 1 < byteLength t
  · obtain ⟨d, hd⟩ := exists_byteAt?_iff.2 hi
    rw [hd, Option.some.injEq] at hstart hend
    rw [skipComment, if_pos hi, hb, hd]
    simp only [Option.bind_eq_bind, Option.bind_some, if_neg hstart, if_neg hend]
  · rw [skipComment, if_neg hi, skipComment, if_neg (by omega)]

theorem skipComment_char {c : Char} {cs : Text} (hend : ¬(c = '*' ∧ cs.head? = some '/'))
    (hstart : ¬(c = '/' ∧ cs.head? = some '*')) (depth : Nat) (p : Text) :
    skipComment (p ++ c :: cs) depth (byteLength p)
      = skipComment (p ++ c :: cs) depth (byteLength (p ++ [c])) := by
  rw [byteLength_append_singleton]
  refine pass_bytes fun k hk => ?_
  obtain ⟨b, hb, hcase⟩ := byteAt?_cons_of_lt hk cs
  rw [← byteAt?_append p] at hb
  rcases hcase with ⟨rfl, hone⟩ | ⟨hlarge, -⟩
  · obtain rfl : k = 0 := by omega
    refine skipComment_step depth hb ?_ ?_
    · rwa [Nat.add_zero, byteAt?_succ_eq_some_iff rfl hone]
    · rwa [Nat.add_zero, byteAt?_succ_eq_some_iff rfl hone]
  · refine skipComment_step depth hb ?_ ?_ <;> (rintro ⟨rfl, -⟩; exact hlarge rfl)

/-! ## Comments and string literals -/

/-- `Skips view m p cs r`: to read `cs` in mode `m` is to go on in code at the offset `r`, which
counts from the beginning of a text that has `p` in front.  The characters up to there show as
`view` of them.  If `r` is a fault, then the block cannot be read, for that reason. -/
inductive Skips (view : Text → Text) (m : Mode) (p cs : Text) :
    Option (Except BlockFault Nat) → Prop where
  | fails {f : BlockFault} (h : ∀ inner, walk m inner cs = .error f) :
      Skips view m p cs (some (.error f))
  | stops (skipped rest : Text) (hcs : cs = skipped ++ rest)
      (h : ∀ inner, walk m inner cs = (walk .code inner rest).map (·.put (view skipped) skipped)) :
      Skips view m p cs (some (.ok (byteLength (p ++ skipped))))

/-- What can be skipped behind a turn can be skipped together with it. -/
theorem Skips.turn {view : Text → Text} {m : Mode} {p shown ahead : Text}
    {r : Option (Except BlockFault Nat)} (raw : Text) (m' : Mode)
    (hwalk : ∀ inner, walk m inner (raw ++ ahead) = (walk m' inner ahead).map (·.put shown raw))
    (hview : ∀ s, view (raw ++ s) = shown ++ view s) (h : Skips view m' (p ++ raw) ahead r) :
    Skips view m p (raw ++ ahead) r := by
  cases h with
  | fails h =>
    refine .fails fun inner => ?_
    rw [hwalk, h]
    rfl
  | stops skipped rest hcs h =>
    rw [List.append_assoc]
    refine .stops (raw ++ skipped) rest (by rw [hcs, List.append_assoc]) fun inner => ?_
    rw [hwalk, h, hview]
    cases walk .code inner rest with
    | error f => rfl
    | ok w => exact congrArg Except.ok (Walk.put_put ..)

theorem skipComment_start (depth : Nat) (p cs : Text) :
    skipComment (p ++ '/' :: '*' :: cs) depth (byteLength p)
      = skipComment (p ++ '/' :: '*' :: cs) (depth + 1) (byteLength (p ++ ['/', '*'])) := by
  obtain ⟨hfirst, hsecond⟩ := byteAt?_mark (c := '/') (d := '*') rfl rfl p cs
  have hstop : byteLength (p ++ ['/', '*']) = byteLength p + 2 := byteLength_append _ _
  rw [skipComment, if_pos (exists_byteAt?_iff.1 ⟨_, hsecond⟩), hfirst, hsecond, hstop]
  rfl

theorem skipComment_end (depth : Nat) (p cs : Text) :
    skipComment (p ++ '*' :: '/' :: cs) (depth + 1) (byteLength p)
      = if depth = 0 then some (.ok (byteLength (p ++ ['*', '/'])))
        else skipComment (p ++ '*' :: '/' :: cs) depth (byteLength (p ++ ['*', '/'])) := by
  obtain ⟨hfirst, hsecond⟩ := byteAt?_mark (c := '*') (d := '/') rfl rfl p cs
  have hstop : byteLength (p ++ ['*', '/']) = byteLength p + 2 := byteLength_append _ _
  have hminus : minus? (depth + 1) 1 = some depth := if_pos (Nat.le_add_left 1 depth)
  rw [skipComment, if_pos (exists_byteAt?_iff.1 ⟨_, hsecond⟩), hfirst, hsecond, hstop]
  simp only [Option.bind_eq_bind, Option.bind_some, hminus]
  rfl

/-- The loop for comments skips what the reader skips, inside of one comment more. -/
theorem skips_comment (d : Nat) (p cs : Text) :
    Skips (fun _ => []) (.comment d) p cs (skipComment (p ++ cs) (d + 1) (byteLength p)) := by
  induction hn : cs.length using Nat.strongRecOn generalizing d p cs with
  | ind n ih =>
    cases cs with
    | nil =>
      rw [skipComment, if_neg (by rw [List.append_nil]; omega)]
      exact .fails fun _ => rfl
    | cons c cs =>
      rw [List.length_cons] at hn
      by_cases hend : c = '*' ∧ cs.head? = some '/'
      · obtain ⟨rfl, hhead⟩ := hend
        obtain ⟨r, rfl⟩ := List.head?_eq_some_iff.1 hhead
        rw [skipComment_end]
        cases d with
        | zero => exact .stops ['*', '/'] r rfl fun _ => rfl
        | succ d =>
          rw [List.length_cons] at hn
          have hrest := ih r.length (by omega) d (p ++ ['*', '/']) r rfl
          rw [List.append_assoc] at hrest
          exact .turn _ _ (fun inner => walk_hides inner .innerEnd) (fun _ => rfl) hrest
      by_cases hstart : c = '/' ∧ cs.head? = some '*'
      · obtain ⟨rfl, hhead⟩ := hstart
        obtain ⟨r, rfl⟩ := List.head?_eq_some_iff.1 hhead
        rw [List.length_cons] at hn
        have hrest := ih r.length (by omega) (d + 1) (p ++ ['/', '*']) r rfl
        rw [List.append_assoc] at hrest
        rw [skipComment_start]
        exact .turn _ _ (fun inner => walk_hides inner .innerStart) (fun _ => rfl) hrest
      · have hrest := ih cs.length (by omega) d (p ++ [c]) cs rfl
        rw [List.append_assoc] at hrest
        rw [skipComment_char hend hstart]
        have hturn : ∀ inner, walk (.comment d) inner ([c] ++ cs)
            = (walk (.comment d) inner cs).map (·.put [] [c]) :=
          fun inner => walk_hides inner (.commentChar hend hstart)
        exact .turn [c] (.comment d) hturn (fun _ => rfl) hrest

theorem skipString_backslash (p cs : Text) :
    skipString (p ++ '\\' :: cs) (byteLength p)
      = skipString (p ++ '\\' :: cs) (byteLength (p ++ ['\\']) + 1) := by
  have hbyte : byteAt? (p ++ '\\' :: cs) (byteLength p) = some '\\' :=
    (byteAt?_eq_some_iff rfl _ _).2 rfl
  have hstop : byteLength (p ++ ['\\']) + 1 = byteLength p + 2 := by
    rw [byteLength_append_singleton]
    rfl
  rw [skipString, if_pos (exists_byteAt?_iff.1 ⟨_, hbyte⟩), hbyte, hstop]
  rfl

theorem skipString_quote (p cs : Text) :
    skipString (p ++ '"' :: cs) (byteLength p) = some (.ok (byteLength (p ++ ['"']))) := by
  have hbyte : byteAt? (p ++ '"' :: cs) (byteLength p) = some '"' :=
    (byteAt?_eq_some_iff rfl _ _).2 rfl
  rw [skipString, if_pos (exists_byteAt?_iff.1 ⟨_, hbyte⟩), hbyte, byteLength_append_singleton]
  rfl

/-- The loop for string literals skips what the reader keeps.  Behind a backslash it can land
inside of a character, and it comes to the end of it. -/
theorem skips_string (p cs : Text) :
    Skips id .string p cs (skipString (p ++ cs) (byteLength p)) := by
  induction hn : cs.length using Nat.strongRecOn generalizing p cs with
  | ind n ih =>
    cases cs with
    | nil =>
      rw [skipString, if_neg (by rw [List.append_nil]; omega)]
      exact .fails fun _ => rfl
    | cons c cs =>
      rw [List.length_cons] at hn
      by_cases hbackslash : c = '\\'
      · subst hbackslash
        rw [skipString_backslash]
        refine .turn ['\\'] .escape (fun _ => rfl) (fun _ => rfl) ?_
        cases cs with
        | nil =>
          rw [skipString, if_neg (by omega)]
          exact .fails fun _ => rfl
        | cons e cs =>
          have htext : p ++ '\\' :: e :: cs = p ++ ['\\'] ++ e :: cs := by simp
          rw [List.length_cons] at hn
          have hrest := ih cs.length (by omega) (p ++ ['\\'] ++ [e]) cs rfl
          rw [List.append_assoc (p ++ ['\\'])] at hrest
          rw [htext, skipString_inside]
          exact .turn [e] .string (fun _ => rfl) (fun _ => rfl) hrest
      by_cases hquote : c = '"'
      · subst hquote
        rw [skipString_quote]
        exact .stops ['"'] cs rfl fun _ => rfl
      · have hrest := ih cs.length (by omega) (p ++ [c]) cs rfl
        rw [List.append_assoc] at hrest
        rw [skipString_char hbackslash hquote]
        refine .turn [c] .string (fun inner => ?_) (fun _ => rfl) hrest
        rw [List.singleton_append, walk, if_neg hquote, if_neg hbackslash]
        rfl

theorem lineEnd_eq (p cs : Text) :
    lineEnd (p ++ cs) (byteLength p) = some (byteLength (p ++ cs.takeWhile (· != '\n'))) := by
  rw [lineEnd, slice?_to_end]
  by_cases hmem : '\n' ∈ cs
  · simp [hmem]
  · have hall : cs.takeWhile (· != '\n') = cs := by
      rw [List.takeWhile_eq_self_iff]
      intro c hc
      simp only [bne_iff_ne]
      rintro rfl
      exact hmem hc
    simp [hmem, hall]

/-- A line comment ends in front of the line feed, which is code. -/
theorem walk_line (inner : List Bracket) (cs : Text) :
    walk .line inner cs = (walk .code inner (cs.dropWhile (· != '\n'))).map
      (·.put [] (cs.takeWhile (· != '\n'))) := by
  induction cs with
  | nil => rfl
  | cons c cs ih =>
    by_cases hc : c = '\n'
    · subst hc
      rw [walk_line_feed, List.dropWhile_cons_of_neg (by simp),
        List.takeWhile_cons_of_neg (by simp)]
      cases walk .code inner ('\n' :: cs) <;> rfl
    · have hne : (c != '\n') = true := by simpa using hc
      rw [walk, if_neg hc, ih, List.dropWhile_cons, List.takeWhile_cons, if_pos hne, if_pos hne]
      cases walk .code inner (cs.dropWhile (· != '\n')) <;> rfl

/-! ## Code -/

/-- What a walk behind `p` says about a block of which `done` and `piece` are read before it. -/
def blockEnd (p : Text) (done : List Text) (piece : Text) (w : Walk) : BlockEnd :=
  ⟨byteLength (p ++ w.body), done ++ fragments ((piece ++ w.piece) :: w.pieces)⟩

theorem blockEnd_put (p : Text) (done : List Text) (piece shown raw : Text) (w : Walk) :
    blockEnd p done piece (w.put shown raw) = blockEnd (p ++ raw) done (piece ++ shown) w := by
  simp [blockEnd, Walk.put]

theorem blockEnd_cut (p : Text) (done : List Text) (piece : Text) (w : Walk) :
    blockEnd p done piece w.cut = blockEnd (p ++ [',']) (done ++ fragments [piece]) [] w := by
  have hfragments : fragments (piece :: w.piece :: w.pieces)
      = fragments [piece] ++ fragments (w.piece :: w.pieces) := by
    simp [fragments, List.filter_cons]
    split <;> rfl
  simp [blockEnd, Walk.cut, hfragments]

/-- Behind `p`, the loop says what the reader does. -/
def Agrees (p : Text) (inner : List Bracket) (done : List Text) (piece cs : Text) : Prop :=
  blockFrom (p ++ cs) inner done piece (byteLength p)
    = some ((walk .code inner cs).map (blockEnd p done piece))

theorem Agrees.turn {p shown ahead piece : Text} {inner inner' : List Bracket}
    {done : List Text} (raw : Text)
    (hloop : blockFrom (p ++ (raw ++ ahead)) inner done piece (byteLength p)
      = blockFrom (p ++ (raw ++ ahead)) inner' done (piece ++ shown) (byteLength (p ++ raw)))
    (hwalk : walk .code inner (raw ++ ahead) = (walk .code inner' ahead).map (·.put shown raw))
    (h : Agrees (p ++ raw) inner' done (piece ++ shown) ahead) :
    Agrees p inner done piece (raw ++ ahead) := by
  unfold Agrees at *
  rw [hloop, hwalk, ← List.append_assoc, h]
  cases walk .code inner' ahead with
  | error f => rfl
  | ok w => exact congrArg (some ∘ Except.ok) (blockEnd_put ..).symm

theorem nest_of_large {c : Char} (hc : c.utf8Size ≠ 1) (inner : List Bracket) :
    nest inner c = .ok inner := by
  have hne : ∀ a : Char, a.utf8Size = 1 → c ≠ a := by
    rintro a ha rfl
    exact hc ha
  have hopen : Bracket.ofOpen? c = none := by
    unfold Bracket.ofOpen?
    split
    · exact absurd rfl (hne _ rfl)
    · exact absurd rfl (hne _ rfl)
    · exact absurd rfl (hne _ rfl)
    · exact absurd rfl (hne _ rfl)
    · rfl
  have hclose : isClose c = false := by
    simp [isClose, hne ')' rfl, hne ']' rfl, hne '}' rfl, hne '>' rfl]
  simp [nest, hopen, hclose]

/-- The byte of a character in code: it is told from an ASCII character as the character is, and
opens and closes what the character does. -/
theorem exists_code_byte (c : Char) (p cs : Text) :
    ∃ b, byteAt? (p ++ c :: cs) (byteLength p) = some b ∧
      (∀ a : Char, a.utf8Size = 1 → (b = a ↔ c = a)) ∧ ∀ inner, nest inner b = nest inner c := by
  obtain ⟨b, hb, hcase⟩ := byteAt?_cons_of_lt c.utf8Size_pos cs
  rw [← byteAt?_append p, Nat.add_zero] at hb
  refine ⟨b, hb, ?_⟩
  rcases hcase with ⟨rfl, -⟩ | ⟨hb, hc⟩
  · exact ⟨fun _ _ => Iff.rfl, fun _ => rfl⟩
  · refine ⟨fun a ha => ?_, fun inner => ?_⟩
    · constructor
      · rintro rfl
        exact absurd ha hb
      · rintro rfl
        exact absurd ha hc
    · rw [nest_of_large hb, nest_of_large hc]

/-- In code, a character that makes no mark and neither ends the block nor a piece is kept, unless
it is unbalanced. -/
theorem walk_nest {c : Char} {t : Text} {inner : List Bracket} (hquote : c ≠ '"')
    (hapart : Apart c t) (hend : ¬(c = ')' ∧ inner = [])) (hcut : ¬(c = ',' ∧ inner = [])) :
    walk .code inner (c :: t)
      = (nest inner c).bind fun inner' => (walk .code inner' t).map (·.keep c) := by
  rw [walk_code_cons inner hquote hapart]
  unfold nest
  cases Bracket.ofOpen? c with
  | some b => rfl
  | none =>
    by_cases hclose : isClose c = true
    · simp only [hclose, if_true]
      cases inner with
      | nil => rw [if_neg fun h => hend ⟨h, rfl⟩]; rfl
      | cons b outer =>
        by_cases hb : b.close = c
        · simp only [hb, if_true]; rfl
        · simp only [hb, if_false]; rfl
    · simp only [hclose, if_neg hcut]; rfl

theorem charSize_eq (c : Char) (p cs : Text) :
    charSize (p ++ c :: cs) (byteLength p) = some c.utf8Size := by
  rw [charSize, slice?_to_end]
  rfl

/-- A character without a mark, if the loop agrees with the reader behind it. -/
theorem agrees_plain {c : Char} {p cs : Text} (hquote : c ≠ '"') (hapart : Apart c cs)
    (inner : List Bracket) (done : List Text) (piece : Text)
    (ih : ∀ inner done piece, Agrees (p ++ [c]) inner done piece cs) :
    Agrees p inner done piece (c :: cs) := by
  obtain ⟨b, hb, hsame, hnest⟩ := exists_code_byte c p cs
  -- a mark of two bytes would be one of two characters, and `c` makes none with what follows it
  have hmark : ∀ a d : Char, a.utf8Size = 1 → d.utf8Size = 1 → joins a d = true →
      ¬(b = a ∧ byteAt? (p ++ c :: cs) (byteLength p + 1) = some d) := by
    rintro a d ha hd hjoin ⟨hba, hnext⟩
    obtain rfl := (hsame a ha).1 hba
    have hhead := (byteAt?_succ_eq_some_iff hd ha p cs).1 hnext
    rw [hapart d hhead] at hjoin
    cases hjoin
  have hbquote : b ≠ '"' := fun h => hquote ((hsame _ rfl).1 h)
  have hstop : byteLength p + c.utf8Size = byteLength (p ++ [c]) :=
    (byteLength_append_singleton p c).symm
  have hslice : slice? (p ++ c :: cs) (byteLength p) (byteLength (p ++ [c])) = some [c] :=
    slice?_append p [c] cs
  have htext : p ++ c :: cs = p ++ [c] ++ cs := by simp
  unfold Agrees at *
  rw [blockFrom, if_pos (exists_byteAt?_iff.1 ⟨b, hb⟩), hb]
  simp only [Option.bind_eq_bind, Option.bind_some, charSize_eq, hnest, hsame ')' rfl,
    hsame ',' rfl, hstop, hslice]
  rw [if_neg (hmark '/' '/' rfl rfl rfl), if_neg (hmark '/' '*' rfl rfl rfl), if_neg hbquote,
    if_neg (hmark '-' '>' rfl rfl rfl)]
  by_cases hend : c = ')' ∧ inner = []
  · obtain ⟨rfl, rfl⟩ := hend
    have hwalk : walk .code [] (')' :: cs) = .ok (.done cs) := rfl
    rw [if_pos ⟨rfl, rfl⟩, hwalk]
    simp [Except.map, blockEnd, Walk.done]
  by_cases hcut : c = ',' ∧ inner = []
  · obtain ⟨rfl, rfl⟩ := hcut
    have hnext : byteLength p + 1 = byteLength (p ++ [',']) := hstop
    rw [if_neg hend, if_pos ⟨rfl, rfl⟩, walk_cut, hnext, htext, ih]
    cases walk .code [] cs with
    | error f => rfl
    | ok w => exact congrArg (some ∘ Except.ok) (blockEnd_cut ..).symm
  rw [if_neg hend, if_neg hcut, walk_nest hquote hapart hend hcut]
  cases nest inner c with
  | error f => rfl
  | ok inner' =>
    simp only [Except.bind]
    rw [if_pos c.utf8Size_pos, htext, ih]
    cases walk .code inner' cs with
    | error f => rfl
    | ok w => exact congrArg (some ∘ Except.ok) (blockEnd_put p done piece [c] [c] w).symm

section Marks

variable {p ahead : Text} {inner : List Bracket} {done : List Text} {piece : Text}

/-- A comment or a string literal that the loop skips, if it agrees with the reader behind it. -/
theorem Agrees.skip {view : Text → Text} {m : Mode} {r : Option (Except BlockFault Nat)}
    {raw shown : Text} (hraw : 0 < byteLength raw)
    (hwalk : walk .code inner (raw ++ ahead) = (walk m inner ahead).map (·.put shown raw))
    (hskip : Skips view m (p ++ raw) ahead r)
    (hfails : ∀ f, r = some (.error f) →
      blockFrom (p ++ (raw ++ ahead)) inner done piece (byteLength p) = some (.error f))
    (hstops : ∀ j skipped, r = some (.ok j) → byteLength p < j →
      slice? (p ++ (raw ++ ahead)) (byteLength p) j = some (raw ++ skipped) →
      blockFrom (p ++ (raw ++ ahead)) inner done piece (byteLength p)
        = blockFrom (p ++ (raw ++ ahead)) inner done (piece ++ (shown ++ view skipped)) j)
    (ih : ∀ p piece rest, rest.length ≤ ahead.length → Agrees p inner done piece rest) :
    Agrees p inner done piece (raw ++ ahead) := by
  cases hskip with
  | @fails f h =>
    unfold Agrees
    rw [hfails f rfl, hwalk, h]
    rfl
  | stops skipped rest hcs h =>
    subst hcs
    have hlt : byteLength p < byteLength (p ++ (raw ++ skipped)) := by
      simp only [byteLength_append]
      omega
    have hslice := slice?_append p (raw ++ skipped) rest
    rw [List.append_assoc raw] at hslice
    have hloop := hstops _ skipped (by rw [List.append_assoc]) hlt hslice
    rw [← List.append_assoc raw] at hwalk hloop ⊢
    refine .turn _ hloop ?_ (ih _ _ rest (by simp))
    rw [hwalk, h]
    cases walk .code inner rest with
    | error f => rfl
    | ok w => exact congrArg Except.ok (Walk.put_put ..)

theorem agrees_arrow (ih : ∀ p piece, Agrees p inner done piece ahead) :
    Agrees p inner done piece ('-' :: '>' :: ahead) := by
  obtain ⟨hb, hnext⟩ := byteAt?_mark (c := '-') (d := '>') rfl rfl p ahead
  have hstop : byteLength (p ++ ['-', '>']) = byteLength p + 2 := byteLength_append _ _
  refine .turn ['-', '>'] ?_ rfl (ih _ _)
  simp only [List.cons_append, List.nil_append]
  rw [blockFrom, if_pos (exists_byteAt?_iff.1 ⟨_, hb⟩), hb, hnext, hstop]
  rfl

theorem agrees_line (ih : ∀ p piece rest, rest.length ≤ ahead.length →
    Agrees p inner done piece rest) : Agrees p inner done piece ('/' :: '/' :: ahead) := by
  obtain ⟨hb, hnext⟩ := byteAt?_mark (c := '/') (d := '/') rfl rfl p ahead
  have hsplit : '/' :: '/' :: ahead
      = '/' :: '/' :: ahead.takeWhile (· != '\n') ++ ahead.dropWhile (· != '\n') := by simp
  have hline := lineEnd_eq p ('/' :: '/' :: ahead)
  rw [List.takeWhile_cons_of_pos rfl, List.takeWhile_cons_of_pos rfl] at hline
  have hloop : blockFrom (p ++ '/' :: '/' :: ahead) inner done piece (byteLength p)
      = blockFrom (p ++ '/' :: '/' :: ahead) inner done (piece ++ [' '])
          (byteLength (p ++ '/' :: '/' :: ahead.takeWhile (· != '\n'))) := by
    have hlt : byteLength p < byteLength (p ++ '/' :: '/' :: ahead.takeWhile (· != '\n')) := by
      have hpos := Char.utf8Size_pos '/'
      simp only [byteLength_append, byteLength_cons]
      omega
    rw [blockFrom, if_pos (exists_byteAt?_iff.1 ⟨_, hb⟩), hb, hnext, hline]
    simp only [Option.bind_eq_bind, Option.bind_some, and_self, if_true]
    rw [if_pos hlt]
  have hwalk : walk .code inner ('/' :: '/' :: ahead)
      = (walk .code inner (ahead.dropWhile (· != '\n'))).map
          (·.put [' '] ('/' :: '/' :: ahead.takeWhile (· != '\n'))) := by
    have hstart : walk .code inner ('/' :: '/' :: ahead)
        = (walk .line inner ahead).map (·.put [' '] ['/', '/']) := walk_hides inner .lineStart
    rw [hstart, walk_line]
    cases walk .code inner (ahead.dropWhile (· != '\n')) <;> rfl
  rw [hsplit] at hloop hwalk ⊢
  exact .turn _ hloop hwalk (ih _ _ _ (List.length_dropWhile_le _ _))

theorem agrees_comment (ih : ∀ p piece rest, rest.length ≤ ahead.length →
    Agrees p inner done piece rest) : Agrees p inner done piece ('/' :: '*' :: ahead) := by
  obtain ⟨hb, hnext⟩ := byteAt?_mark (c := '/') (d := '*') rfl rfl p ahead
  have hskip := skips_comment 0 (p ++ ['/', '*']) ahead
  rw [List.append_assoc, List.cons_append, List.singleton_append, ← skipComment_start] at hskip
  refine .skip (by decide) (walk_hides inner .commentStart) hskip ?_ ?_ ih
  · intro f hf
    simp only [List.cons_append, List.nil_append]
    rw [blockFrom, if_pos (exists_byteAt?_iff.1 ⟨_, hb⟩), hb, hnext]
    simp [hf]
  · intro j skipped hj hlt _
    simp only [List.cons_append, List.nil_append]
    rw [blockFrom, if_pos (exists_byteAt?_iff.1 ⟨_, hb⟩), hb, hnext]
    simp [hj, hlt]

theorem agrees_string (ih : ∀ p piece rest, rest.length ≤ ahead.length →
    Agrees p inner done piece rest) : Agrees p inner done piece ('"' :: ahead) := by
  have hb : byteAt? (p ++ '"' :: ahead) (byteLength p) = some '"' :=
    (byteAt?_eq_some_iff rfl _ _).2 rfl
  have hnext : byteLength (p ++ ['"']) = byteLength p + 1 := byteLength_append_singleton p '"'
  have hskip := skips_string (p ++ ['"']) ahead
  rw [List.append_assoc, List.singleton_append, hnext] at hskip
  refine .skip (by decide) (walk_keeps .quote) hskip ?_ ?_ ih
  · intro f hf
    simp only [List.cons_append, List.nil_append]
    rw [blockFrom, if_pos (exists_byteAt?_iff.1 ⟨_, hb⟩), hb]
    simp [hf]
  · intro j skipped hj hlt hslice
    simp only [List.cons_append, List.nil_append] at hslice ⊢
    rw [blockFrom, if_pos (exists_byteAt?_iff.1 ⟨_, hb⟩), hb]
    simp [hj, hlt, hslice]

end Marks

/-- From an offset between two characters, the loop over bytes says what the reader does. -/
theorem blockFrom_eq (p cs : Text) (inner : List Bracket) (done : List Text) (piece : Text) :
    blockFrom (p ++ cs) inner done piece (byteLength p)
      = some ((walk .code inner cs).map (blockEnd p done piece)) := by
  induction hn : cs.length using Nat.strongRecOn generalizing p cs inner done piece with
  | ind n ih =>
    have hagrees : ∀ p inner done piece rest, rest.length < n → Agrees p inner done piece rest :=
      fun p inner done piece rest hlt => ih _ hlt p rest inner done piece rfl
    cases cs with
    | nil =>
      rw [blockFrom, if_neg (by rw [List.append_nil]; omega)]
      rfl
    | cons c cs =>
      rw [List.length_cons] at hn
      by_cases hapart : Apart c cs
      swap
      · obtain ⟨d, r, rfl, hmark⟩ := eq_mark_of_not_apart hapart
        rw [List.length_cons] at hn
        rcases hmark with ⟨rfl, rfl | rfl⟩ | ⟨rfl, rfl⟩
        · exact agrees_line fun p piece rest hle => hagrees _ _ _ _ _ (by omega)
        · exact agrees_comment fun p piece rest hle => hagrees _ _ _ _ _ (by omega)
        · exact agrees_arrow fun p piece => hagrees _ _ _ _ _ (by omega)
      by_cases hquote : c = '"'
      · subst hquote
        exact agrees_string fun p piece rest hle => hagrees _ _ _ _ _ (by omega)
      · exact agrees_plain hquote hapart inner done piece
          fun inner done piece => hagrees _ _ _ _ _ (by omega)

/-- Behind the end of the text, the block is found unclosed. -/
theorem blockFrom_past_end (t : Text) (inner : List Bracket) (done : List Text) (piece : Text)
    (n : Nat) : blockFrom t inner done piece (byteLength t + n) = some (.error .unclosedList) := by
  rw [blockFrom, if_neg (by omega)]
  rfl

end RuleFormat.Bytewise
