import Mathlib.Data.List.TakeWhile
import RuleFormat.Files.Basic

/-!
# Parents and ancestors

To go to the parent of a path is to cut it off behind a part (`parent?_isPrefix`), and what is
left spells the location without its last part (`location_parent?`), however odd the spelling of the
path is: with slashes that are repeated or stand at the end, with dots, relative or from the root.
So a path has as many parents above it as it has parts (`isSome_climb_iff`), and its ancestors are
the path itself and these parents, as far as the depth goes (`getElem?_ancestors`).
-/

namespace RuleFormat.Path

/-! ## Pieces -/

theorem pieces_eq_splitOn (t : Bytes) : pieces t = t.splitOn slash := by
  unfold pieces
  induction t with
  | nil => rw [splitAtItem, List.splitOn_nil]
  | cons c t ih =>
    rw [splitAtItem, List.splitOn_cons_eq_if_modifyHead, ih]
    by_cases hc : c = slash
    · rw [if_pos hc, if_pos (beq_iff_eq.2 hc)]
    · rw [if_neg hc, if_neg (by simpa using hc)]
      cases hpieces : t.splitOn slash with
      | nil => exact absurd hpieces (List.splitOn_ne_nil _ _)
      | cons p ps => rfl

theorem joinWith_pieces (t : Bytes) : joinWith [slash] (pieces t) = t := by
  rw [pieces_eq_splitOn]
  exact List.intercalate_splitOn slash

theorem pieces_joinWith {ps : List Bytes} (hne : ps ≠ []) (h : ∀ p ∈ ps, slash ∉ p) :
    pieces (joinWith [slash] ps) = ps := by
  rw [pieces_eq_splitOn]
  exact List.splitOn_intercalate slash h hne

/-- There are no slashes in pieces. -/
theorem slash_not_mem {t p : Bytes} (h : p ∈ pieces t) : slash ∉ p := by
  unfold pieces at h
  induction t generalizing p with
  | nil =>
    obtain rfl := List.mem_singleton.1 h
    exact List.not_mem_nil
  | cons c t ih =>
    rw [splitAtItem] at h
    by_cases hc : c = slash
    · rw [if_pos hc] at h
      rcases List.mem_cons.1 h with rfl | h
      · exact List.not_mem_nil
      · exact ih h
    · rw [if_neg hc] at h
      cases hsplit : splitAtItem slash t with
      | nil =>
        rw [hsplit] at h
        obtain rfl := List.mem_singleton.1 h
        simpa using Ne.symm hc
      | cons q qs =>
        rw [hsplit] at h ih
        rcases List.mem_cons.1 h with rfl | h
        · simpa [Ne.symm hc] using ih List.mem_cons_self
        · exact ih (List.mem_cons_of_mem _ h)

/-- Fewer pieces, joined, make a beginning. -/
theorem joinWith_isPrefix {ps qs : List Bytes} (sep : Bytes) (h : ps <+: qs) :
    joinWith sep ps <+: joinWith sep qs := by
  unfold joinWith
  induction ps generalizing qs with
  | nil => exact List.nil_prefix
  | cons p ps ih =>
    obtain ⟨rest, rfl⟩ := h
    cases ps with
    | nil =>
      cases rest with
      | nil => exact List.prefix_rfl
      | cons q rest =>
        rw [List.intercalate_singleton, List.singleton_append, List.intercalate_cons_cons,
          List.append_assoc]
        exact List.prefix_append _ _
    | cons p' ps =>
      have hrest := ih (List.prefix_append (p' :: ps) rest)
      rw [List.cons_append] at hrest
      rw [List.cons_append, List.cons_append, List.intercalate_cons_cons,
        List.intercalate_cons_cons]
      exact (List.prefix_append_right_inj _).2 hrest

/-! ## Marks -/

/-- Pieces, each with whether it is a part when they are those of a path. -/
def mark : List Bytes → List (Bytes × Bool)
  | [] => []
  | p :: ps => (p, !p.isEmpty) :: ps.map fun q => (q, !q.isEmpty && q != [dot])

theorem marked_eq (t : Bytes) : marked t = mark (pieces t) := by
  unfold marked
  cases pieces t <;> rfl

theorem mark_take (n : Nat) (ps : List Bytes) : mark (ps.take n) = (mark ps).take n := by
  cases n with
  | zero => rfl
  | succ n =>
    cases ps with
    | nil => rfl
    | cons p ps => simp [mark, List.map_take]

theorem map_fst_mark (ps : List Bytes) : (mark ps).map (·.1) = ps := by
  cases ps with
  | nil => rfl
  | cons p ps => simp [mark, Function.comp_def]

/-- A piece that is no part is empty or a dot. -/
theorem eq_of_mem_mark {ps : List Bytes} {m : Bytes × Bool} (h : m ∈ mark ps) (hm : m.2 = false) :
    m.1 = [] ∨ m.1 = [dot] := by
  cases ps with
  | nil => cases h
  | cons p ps =>
    rcases List.mem_cons.1 h with rfl | h
    · exact .inl (by simpa using hm)
    · obtain ⟨q, -, rfl⟩ := List.mem_map.1 h
      by_cases hq : q = []
      · exact .inl hq
      · exact .inr (by simpa [hq] using hm)

/-- The first pieces of a path, joined, are marked as they were. -/
theorem marked_joinWith {t : Bytes} {ms : List (Bytes × Bool)} (h : ms <+: marked t) (hne : ms ≠ []) :
    marked (joinWith [slash] (ms.map (·.1))) = ms := by
  rw [marked_eq] at h
  have hms : ms = mark ((pieces t).take ms.length) := by
    rw [mark_take]
    exact List.prefix_iff_eq_take.1 h
  have hpieces : ms.map (·.1) = (pieces t).take ms.length := by rw [hms, map_fst_mark, ← hms]
  rw [marked_eq, pieces_joinWith (by simpa using hne), hpieces, ← hms]
  intro p hp
  rw [hpieces] at hp
  exact slash_not_mem (List.mem_of_mem_take hp)

/-! ## Parents -/

/-- A list is cut behind its last element that has a property. -/
theorem exists_cut {α : Type} (p : α → Bool) (l : List α) :
    ∃ kept skipped, l = kept ++ skipped ∧ l.reverse.dropWhile (fun a => !p a) = kept.reverse ∧
      (∀ a ∈ skipped, p a = false) ∧ ∀ a, kept.getLast? = some a → p a = true := by
  refine ⟨(l.reverse.dropWhile fun a => !p a).reverse, (l.reverse.takeWhile fun a => !p a).reverse,
    ?_, (List.reverse_reverse _).symm, ?_, ?_⟩
  · rw [← List.reverse_append, List.takeWhile_append_dropWhile, List.reverse_reverse]
  · intro a ha
    simpa using List.mem_takeWhile_imp (List.mem_reverse.1 ha)
  · intro a ha
    rw [List.getLast?_reverse] at ha
    have hhead := List.head?_dropWhile_not (fun a => !p a) l.reverse
    rw [ha] at hhead
    simpa using hhead

/-- A path without parts has no parent.  Any other path ends in a part, up to pieces that are none,
and its parent is made of the pieces up to the part before that, if there is one. -/
theorem parent?_cases (t : Bytes) :
    (parent? t = none ∧ ∀ m ∈ marked t, m.2 = false) ∨
      ∃ kept skipped last rest, marked t = kept ++ skipped ++ last :: rest ∧ last.2 = true ∧
        (∀ m ∈ skipped, m.2 = false) ∧ (∀ m ∈ rest, m.2 = false) ∧
        ((kept = [] ∧ parent? t = some (if isRooted t then [slash] else [])) ∨
          ((∃ m ∈ kept, m.2 = true) ∧ parent? t = some (joinWith [slash] (kept.map (·.1))))) := by
  obtain ⟨parts, rest, hmarked, hback, hrest, hlast⟩ := exists_cut (·.2) (marked t)
  rcases List.eq_nil_or_concat parts with rfl | ⟨front, last, rfl⟩
  · refine .inl ⟨?_, by rwa [hmarked]⟩
    rw [parent?, hback]
    rfl
  · obtain ⟨kept, skipped, rfl, hfront, hskipped, hkept⟩ := exists_cut (·.2) front
    refine .inr ⟨kept, skipped, last, rest, by simpa using hmarked, hlast last (by simp), hskipped,
      hrest, ?_⟩
    rw [List.concat_eq_append, List.reverse_append, List.reverse_singleton,
      List.singleton_append] at hback
    rcases List.eq_nil_or_concat kept with rfl | ⟨kept, m, rfl⟩
    · refine .inl ⟨rfl, ?_⟩
      rw [parent?, hback]
      dsimp only
      rw [hfront]
      rfl
    · refine .inr ⟨⟨m, by simp, hkept m (by simp)⟩, ?_⟩
      rw [parent?, hback]
      dsimp only
      rw [hfront]
      simp

/-- The parts of a path are those in front of its last part, and the last part. -/
theorem parts_eq {t : Bytes} {kept skipped rest : List (Bytes × Bool)} {last : Bytes × Bool}
    (h : marked t = kept ++ skipped ++ last :: rest) (hlast : last.2 = true)
    (hskipped : ∀ m ∈ skipped, m.2 = false) (hrest : ∀ m ∈ rest, m.2 = false) :
    (location t).parts = (kept.filter (·.2)).map (·.1) ++ [last.1] := by
  have hnone : ∀ {ms : List (Bytes × Bool)}, (∀ m ∈ ms, m.2 = false) → ms.filter (·.2) = [] :=
    fun hms => List.filter_eq_nil_iff.2 fun m hm => by simp [hms m hm]
  rw [location, h, List.filter_append, List.filter_append, hnone hskipped,
    List.filter_cons_of_pos hlast, hnone hrest]
  simp

theorem parent?_eq_none_iff {t : Bytes} : parent? t = none ↔ (location t).parts = [] := by
  rcases parent?_cases t with
    ⟨hparent, hnone⟩ | ⟨kept, skipped, last, rest, hmarked, hlast, hskipped, hrest, hparent⟩
  · refine iff_of_true hparent ?_
    rw [location, List.filter_eq_nil_iff.2 fun m hm => by simp [hnone m hm]]
    rfl
  · refine iff_of_false ?_ ?_
    · rcases hparent with ⟨-, hparent⟩ | ⟨-, hparent⟩ <;> simp [hparent]
    · rw [parts_eq hmarked hlast hskipped hrest]
      simp

/-- The parent of a path is a beginning of it. -/
theorem parent?_isPrefix {t p : Bytes} (h : parent? t = some p) : p <+: t := by
  rcases parent?_cases t with
    ⟨hparent, -⟩ | ⟨kept, skipped, last, rest, hmarked, -, -, -, ⟨-, hparent⟩ | ⟨-, hparent⟩⟩
  · cases hparent.symm.trans h
  · obtain rfl := Option.some.inj (hparent.symm.trans h)
    split_ifs with hroot
    · cases t with
      | nil => cases hroot
      | cons c t =>
        obtain rfl : c = slash := by simpa [isRooted] using hroot
        exact ⟨t, rfl⟩
    · exact List.nil_prefix
  · obtain rfl := Option.some.inj (hparent.symm.trans h)
    have hkept : kept <+: marked t := ⟨skipped ++ last :: rest, by simp [hmarked]⟩
    rw [← joinWith_pieces t, ← map_fst_mark (pieces t), ← marked_eq]
    exact joinWith_isPrefix _ (hkept.map _)

/-- A beginning that is not empty begins as the whole does. -/
theorem isRooted_of_isPrefix {s t : Bytes} (h : s <+: t) (hne : s ≠ []) : isRooted s = isRooted t := by
  obtain ⟨rest, rfl⟩ := h
  cases s with
  | nil => exact absurd rfl hne
  | cons c s => rfl

/-- Pieces with a part among them do not make the empty path. -/
theorem joinWith_ne_nil {t : Bytes} {ms : List (Bytes × Bool)} (h : ms <+: marked t)
    (hpart : ∃ m ∈ ms, m.2 = true) : joinWith [slash] (ms.map (·.1)) ≠ [] := by
  intro hnil
  obtain ⟨m, hm, hmark⟩ := hpart
  have hmarked := marked_joinWith h (List.ne_nil_of_mem hm)
  rw [hnil] at hmarked
  rw [← hmarked] at hm
  -- the empty path has one piece, which is no part
  obtain rfl := List.mem_singleton.1 hm
  cases hmark

/-- The parent of a path spells its location without the last part. -/
theorem location_parent? {t p : Bytes} (h : parent? t = some p) :
    location p = ⟨isRooted t, (location t).parts.dropLast⟩ := by
  have hbegins := parent?_isPrefix h
  rcases parent?_cases t with
    ⟨hparent, -⟩ | ⟨kept, skipped, last, rest, hmarked, hlast, hskipped, hrest, hparent⟩
  · cases hparent.symm.trans h
  · rw [parts_eq hmarked hlast hskipped hrest, List.dropLast_concat]
    rcases hparent with ⟨rfl, hparent⟩ | ⟨hpart, hparent⟩
    · obtain rfl := Option.some.inj (hparent.symm.trans h)
      cases isRooted t <;> rfl
    · obtain rfl := Option.some.inj (hparent.symm.trans h)
      have hkept : kept <+: marked t := ⟨skipped ++ last :: rest, by simp [hmarked]⟩
      rw [location, isRooted_of_isPrefix hbegins (joinWith_ne_nil hkept hpart),
        marked_joinWith hkept (List.ne_nil_of_mem hpart.choose_spec.1)]

/-- When the last piece of a path is a part, the parent is made of the pieces in front of it, without
those at their end that are empty or dots. -/
theorem parent?_of_pieces {t last : Bytes} {front : List Bytes} (h : pieces t = front ++ [last])
    (hname : last ≠ [] ∧ last ≠ [dot]) :
    ∃ kept skipped, front = kept ++ skipped ∧ (∀ p ∈ skipped, p = [] ∨ p = [dot]) ∧
      ((kept = [] ∧ parent? t = some (if isRooted t then [slash] else [])) ∨
        (joinWith [slash] kept ≠ [] ∧ parent? t = some (joinWith [slash] kept))) := by
  have hends : marked t = mark front ++ [(last, true)] := by
    rw [marked_eq, h]
    cases front with
    | nil => simp [mark, hname.1]
    | cons p ps => simp [mark, hname]
  rcases parent?_cases t with
    ⟨-, hnone⟩ | ⟨kept, skipped, m, rest, hmarked, -, hskipped, hrest, hparent⟩
  · exact absurd (hnone (last, true) (by simp [hends])) (by simp)
  · -- nothing stands behind the last part, because it is the last piece
    have hnil : rest = [] := by
      rcases List.eq_nil_or_concat rest with hnil | ⟨rest, m', rfl⟩
      · exact hnil
      · have hsplit : mark front ++ [(last, true)] = (kept ++ skipped ++ m :: rest) ++ [m'] := by
          simpa [hends] using hmarked
        have hmark := hrest m' (by simp)
        rw [← List.singleton_inj.1 (List.append_inj' hsplit rfl).2] at hmark
        cases hmark
    rw [hends, hnil] at hmarked
    have hfront := congrArg (List.map (·.1)) (List.append_inj' hmarked rfl).1
    rw [map_fst_mark, List.map_append] at hfront
    have hkept : kept <+: marked t := ⟨skipped ++ [m], by simp [hends, hmarked]⟩
    refine ⟨_, _, hfront, ?_, ?_⟩
    · intro p hp
      obtain ⟨m', hm', rfl⟩ := List.mem_map.1 hp
      have hmem : m' ∈ mark front := by
        rw [(List.append_inj' hmarked rfl).1]
        exact List.mem_append_right _ hm'
      exact eq_of_mem_mark hmem (hskipped m' hm')
    · rcases hparent with ⟨rfl, hparent⟩ | ⟨hpart, hparent⟩
      · exact .inl ⟨rfl, hparent⟩
      · exact .inr ⟨joinWith_ne_nil hkept hpart, hparent⟩

/-! ## Ancestors -/

/-- The path that is reached from a path by going to the parent so many times, if it can be. -/
def climb : Nat → Bytes → Option Bytes
  | 0, t => some t
  | n + 1, t => (parent? t).bind (climb n)

/-- The number of parts of a path. -/
def height (t : Bytes) : Nat := (location t).parts.length

theorem height_parent? {t p : Bytes} (h : parent? t = some p) : height t = height p + 1 := by
  have hparts : (location t).parts ≠ [] := fun hnil => by
    rw [parent?_eq_none_iff.2 hnil] at h
    cases h
  have hpos := List.length_pos_iff.2 hparts
  rw [height, height, location_parent? h, List.length_dropLast]
  omega

/-- One can go up as many times as a path has parts. -/
theorem isSome_climb_iff {n : Nat} {t : Bytes} : (climb n t).isSome ↔ n ≤ height t := by
  induction n generalizing t with
  | zero => simp [climb]
  | succ n ih =>
    rw [climb]
    cases hparent : parent? t with
    | none => simp [height, parent?_eq_none_iff.1 hparent]
    | some p =>
      rw [Option.bind_some, ih, height_parent? hparent]
      omega

/-- What is reached by going up spells the location without so many parts at its end. -/
theorem location_climb {n : Nat} {t p : Bytes} (h : climb n t = some p) :
    p <+: t ∧ location p = ⟨isRooted t, (location t).parts.take (height t - n)⟩ := by
  induction n generalizing t with
  | zero =>
    obtain rfl := Option.some.inj h
    exact ⟨List.prefix_rfl, by rw [height, Nat.sub_zero, List.take_length]; rfl⟩
  | succ n ih =>
    obtain ⟨q, hparent, hclimb⟩ := Option.bind_eq_some_iff.1 h
    obtain ⟨hbegins, hlocation⟩ := ih hclimb
    have hq := location_parent? hparent
    refine ⟨hbegins.trans (parent?_isPrefix hparent), ?_⟩
    have hrooted : isRooted q = isRooted t := congrArg Location.rooted hq
    have hheight := height_parent? hparent
    rw [hlocation, hq, hrooted, List.dropLast_eq_take, List.take_take, ← height]
    congr 2
    omega

/-- The ancestors of a path are what is reached by going up, the nearest first. -/
theorem getElem?_ancestors (depth n : Nat) (t : Bytes) :
    (ancestors depth t)[n]? = if n < depth then climb n t else none := by
  induction depth generalizing n t with
  | zero => rfl
  | succ depth ih =>
    rw [ancestors]
    cases n with
    | zero => rfl
    | succ n =>
      rw [List.getElem?_cons_succ, climb]
      cases parent? t with
      | none => simp
      | some p => simpa using ih n p

theorem getElem?_ancestors_eq_some_iff {depth n : Nat} {t p : Bytes} :
    (ancestors depth t)[n]? = some p ↔ n < depth ∧ climb n t = some p := by
  rw [getElem?_ancestors]
  split_ifs with hn <;> simp [hn]

theorem length_ancestors (depth : Nat) (t : Bytes) :
    (ancestors depth t).length = min depth (height t + 1) := by
  induction depth generalizing t with
  | zero => simp [ancestors]
  | succ depth ih =>
    rw [ancestors]
    cases hparent : parent? t with
    | none => simp [height, parent?_eq_none_iff.1 hparent]
    | some p =>
      rw [List.length_cons, ih, height_parent? hparent]
      omega

theorem ancestors_isPrefix {depth depth' : Nat} (h : depth ≤ depth') (t : Bytes) :
    ancestors depth t <+: ancestors depth' t := by
  refine List.prefix_iff_getElem?.2 fun n hn => ?_
  rw [length_ancestors] at hn
  rw [← List.getElem?_eq_getElem, getElem?_ancestors, getElem?_ancestors, if_pos, if_pos] <;> omega

example : ancestors 10 "a//b/./c/" = (["a//b/./c/", "a//b", "a", []] : List Bytes) := by decide

end RuleFormat.Path
