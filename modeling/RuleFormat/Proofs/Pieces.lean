import RuleFormat.Proofs.Atom
import RuleFormat.Proofs.Scan

/-!
# The grammar of a block

Which texts are blocks, and where they are cut, said without a reader.  A block is a sequence of
atoms, each of which is read in front of what follows it (`Stand`).  Its brackets are `Balanced`:
each is closed by its own kind, and what stands between the two is balanced as well.  A comma is
outside of all brackets when the atoms in front of it are balanced, and so a piece is a balanced
sequence that has no such comma (`IsPiece`).

The reader keeps a stack of open brackets instead.  A sequence `Closes` a stack when it closes all
brackets on it and all that it opens itself; with an empty stack this is to be balanced
(`closes_nil_iff`).  From there `readBlock_grammar` shows that the reader accepts exactly the blocks
of the grammar, and cuts them in the same places.
-/

namespace RuleFormat

/-! ## Sequences of atoms -/

/-- Atoms as they are written. -/
def spelled (as : List Atom) : Text := as.flatMap Atom.text

/-- What atoms show, comments as one blank each. -/
def visible (as : List Atom) : Text := as.flatMap Atom.shown

/-- Each atom is read in front of the atoms behind it and of `ahead`. -/
def Stand : List Atom → Text → Prop
  | [], _ => True
  | a :: as, ahead => a.Stands (spelled as ++ ahead) ∧ Stand as ahead

@[simp] theorem spelled_nil : spelled [] = [] := rfl

@[simp] theorem spelled_cons (a : Atom) (as : List Atom) :
    spelled (a :: as) = a.text ++ spelled as := List.flatMap_cons

@[simp] theorem visible_nil : visible [] = [] := rfl

@[simp] theorem visible_cons (a : Atom) (as : List Atom) :
    visible (a :: as) = a.shown ++ visible as := List.flatMap_cons

/-! ## Brackets -/

/-- Each bracket is closed by its own kind, and none is closed that was not opened. -/
inductive Balanced : List Atom → Prop where
  | nil : Balanced []
  | cons {a : Atom} {as : List Atom} (ha : a.isBracket = false) (h : Balanced as) :
      Balanced (a :: as)
  | group {c : Char} {b : Bracket} {as us : List Atom} (hb : Bracket.ofOpen? c = some b)
      (has : Balanced as) (hus : Balanced us) :
      Balanced (.char c :: (as ++ .char b.close :: us))

/-- Atoms close the brackets `inner`, the innermost first, and all that they open. -/
inductive Closes : List Bracket → List Atom → Prop where
  | nil : Closes [] []
  | cons {inner inner' : List Bracket} {a : Atom} {as : List Atom}
      (hm : Atom.Moves inner a inner') (h : Closes inner' as) : Closes inner (a :: as)

variable {inner inner' : List Bracket} {as us vs p : List Atom}

theorem Balanced.append (has : Balanced as) (hus : Balanced us) : Balanced (as ++ us) := by
  induction has with
  | nil => exact hus
  | cons ha _ ih => exact .cons ha ih
  | @group c b as vs hb has _ _ ih =>
    rw [List.cons_append, List.append_assoc]
    exact .group hb has ih

theorem Balanced.closes_append (has : Balanced as) (h : Closes inner us) :
    Closes inner (as ++ us) := by
  induction has generalizing inner us with
  | nil => exact h
  | cons ha _ ih => exact .cons (.other ha) (ih h)
  | @group c b as vs hb _ _ ihas ihvs =>
    rw [List.cons_append, List.append_assoc]
    exact .cons (.opens hb) (ihas (.cons .closes (ihvs h)))

/-- Atoms fall into balanced sequences, divided by what closes the brackets `inner`. -/
def Unwinds : List Bracket → List Atom → Prop
  | [], as => Balanced as
  | b :: inner, as => ∃ us vs, as = us ++ .char b.close :: vs ∧ Balanced us ∧ Unwinds inner vs

theorem Unwinds.balanced_append (hus : Balanced us) (h : Unwinds inner as) :
    Unwinds inner (us ++ as) := by
  cases inner with
  | nil => exact hus.append h
  | cons b inner =>
    obtain ⟨vs, rest, rfl, hvs, hrest⟩ := h
    exact ⟨us ++ vs, rest, (List.append_assoc ..).symm, hus.append hvs, hrest⟩

theorem Closes.unwinds (h : Closes inner as) : Unwinds inner as := by
  induction h with
  | nil => exact Balanced.nil
  | @cons inner inner' a as hm _ ih =>
    cases hm with
    | @opens _ c b hb =>
      -- the bracket that is opened here is the first that the rest closes
      obtain ⟨us, vs, rfl, hus, hvs⟩ := ih
      have hgroup : Balanced (.char c :: (us ++ [.char b.close])) := .group hb hus .nil
      simpa using Unwinds.balanced_append hgroup hvs
    | closes => exact ⟨[], as, rfl, .nil, ih⟩
    | other ha =>
      have hone : Balanced [a] := .cons ha .nil
      exact Unwinds.balanced_append hone ih

/-- To close nothing but what one opens is to be balanced. -/
theorem closes_nil_iff : Closes [] as ↔ Balanced as := by
  constructor
  · exact fun h => h.unwinds
  · intro h
    simpa using h.closes_append .nil

theorem Atom.Moves.unique {a : Atom} {inner₁ inner₂ : List Bracket} (h₁ : Moves inner a inner₁)
    (h₂ : Moves inner a inner₂) : inner₁ = inner₂ := by
  cases ha : a.isBracket with
  | false => rw [h₁.eq_of_not_bracket ha, h₂.eq_of_not_bracket ha]
  | true =>
    cases h₁ with
    | other hother => simp [hother] at ha
    | @opens _ c b hb =>
      generalize hc : Atom.char c = a at h₂
      cases h₂ with
      | other hother => simp [← hc, Atom.isBracket, hb] at hother
      | opens hb' =>
        obtain rfl := Atom.char.inj hc
        rw [hb] at hb'
        rw [Option.some.inj hb']
      | @closes _ b' =>
        obtain rfl := Atom.char.inj hc
        rw [ofOpen?_close] at hb
        cases hb
    | @closes outer b =>
      generalize hc : Atom.char b.close = a at h₂
      cases h₂ with
      | other hother => simp [← hc, Atom.isBracket, isClose_close] at hother
      | opens hb' =>
        obtain rfl := Atom.char.inj hc
        rw [ofOpen?_close] at hb'
        cases hb'
      | closes => rfl

/-! ## Pieces -/

/-- Behind the brackets `inner`, no comma stands outside of all brackets. -/
def Uncut (inner : List Bracket) (p : List Atom) : Prop :=
  ∀ us vs, p = us ++ .comma :: vs → ¬Closes inner us

/-- A piece of a block: its brackets are balanced, and those in front of a comma never are. -/
structure IsPiece (p : List Atom) : Prop where
  balanced : Balanced p
  uncut : ∀ us vs, p = us ++ .comma :: vs → ¬Balanced us

theorem isPiece_iff : IsPiece p ↔ Closes [] p ∧ Uncut [] p := by
  simp only [Uncut, closes_nil_iff]
  exact ⟨fun h => ⟨h.balanced, h.uncut⟩, fun h => ⟨h.1, h.2⟩⟩

theorem Uncut.cons {a : Atom} (hm : Atom.Moves inner a inner') (ha : ¬(a = .comma ∧ inner = []))
    (h : Uncut inner' p) : Uncut inner (a :: p) := by
  intro us vs hsplit hus
  cases hus with
  | nil => exact ha ⟨(List.cons.inj hsplit).1, rfl⟩
  | cons hm' hus =>
    obtain ⟨rfl, hp⟩ := List.cons.inj hsplit
    rw [hm'.unique hm] at hus
    exact h _ _ hp hus

theorem Uncut.of_cons {a : Atom} (hm : Atom.Moves inner a inner') (h : Uncut inner (a :: p)) :
    ¬(a = .comma ∧ inner = []) ∧ Uncut inner' p := by
  constructor
  · rintro ⟨rfl, rfl⟩
    exact h [] p rfl .nil
  · rintro us vs rfl hus
    exact h (a :: us) vs rfl (.cons hm hus)

/-- Pieces one after the other, with a comma between two neighbours. -/
def joinPieces (ps : List (List Atom)) : List Atom := [Atom.comma].intercalate ps

@[simp] theorem joinPieces_singleton (p : List Atom) : joinPieces [p] = p := by
  simp [joinPieces]

@[simp] theorem joinPieces_nil_cons (q : List Atom) (qs : List (List Atom)) :
    joinPieces ([] :: q :: qs) = .comma :: joinPieces (q :: qs) := by
  simp [joinPieces, List.intercalate_cons_cons]

@[simp] theorem joinPieces_cons_cons (a : Atom) (p : List Atom) (ps : List (List Atom)) :
    joinPieces ((a :: p) :: ps) = a :: joinPieces (p :: ps) :=
  List.intercalate_cons_cons_left

theorem apart_comma (t : Text) : Atom.Stands .comma t :=
  ⟨by decide, fun d _ => by simp [joins]⟩

/-- What the reader accepts falls into pieces, the first of which closes the brackets that are open
already. -/
theorem Reads.exists_pieces {t : Text} {w : Walk} (h : Reads .code inner t w) :
    ∃ p ps, Closes inner p ∧ Uncut inner p ∧ (∀ q ∈ ps, IsPiece q) ∧
      Stand (joinPieces (p :: ps)) (')' :: w.rest) ∧
      t = spelled (joinPieces (p :: ps)) ++ ')' :: w.rest ∧
      w.piece = visible p ∧ w.pieces = ps.map visible := by
  induction hn : t.length using Nat.strongRecOn generalizing inner t w with
  | ind n ih =>
    rcases h.exists_atom with ⟨rest, rfl, rfl, rfl⟩ | ⟨t', w', rfl, rfl, h', rfl⟩ |
      ⟨a, inner', t', w', ha, hm, hcut, rfl, h', rfl⟩
    · exact ⟨[], [], .nil, by simp [Uncut], by simp, by simp [Stand], rfl, rfl, rfl⟩
    · rw [List.length_cons] at hn
      obtain ⟨p, ps, hp, huncut, hps, hstand, rfl, hpiece, hpieces⟩ := ih _ (by omega) h' rfl
      refine ⟨[], p :: ps, .nil, by simp [Uncut], ?_, ?_, ?_, rfl, ?_⟩
      · rw [List.forall_mem_cons]
        exact ⟨isPiece_iff.2 ⟨hp, huncut⟩, hps⟩
      · rw [joinPieces_nil_cons]
        exact ⟨apart_comma _, hstand⟩
      · rw [joinPieces_nil_cons, spelled_cons]
        rfl
      · rw [List.map_cons, ← hpiece, ← hpieces]
        rfl
    · have hlt : t'.length < n := by
        have hpos := List.length_pos_of_ne_nil a.text_ne_nil
        rw [← hn, List.length_append]
        omega
      obtain ⟨p, ps, hp, huncut, hps, hstand, rfl, hpiece, hpieces⟩ := ih _ hlt h' rfl
      refine ⟨a :: p, ps, .cons hm hp, huncut.cons hm hcut, hps, ?_, ?_, ?_, hpieces⟩
      · rw [joinPieces_cons_cons]
        exact ⟨ha, hstand⟩
      · rw [joinPieces_cons_cons, spelled_cons, List.append_assoc]
        rfl
      · rw [visible_cons, ← hpiece]
        rfl

/-- Pieces, the first of which closes the brackets that are open already, are accepted. -/
theorem reads_joinPieces {ps : List (List Atom)} {rest : Text} (hp : Closes inner p)
    (huncut : Uncut inner p) (hps : ∀ q ∈ ps, IsPiece q)
    (hstand : Stand (joinPieces (p :: ps)) (')' :: rest)) :
    Reads .code inner (spelled (joinPieces (p :: ps)) ++ ')' :: rest)
      ⟨visible p, ps.map visible, spelled (joinPieces (p :: ps)), rest⟩ := by
  induction ps generalizing inner p with
  | nil =>
    induction hp with
    | nil => exact .done
    | cons hm _ ih =>
      obtain ⟨hcut, huncut⟩ := huncut.of_cons hm
      have h := Atom.Stands.reads hstand.1 hm hcut (ih huncut hstand.2)
      simpa [Walk.put] using h
  | cons q qs ihqs =>
    induction hp with
    | nil =>
      -- the first piece is over, and a comma divides it from the second one
      obtain ⟨hq, hqs⟩ := List.forall_mem_cons.1 hps
      obtain ⟨hclose, huncut⟩ := isPiece_iff.1 hq
      rw [joinPieces_nil_cons] at hstand ⊢
      exact .cut (ihqs hclose huncut hqs hstand.2)
    | cons hm _ ih =>
      obtain ⟨hcut, huncut⟩ := huncut.of_cons hm
      rw [joinPieces_cons_cons] at hstand ⊢
      have h := Atom.Stands.reads hstand.1 hm hcut (ih huncut hstand.2)
      simpa [Walk.put] using h

/-! ## Blocks -/

/-- `Grammatical t b as ps`: by the grammar, the block `b` stands at the front of `t`.  Its body is
the atoms `as`, which the commas outside of all brackets cut into the pieces `ps`; its fragments are
what the pieces show, with white space collapsed, and those that show nothing left out. -/
structure Grammatical (t : Text) (b : Block) (as : List Atom) (ps : List (List Atom)) : Prop where
  text : t = b.body ++ ')' :: b.rest
  body : b.body = spelled as
  stand : Stand as (')' :: b.rest)
  balanced : Balanced as
  ne_nil : ps ≠ []
  joined : as = joinPieces ps
  pieces : ∀ p ∈ ps, IsPiece p
  fragments : b.fragments = (ps.map fun p => collapse (visible p)).filter fun f => !f.isEmpty

theorem balanced_joinPieces {ps : List (List Atom)} (h : ∀ p ∈ ps, Balanced p) :
    Balanced (joinPieces ps) := by
  induction ps with
  | nil => exact .nil
  | cons p ps ih =>
    obtain ⟨hp, hps⟩ := List.forall_mem_cons.1 h
    cases ps with
    | nil => rwa [joinPieces_singleton]
    | cons q qs =>
      rw [joinPieces, List.intercalate_cons_cons, List.append_assoc]
      exact hp.append (.cons rfl (ih hps))

/-- The reader reads what the grammar says. -/
theorem readBlock_eq_ok_iff_grammatical {t : Text} {b : Block} :
    readBlock t = .ok b ↔ ∃ as ps, Grammatical t b as ps := by
  rw [readBlock_eq_ok_iff]
  constructor
  · rintro ⟨w, hw, rfl⟩
    obtain ⟨p, ps, hp, huncut, hps, hstand, ht, hpiece, hpieces⟩ := hw.exists_pieces
    have hall : ∀ q ∈ p :: ps, IsPiece q :=
      List.forall_mem_cons.2 ⟨isPiece_iff.2 ⟨hp, huncut⟩, hps⟩
    refine ⟨joinPieces (p :: ps), p :: ps, ?_⟩
    exact
      { text := hw.eq_append
        body := List.append_cancel_right (hw.eq_append.symm.trans ht)
        stand := hstand
        balanced := balanced_joinPieces fun q hq => (hall q hq).balanced
        ne_nil := by simp
        joined := rfl
        pieces := hall
        fragments := by simp [fragments, hpiece, hpieces, Function.comp_def] }
  · rintro ⟨as, ps, h⟩
    obtain ⟨p, ps, rfl⟩ := List.exists_cons_of_ne_nil h.ne_nil
    obtain ⟨hp, hps⟩ := List.forall_mem_cons.1 h.pieces
    obtain ⟨hclose, huncut⟩ := isPiece_iff.1 hp
    have hstand := h.stand
    have hbody := h.body
    rw [h.joined] at hstand hbody
    have hread := reads_joinPieces hclose huncut hps hstand
    rw [← hbody, ← h.text] at hread
    have hfragments : b.fragments = fragments (visible p :: ps.map visible) := by
      rw [h.fragments]
      simp [fragments, Function.comp_def]
    exact ⟨_, hread, by rw [← hfragments]⟩

/-- **The reader of a block accepts exactly the grammar, and cuts at exactly the commas outside of
all brackets.**  Behind the first `byteLength before` bytes of a text, it finds the blocks that are
grammatical there and no others; the bracket that closes a block stands behind the bytes of its
atoms; and where no block is grammatical, the reader fails. -/
theorem readBlock_grammar (before t : Text) :
    (∀ b, readBlock (dropBytes (byteLength before) (before ++ t)) = .ok b ↔
      ∃ as ps, Grammatical t b as ps) ∧
    (∀ b as ps, Grammatical t b as ps →
      slice (before ++ t) (byteLength before) (byteLength before + byteLength b.body)
          = spelled as ∧
        dropBytes (byteLength before + byteLength b.body) (before ++ t) = ')' :: b.rest) ∧
    ((∀ b as ps, ¬Grammatical t b as ps) →
      ∃ fault, readBlock (dropBytes (byteLength before) (before ++ t)) = .error fault) := by
  rw [dropBytes_append]
  refine ⟨fun b => readBlock_eq_ok_iff_grammatical, fun b as ps h => ?_, fun hnone => ?_⟩
  · rw [← h.body, h.text, ← byteLength_append]
    refine ⟨slice_append _ _ _, ?_⟩
    rw [← List.append_assoc, dropBytes_append]
  · cases hread : readBlock t with
    | error fault => exact ⟨fault, rfl⟩
    | ok b =>
      obtain ⟨as, ps, h⟩ := readBlock_eq_ok_iff_grammatical.1 hread
      exact absurd h (hnone b as ps)

example :
    (readBlock "a: F(u8) -> V<(x, y)>, // ]\n b: /* , /* ) */ */ \"), \\\"\" ,) rest".toList).map
        (·.fragments)
      = .ok ["a: F(u8) -> V<(x, y)>".toList, "b: \"), \\\"\"".toList] := by
  decide +kernel

end RuleFormat
