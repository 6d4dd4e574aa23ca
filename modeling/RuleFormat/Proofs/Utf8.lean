import Mathlib.Data.List.Basic
import RuleFormat.Proofs.Scan
import RuleFormat.Text.Bytes

/-!
# Texts as bytes

`utf8` gives the bytes of a text, `byteAt?` reads one of them, and `slice?` cuts a text between two
offsets.  Both say `none` where the offsets are not in order: past the end, the wrong way round, or
inside of a character (`isBoundary_iff`).

A byte tells an ASCII character from all others (`byteAt?_cons_of_lt`, `byteAt?_eq_some_iff`), and
the bytes of a text begin with those of another exactly when the texts do (`utf8_prefix_iff`).
-/

namespace RuleFormat

@[simp] theorem length_utf8 (t : Text) : (utf8 t).length = byteLength t := by
  induction t with
  | nil => rfl
  | cons c t ih => simp [ih]

/-! ## Texts in front of others -/

/-- The bytes of a character end where they end, whatever follows. -/
theorem utf8EncodeChar_append_inj {c d : Char} {s t : List UInt8}
    (h : String.utf8EncodeChar c ++ s = String.utf8EncodeChar d ++ t) : c = d ∧ s = t := by
  have hdecode : ∀ (e : Char) (u : List UInt8),
      ByteArray.utf8DecodeChar? (String.utf8EncodeChar e ++ u).toByteArray 0 = some e := by
    intro e u
    rw [List.toByteArray_append]
    exact ByteArray.utf8DecodeChar?_utf8EncodeChar_append
  have hsome := hdecode c s
  rw [h, hdecode d t] at hsome
  obtain rfl := Option.some.inj hsome
  exact ⟨rfl, List.append_cancel_left h⟩

theorem utf8_prefix_iff {s t : Text} : utf8 s <+: utf8 t ↔ s <+: t := by
  constructor
  · intro h
    induction s generalizing t with
    | nil => exact List.nil_prefix
    | cons c s ih =>
      obtain ⟨rest, hrest⟩ := h
      rw [utf8_cons, List.append_assoc] at hrest
      cases t with
      | nil =>
        have hnil := (List.append_eq_nil_iff.1 hrest).1
        exact absurd hnil String.utf8EncodeChar_ne_nil
      | cons d t =>
        rw [utf8_cons] at hrest
        obtain ⟨rfl, htail⟩ := utf8EncodeChar_append_inj hrest
        exact List.cons_prefix_cons.2 ⟨rfl, ih ⟨rest, htail⟩⟩
  · rintro ⟨rest, rfl⟩
    exact ⟨utf8 rest, (utf8_append s rest).symm⟩

/-- Two texts that agree on the bytes of a text in front both begin with it. -/
theorem prefix_of_take_utf8_eq {p t u : Text} (hp : p <+: t)
    (h : (utf8 t).take (byteLength p) = (utf8 u).take (byteLength p)) : p <+: u := by
  obtain ⟨rest, rfl⟩ := hp
  rw [utf8_append, ← length_utf8 p, List.take_left] at h
  have htake : utf8 p <+: utf8 u := by
    rw [h]
    exact List.take_prefix _ _
  exact utf8_prefix_iff.1 htake

/-! ## Single bytes -/

/-- The byte at an offset, as the character with this code. -/
def byteAt? (t : Text) (i : Nat) : Option Char := ((utf8 t)[i]?).map Char.ofUInt8

theorem byteAt?_append (p t : Text) (i : Nat) :
    byteAt? (p ++ t) (byteLength p + i) = byteAt? t i := by
  have hle : (utf8 p).length ≤ byteLength p + i := by rw [length_utf8]; omega
  rw [byteAt?, utf8_append, List.getElem?_append_right hle, length_utf8, Nat.add_sub_cancel_left]
  rfl

theorem utf8Size_eq_one_iff_toNat {c : Char} : c.utf8Size = 1 ↔ c.toNat < 128 := by
  rw [Char.utf8Size_eq_one_iff, UInt32.le_iff_toNat_le]
  exact Nat.lt_succ_iff.symm

/-- All bytes of a character outside of ASCII are outside of ASCII. -/
theorem le_toNat_of_mem_utf8EncodeChar {c : Char} {b : UInt8} (hc : c.utf8Size ≠ 1)
    (hb : b ∈ String.utf8EncodeChar c) : 128 ≤ b.toNat := by
  have hlarge : ¬c.val.toNat ≤ 127 := fun h =>
    hc (utf8Size_eq_one_iff_toNat.2 (Nat.lt_succ_of_le h))
  have hofNat : ∀ n, 128 ≤ n → n < 256 → 128 ≤ (UInt8.ofNat n).toNat := by
    intro n hle hlt
    rwa [UInt8.toNat_ofNat_of_lt' hlt]
  simp only [String.utf8EncodeChar, if_neg hlarge] at hb
  split at hb
  · simp only [List.mem_cons, List.not_mem_nil, or_false] at hb
    rcases hb with rfl | rfl <;> exact hofNat _ (by omega) (by omega)
  split at hb
  · simp only [List.mem_cons, List.not_mem_nil, or_false] at hb
    rcases hb with rfl | rfl | rfl <;> exact hofNat _ (by omega) (by omega)
  · simp only [List.mem_cons, List.not_mem_nil, or_false] at hb
    rcases hb with rfl | rfl | rfl | rfl <;> exact hofNat _ (by omega) (by omega)

/-- A character of one byte is its byte, and the bytes of all others are no ASCII characters. -/
theorem byteAt?_cons_of_lt {c : Char} {k : Nat} (hk : k < c.utf8Size) (t : Text) :
    ∃ b, byteAt? (c :: t) k = some b ∧
      (b = c ∧ c.utf8Size = 1 ∨ b.utf8Size ≠ 1 ∧ c.utf8Size ≠ 1) := by
  have hlt : k < (String.utf8EncodeChar c).length := by rwa [String.length_utf8EncodeChar]
  have hbyte : byteAt? (c :: t) k = some (Char.ofUInt8 (String.utf8EncodeChar c)[k]) := by
    rw [byteAt?, utf8_cons, List.getElem?_append_left hlt, List.getElem?_eq_getElem hlt]
    rfl
  refine ⟨_, hbyte, ?_⟩
  by_cases hc : c.utf8Size = 1
  · refine Or.inl ⟨?_, hc⟩
    obtain rfl : k = 0 := by omega
    have hsmall := utf8Size_eq_one_iff_toNat.1 hc
    simp only [String.utf8EncodeChar_eq_singleton hc, List.getElem_cons_zero]
    apply Char.ext
    apply UInt32.toNat_inj.1
    exact Nat.mod_eq_of_lt (by exact Nat.lt_trans hsmall (by decide))
  · have hlarge := le_toNat_of_mem_utf8EncodeChar hc (List.getElem_mem hlt)
    refine Or.inr ⟨fun h => ?_, hc⟩
    have hsmall := utf8Size_eq_one_iff_toNat.1 h
    exact absurd hsmall (Nat.not_lt.2 hlarge)

/-- To read an ASCII character at an offset between two characters is to find it there. -/
theorem byteAt?_eq_some_iff {a : Char} (ha : a.utf8Size = 1) (p t : Text) :
    byteAt? (p ++ t) (byteLength p) = some a ↔ t.head? = some a := by
  have hzero := byteAt?_append p t 0
  rw [Nat.add_zero] at hzero
  rw [hzero]
  cases t with
  | nil => simp [byteAt?]
  | cons c t =>
    obtain ⟨b, hb, ⟨rfl, -⟩ | ⟨hlarge, hc⟩⟩ := byteAt?_cons_of_lt c.utf8Size_pos t
    · rw [hb, List.head?_cons]
    · rw [hb, List.head?_cons]
      constructor
      · intro h
        obtain rfl := Option.some.inj h
        exact absurd ha hlarge
      · intro h
        obtain rfl := Option.some.inj h
        exact absurd ha hc

/-- The same for the byte behind a character of one byte. -/
theorem byteAt?_succ_eq_some_iff {a c : Char} (ha : a.utf8Size = 1) (hc : c.utf8Size = 1)
    (p t : Text) : byteAt? (p ++ c :: t) (byteLength p + 1) = some a ↔ t.head? = some a := by
  have h := byteAt?_eq_some_iff ha (p ++ [c]) t
  rwa [List.append_assoc, List.singleton_append, byteLength_append, byteLength_cons, hc] at h

theorem byteAt?_mark {c d : Char} (hc : c.utf8Size = 1) (hd : d.utf8Size = 1) (p t : Text) :
    byteAt? (p ++ c :: d :: t) (byteLength p) = some c ∧
      byteAt? (p ++ c :: d :: t) (byteLength p + 1) = some d :=
  ⟨(byteAt?_eq_some_iff hc _ _).2 rfl, (byteAt?_succ_eq_some_iff hd hc _ _).2 rfl⟩

theorem exists_byteAt?_iff {t : Text} {i : Nat} :
    (∃ b, byteAt? t i = some b) ↔ i < byteLength t := by
  rw [← length_utf8]
  simp [byteAt?, List.getElem?_eq_some_iff]

/-! ## Slices -/

/-- Whether an offset stands between two characters, or at one of the two ends. -/
def isBoundary : Text → Nat → Bool
  | _, 0 => true
  | [], _ + 1 => false
  | c :: cs, n + 1 => decide (c.utf8Size ≤ n + 1) && isBoundary cs (n + 1 - c.utf8Size)

theorem isBoundary_iff {t : Text} {n : Nat} :
    isBoundary t n = true ↔ ∃ p r, t = p ++ r ∧ byteLength p = n := by
  induction t generalizing n with
  | nil =>
    cases n with
    | zero => exact ⟨fun _ => ⟨[], [], rfl, rfl⟩, fun _ => rfl⟩
    | succ n => simp [isBoundary]
  | cons c t ih =>
    cases n with
    | zero => exact ⟨fun _ => ⟨[], c :: t, rfl, rfl⟩, fun _ => rfl⟩
    | succ n =>
      rw [isBoundary, Bool.and_eq_true, decide_eq_true_iff, ih]
      constructor
      · rintro ⟨hle, p, r, rfl, hp⟩
        exact ⟨c :: p, r, rfl, by rw [byteLength_cons]; omega⟩
      · rintro ⟨p, r, heq, hp⟩
        cases p with
        | nil => cases hp
        | cons d p =>
          obtain ⟨rfl, rfl⟩ := List.cons.inj heq
          rw [byteLength_cons] at hp
          exact ⟨by omega, p, r, rfl, by omega⟩

/-- The text from offset `start` up to offset `stop`, if these come in order and none of them lies
past the end or inside of a character. -/
def slice? (t : Text) (start stop : Nat) : Option Text :=
  if start ≤ stop ∧ isBoundary t start = true ∧ isBoundary t stop = true then
    some (slice t start stop)
  else none

theorem slice?_append (p s r : Text) :
    slice? (p ++ (s ++ r)) (byteLength p) (byteLength (p ++ s)) = some s := by
  have hle : byteLength p ≤ byteLength (p ++ s) := by
    rw [byteLength_append]
    omega
  have hstart : isBoundary (p ++ (s ++ r)) (byteLength p) = true :=
    isBoundary_iff.2 ⟨p, s ++ r, rfl, rfl⟩
  have hstop : isBoundary (p ++ (s ++ r)) (byteLength (p ++ s)) = true :=
    isBoundary_iff.2 ⟨p ++ s, r, (List.append_assoc p s r).symm, rfl⟩
  rw [slice?, if_pos ⟨hle, hstart, hstop⟩, slice_append]

theorem slice?_to_end (p r : Text) :
    slice? (p ++ r) (byteLength p) (byteLength (p ++ r)) = some r := by
  have h := slice?_append p r []
  rwa [List.append_nil] at h

end RuleFormat
