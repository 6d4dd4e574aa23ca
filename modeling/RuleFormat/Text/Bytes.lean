import RuleFormat.Text.Basic

/-!
# Bytes

What comes from outside of the program, such as the name of a file, is a list of bytes.  Mostly it is
the UTF-8 form of a text (`utf8`), but it need not be.

Bytes are decoded one after the other.  A character is done when as many bytes have been read as its
first byte announces.  Bytes that cannot be continued to a character are stray: they end at the
first byte that rules a character out, and that byte is read anew.

* `display` shows a replacement character for each run of stray bytes.
* `toText?` gives the text whose form the bytes are, if there is one (`toText?_eq_some_iff`).
-/

namespace RuleFormat

/-- A list of bytes. -/
abbrev Bytes := List UInt8

/-- The bytes of a text. -/
def utf8 (t : Text) : Bytes := t.flatMap String.utf8EncodeChar

instance : Coe Text Bytes := ⟨utf8⟩

/-! ## Decoding -/

/-- What bytes are decoded to. -/
inductive Decoded where
  | char (c : Char)
  /-- Bytes that are part of no character. -/
  | stray (bytes : Bytes)
  deriving DecidableEq, Repr

/-- A character that has begun. -/
structure Begun where
  /-- The bytes that have been read. -/
  bytes : Bytes
  /-- The upper part of the code point. -/
  upper : Nat
  /-- How many bytes follow the next one. -/
  owed : Nat
  /-- The least next byte. -/
  least : Nat
  /-- The greatest next byte. -/
  greatest : Nat
  deriving DecidableEq, Repr

/-- What the first byte of a character leads to.  The bounds of the second byte leave out longer
forms of a character, surrogates, and what lies behind the last code point. -/
def firstByte (b : UInt8) : List Decoded × Option Begun :=
  let n := b.toNat
  if n < 0x80 then ([.char (Char.ofNat n)], none)
  else if n < 0xC2 ∨ 0xF4 < n then ([.stray [b]], none)
  else if n < 0xE0 then ([], some ⟨[b], n - 0xC0, 0, 0x80, 0xBF⟩)
  else if n < 0xF0 then
    ([], some ⟨[b], n - 0xE0, 1, if n = 0xE0 then 0xA0 else 0x80, if n = 0xED then 0x9F else 0xBF⟩)
  else
    ([], some ⟨[b], n - 0xF0, 2, if n = 0xF0 then 0x90 else 0x80, if n = 0xF4 then 0x8F else 0xBF⟩)

/-- What a further byte of a character leads to. -/
def Begun.further (g : Begun) (b : UInt8) : List Decoded × Option Begun :=
  let n := b.toNat
  if g.least ≤ n ∧ n ≤ g.greatest then
    let upper := g.upper * 64 + (n - 0x80)
    match g.owed with
    | 0 => ([.char (Char.ofNat upper)], none)
    | k + 1 => ([], some ⟨g.bytes ++ [b], upper, k, 0x80, 0xBF⟩)
  else (.stray g.bytes :: (firstByte b).1, (firstByte b).2)

/-- What a byte leads to, behind the bytes of a character that has begun. -/
def decodeByte : Option Begun → UInt8 → List Decoded × Option Begun
  | none, b => firstByte b
  | some g, b => g.further b

/-- Decodes bytes that stand behind those of a character that has begun. -/
def decodeFrom : Option Begun → Bytes → List Decoded
  | none, [] => []
  | some g, [] => [.stray g.bytes]
  | s, b :: bs => (decodeByte s b).1 ++ decodeFrom (decodeByte s b).2 bs

/-- Decodes bytes. -/
def decode (bytes : Bytes) : List Decoded := decodeFrom none bytes

/-- The character that is shown for what has been decoded. -/
def Decoded.shown : Decoded → Char
  | char c => c
  | stray _ => Char.ofNat 0xFFFD

/-- Bytes as they are shown. -/
def display (bytes : Bytes) : Text := (decode bytes).map Decoded.shown

/-- The text whose UTF-8 form the bytes are, if there is one. -/
def toText? (bytes : Bytes) : Option Text :=
  if utf8 (display bytes) = bytes then some (display bytes) else none

/-! ## Texts and their bytes -/

@[simp] theorem utf8_nil : utf8 [] = [] := rfl

@[simp] theorem utf8_cons (c : Char) (t : Text) :
    utf8 (c :: t) = String.utf8EncodeChar c ++ utf8 t := List.flatMap_cons

@[simp] theorem utf8_append (s t : Text) : utf8 (s ++ t) = utf8 s ++ utf8 t := List.flatMap_append

@[simp] theorem decodeFrom_cons (s : Option Begun) (b : UInt8) (bs : Bytes) :
    decodeFrom s (b :: bs) = (decodeByte s b).1 ++ decodeFrom (decodeByte s b).2 bs := by
  cases s <;> rfl

/-- What the first byte of a character leads to, by its value. -/
theorem firstByte_ofNat {n : Nat} (hn : n < 256) : firstByte (UInt8.ofNat n) =
    if n < 0x80 then ([.char (Char.ofNat n)], none)
    else if n < 0xC2 ∨ 0xF4 < n then ([.stray [UInt8.ofNat n]], none)
    else if n < 0xE0 then ([], some ⟨[UInt8.ofNat n], n - 0xC0, 0, 0x80, 0xBF⟩)
    else if n < 0xF0 then
      ([], some ⟨[UInt8.ofNat n], n - 0xE0, 1, if n = 0xE0 then 0xA0 else 0x80,
        if n = 0xED then 0x9F else 0xBF⟩)
    else
      ([], some ⟨[UInt8.ofNat n], n - 0xF0, 2, if n = 0xF0 then 0x90 else 0x80,
        if n = 0xF4 then 0x8F else 0xBF⟩) := by
  unfold firstByte
  rw [UInt8.toNat_ofNat_of_lt' hn]

section

variable {g : Begun} {n : Nat}

theorem decodeFrom_further {k : Nat} (howed : g.owed = k + 1) (hn : n < 256) (hleast : g.least ≤ n)
    (hgreatest : n ≤ g.greatest) (bs : Bytes) :
    decodeFrom (some g) (UInt8.ofNat n :: bs) =
      decodeFrom (some ⟨g.bytes ++ [UInt8.ofNat n], g.upper * 64 + (n - 0x80), k, 0x80, 0xBF⟩) bs := by
  rw [decodeFrom_cons, decodeByte, Begun.further, UInt8.toNat_ofNat_of_lt' hn,
    if_pos ⟨hleast, hgreatest⟩, howed]
  rfl

theorem decodeFrom_last (howed : g.owed = 0) (hn : n < 256) (hleast : g.least ≤ n)
    (hgreatest : n ≤ g.greatest) (bs : Bytes) :
    decodeFrom (some g) (UInt8.ofNat n :: bs) =
      .char (Char.ofNat (g.upper * 64 + (n - 0x80))) :: decodeFrom none bs := by
  rw [decodeFrom_cons, decodeByte, Begun.further, UInt8.toNat_ofNat_of_lt' hn,
    if_pos ⟨hleast, hgreatest⟩, howed]
  rfl

end

/-- The bytes of a character are decoded to it, whatever follows. -/
theorem decodeFrom_utf8EncodeChar (c : Char) (rest : Bytes) :
    decodeFrom none (String.utf8EncodeChar c ++ rest) = .char c :: decodeFrom none rest := by
  have hvalid : c.toNat < 0xD800 ∨ 0xDFFF < c.toNat ∧ c.toNat < 0x110000 := c.valid
  have hchar : ∀ n, n = c.toNat → Char.ofNat n = c := by
    rintro n rfl
    exact Char.ofNat_toNat c
  have hval : c.val.toNat = c.toNat := rfl
  unfold String.utf8EncodeChar
  rw [hval]
  generalize c.toNat = v at hvalid hchar
  dsimp only
  -- one case for each number of bytes
  by_cases h₁ : v ≤ 127
  · rw [if_pos h₁, List.singleton_append, decodeFrom_cons, decodeByte, firstByte_ofNat (by omega),
      if_pos (by omega), hchar v rfl]
    rfl
  rw [if_neg h₁]
  by_cases h₂ : v ≤ 2047
  · simp only [if_pos h₂, List.cons_append, List.nil_append]
    rw [decodeFrom_cons, decodeByte, firstByte_ofNat (by omega), if_neg (by omega),
      if_neg (by omega), if_pos (by omega), List.nil_append,
      decodeFrom_last rfl (by omega) (by dsimp only; omega) (by dsimp only; omega),
      hchar _ (by dsimp only; omega)]
  rw [if_neg h₂]
  by_cases h₃ : v ≤ 65535
  · simp only [if_pos h₃, List.cons_append, List.nil_append]
    rw [decodeFrom_cons, decodeByte, firstByte_ofNat (by omega), if_neg (by omega),
      if_neg (by omega), if_neg (by omega), if_pos (by omega), List.nil_append,
      decodeFrom_further rfl (by omega) (by dsimp only; split <;> omega)
        (by dsimp only; split <;> omega),
      decodeFrom_last rfl (by omega) (by dsimp only; omega) (by dsimp only; omega),
      hchar _ (by dsimp only; omega)]
  · simp only [if_neg h₃, List.cons_append, List.nil_append]
    rw [decodeFrom_cons, decodeByte, firstByte_ofNat (by omega), if_neg (by omega),
      if_neg (by omega), if_neg (by omega), if_neg (by omega), List.nil_append,
      decodeFrom_further rfl (by omega) (by dsimp only; split <;> omega)
        (by dsimp only; split <;> omega),
      decodeFrom_further rfl (by omega) (by dsimp only; omega) (by dsimp only; omega),
      decodeFrom_last rfl (by omega) (by dsimp only; omega) (by dsimp only; omega),
      hchar _ (by dsimp only; omega)]

/-- The bytes of a text are shown as the text. -/
@[simp] theorem display_utf8 (t : Text) : display (utf8 t) = t := by
  unfold display decode
  induction t with
  | nil => rfl
  | cons c t ih =>
    rw [utf8_cons, decodeFrom_utf8EncodeChar, List.map_cons, ih]
    rfl

theorem toText?_eq_some_iff {bytes : Bytes} {t : Text} : toText? bytes = some t ↔ utf8 t = bytes := by
  unfold toText?
  constructor
  · intro h
    split at h
    · rename_i hform
      rw [← Option.some.inj h, hform]
    · cases h
  · rintro rfl
    rw [display_utf8, if_pos rfl]

@[simp] theorem toText?_utf8 (t : Text) : toText? (utf8 t) = some t := toText?_eq_some_iff.2 rfl

end RuleFormat
