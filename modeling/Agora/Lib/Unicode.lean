import Mathlib.Data.Nat.Notation
import Mathlib.Data.List.Basic
import Mathlib.Data.List.DropRight
import Mathlib.Tactic.Common

/-!
# UTF-16 and UTF-8

Strings of UTF-16 units, the scalar values they stand for, and UTF-8 with the
decoder of the Encoding Standard, which answers every byte sequence and puts
U+FFFD where it is malformed. The decoder reads back what was encoded
(`decode_encode`). Of an encoding that was cut short it reads the characters
that are whole, and U+FFFD for a part of one (`decode_take`), so that it does
not read back the whole unless that ended in U+FFFD
(`eq_concat_of_decode_take`).
-/

namespace Agora.Lib

/-- A string as its UTF-16 units. -/
abbrev Units := List UInt16

def replacement : Char := '\uFFFD'

def isHighSurrogate (u : UInt16) : Bool := 0xD800 ≤ u.toNat && u.toNat ≤ 0xDBFF

def isLowSurrogate (u : UInt16) : Bool := 0xDC00 ≤ u.toNat && u.toNat ≤ 0xDFFF

/-- The units of a scalar value. -/
def utf16 (c : Char) : Units :=
  if c.toNat < 0x10000 then [.ofNat c.toNat]
  else [.ofNat (0xD800 + (c.toNat - 0x10000) / 0x400), .ofNat (0xDC00 + (c.toNat - 0x10000) % 0x400)]

/-- The string of some scalar values. -/
def units (cs : List Char) : Units := cs.flatMap utf16

/-- A unit on its own: U+FFFD for a surrogate. -/
def loneUnit (u : UInt16) : Char :=
  if isHighSurrogate u || isLowSurrogate u then replacement else .ofNat u.toNat

/-- The scalar values of a string, U+FFFD for each surrogate without its partner. -/
def scalars : Units → List Char
  | [] => []
  | [u] => [loneUnit u]
  | u :: v :: rest =>
    if isHighSurrogate u && isLowSurrogate v then
      .ofNat (0x10000 + (u.toNat - 0xD800) * 0x400 + (v.toNat - 0xDC00)) :: scalars rest
    else loneUnit u :: scalars (v :: rest)

/-- Every surrogate has its partner. -/
def WellFormed (s : Units) : Prop := units (scalars s) = s

instance (s : Units) : Decidable (WellFormed s) := inferInstanceAs (Decidable (_ = _))

theorem scalars_utf16_append (c : Char) (s : Units) : scalars (utf16 c ++ s) = c :: scalars s := by
  have hvalid : c.toNat < 0xD800 ∨ 0xDFFF < c.toNat ∧ c.toNat < 0x110000 := c.valid
  by_cases hc : c.toNat < 0x10000
  · have hn : (UInt16.ofNat c.toNat).toNat = c.toNat := by
      rw [UInt16.toNat_ofNat']
      exact Nat.mod_eq_of_lt hc
    have hhigh : isHighSurrogate (.ofNat c.toNat) = false := by
      simp only [isHighSurrogate, hn, Bool.and_eq_false_imp, decide_eq_true_eq, decide_eq_false_iff_not]
      omega
    have hlow : isLowSurrogate (.ofNat c.toNat) = false := by
      simp only [isLowSurrogate, hn, Bool.and_eq_false_imp, decide_eq_true_eq, decide_eq_false_iff_not]
      omega
    have hlone : loneUnit (.ofNat c.toNat) = c := by
      simp [loneUnit, hhigh, hlow, hn]
    rw [utf16, if_pos hc]
    cases s with
    | nil => simp [scalars, hlone]
    | cons v s => simp [scalars, hlone, hhigh]
  · rw [utf16, if_neg hc]
    have hu : (UInt16.ofNat (0xD800 + (c.toNat - 0x10000) / 0x400)).toNat =
        0xD800 + (c.toNat - 0x10000) / 0x400 := by
      rw [UInt16.toNat_ofNat']
      exact Nat.mod_eq_of_lt (by omega)
    have hv : (UInt16.ofNat (0xDC00 + (c.toNat - 0x10000) % 0x400)).toNat =
        0xDC00 + (c.toNat - 0x10000) % 0x400 := by
      rw [UInt16.toNat_ofNat']
      exact Nat.mod_eq_of_lt (by omega)
    have hhigh : isHighSurrogate (.ofNat (0xD800 + (c.toNat - 0x10000) / 0x400)) = true := by
      simp only [isHighSurrogate, hu, Bool.and_eq_true, decide_eq_true_eq]
      omega
    have hlow : isLowSurrogate (.ofNat (0xDC00 + (c.toNat - 0x10000) % 0x400)) = true := by
      simp only [isLowSurrogate, hv, Bool.and_eq_true, decide_eq_true_eq]
      omega
    have hback : 0x10000 + (0xD800 + (c.toNat - 0x10000) / 0x400 - 0xD800) * 0x400 +
        (0xDC00 + (c.toNat - 0x10000) % 0x400 - 0xDC00) = c.toNat := by omega
    simp only [List.cons_append, List.nil_append, scalars, hhigh, hlow, Bool.and_self, if_true, hu,
      hv, hback, Char.ofNat_toNat]

theorem scalars_units (cs : List Char) : scalars (units cs) = cs := by
  induction cs with
  | nil => rfl
  | cons c cs ih => rw [units, List.flatMap_cons, scalars_utf16_append, ← units, ih]

theorem wellFormed_units (cs : List Char) : WellFormed (units cs) := by
  rw [WellFormed, scalars_units]

theorem scalars_concat {u : UInt16} (hu : isLowSurrogate u = false) (s : Units) :
    scalars (s ++ [u]) = scalars s ++ [loneUnit u] := by
  fun_induction scalars s with
  | case1 => rfl
  | case2 v => simp [scalars, hu]
  | case3 v w s hpair ih =>
    rw [List.cons_append, List.cons_append, scalars, if_pos hpair, ih]
    rfl
  | case4 v w s hpair ih =>
    rw [List.cons_append, List.cons_append, scalars, if_neg hpair, ← List.cons_append, ih]
    rfl

/-- `char::is_whitespace`: the Unicode property `White_Space`. -/
def isWhitespace (c : Char) : Bool :=
  (9 ≤ c.toNat && c.toNat ≤ 13) || c.toNat == 0x20 || c.toNat == 0x85 || c.toNat == 0xA0 ||
    c.toNat == 0x1680 || (0x2000 ≤ c.toNat && c.toNat ≤ 0x200A) || c.toNat == 0x2028 ||
    c.toNat == 0x2029 || c.toNat == 0x202F || c.toNat == 0x205F || c.toNat == 0x3000

/-- `str::trim`. -/
def trim (s : String) : String :=
  .ofList ((s.toList.dropWhile isWhitespace).rdropWhile isWhitespace)

/-! ## UTF-8 -/

/-- UTF-8 of some scalar values. -/
def encode (cs : List Char) : List UInt8 := cs.flatMap String.utf8EncodeChar

theorem toList_loop (bytes : ByteArray) (i : ℕ) (r : List UInt8) :
    ByteArray.toList.loop bytes i r = r.reverse ++ bytes.data.toList.drop i := by
  fun_induction ByteArray.toList.loop bytes i r with
  | case1 i r hi ih =>
    have hlt : i < bytes.data.toList.length := by simpa using hi
    rw [ih, List.reverse_cons, List.append_assoc, List.singleton_append,
      List.drop_eq_getElem_cons hlt]
    congr 2
    exact getElem!_pos bytes.data i hi
  | case2 i r hi =>
    have hle : bytes.data.toList.length ≤ i := by simpa using hi
    rw [List.drop_eq_nil_of_le hle, List.append_nil]

theorem toList_toUTF8 (s : String) : s.toUTF8.toList = encode s.toList := by
  rw [ByteArray.toList, toList_loop, List.reverse_nil, List.nil_append, List.drop_zero,
    String.toUTF8, ← String.utf8Encode_toList, List.utf8Encode, List.data_toByteArray,
    List.toList_toArray, encode]

/-- Where the decoder stands in a character: the bytes it still needs, the bits it has, and the
bounds of the next byte. -/
structure Decoder where
  needed : ℕ
  codePoint : ℕ
  lower : ℕ
  upper : ℕ
  deriving DecidableEq

namespace Decoder

/-- Between characters. -/
def start : Decoder := ⟨0, 0, 0x80, 0xBF⟩

/-- The first byte of a character: what it decodes to, and the state after it. -/
def lead (b : ℕ) : List Char × Decoder :=
  if b ≤ 0x7F then ([.ofNat b], start)
  else if 0xC2 ≤ b ∧ b ≤ 0xDF then ([], ⟨1, b % 0x20, 0x80, 0xBF⟩)
  else if 0xE0 ≤ b ∧ b ≤ 0xEF then
    ([], ⟨2, b % 0x10, if b = 0xE0 then 0xA0 else 0x80, if b = 0xED then 0x9F else 0xBF⟩)
  else if 0xF0 ≤ b ∧ b ≤ 0xF4 then
    ([], ⟨3, b % 8, if b = 0xF0 then 0x90 else 0x80, if b = 0xF4 then 0x8F else 0xBF⟩)
  else ([replacement], start)

/-- A byte that does not continue the character is read again as the first of the next one. -/
def feed (d : Decoder) (b : ℕ) : List Char × Decoder :=
  if d.needed = 0 then lead b
  else if d.lower ≤ b ∧ b ≤ d.upper then
    if d.needed = 1 then ([.ofNat (d.codePoint * 0x40 + b % 0x40)], start)
    else ([], ⟨d.needed - 1, d.codePoint * 0x40 + b % 0x40, 0x80, 0xBF⟩)
  else (replacement :: (lead b).1, (lead b).2)

/-- What the rest of the bytes decodes to. -/
def decode : Decoder → List UInt8 → List Char
  | d, [] => if d.needed = 0 then [] else [replacement]
  | d, b :: bs => (d.feed b.toNat).1 ++ decode (d.feed b.toNat).2 bs

theorem decode_next {n cp lower upper : ℕ} {b : UInt8} {bs : List UInt8} (hl : lower ≤ b.toNat)
    (hu : b.toNat ≤ upper) : decode ⟨n + 2, cp, lower, upper⟩ (b :: bs) =
      decode ⟨n + 1, cp * 0x40 + b.toNat % 0x40, 0x80, 0xBF⟩ bs := by
  simp [decode, feed, hl, hu]

theorem decode_last {cp lower upper : ℕ} {b : UInt8} {bs : List UInt8} (hl : lower ≤ b.toNat)
    (hu : b.toNat ≤ upper) : decode ⟨1, cp, lower, upper⟩ (b :: bs) =
      .ofNat (cp * 0x40 + b.toNat % 0x40) :: decode start bs := by
  simp [decode, feed, hl, hu]

end Decoder

/-- `TextDecoder.decode` drops a byte order mark at the start. -/
def decode (bytes : List UInt8) : List Char :=
  match Decoder.start.decode bytes with
  | '\uFEFF' :: cs => cs
  | cs => cs

theorem utf8EncodeChar_cases (c : Char) :
    (c.toNat ≤ 0x7F ∧ String.utf8EncodeChar c = [.ofNat c.toNat]) ∨
    (0x7F < c.toNat ∧ c.toNat ≤ 0x7FF ∧ String.utf8EncodeChar c =
      [.ofNat (0xC0 + c.toNat / 0x40), .ofNat (0x80 + c.toNat % 0x40)]) ∨
    (0x7FF < c.toNat ∧ c.toNat ≤ 0xFFFF ∧ (c.toNat < 0xD800 ∨ 0xDFFF < c.toNat) ∧
      String.utf8EncodeChar c = [.ofNat (0xE0 + c.toNat / 0x1000),
        .ofNat (0x80 + c.toNat / 0x40 % 0x40), .ofNat (0x80 + c.toNat % 0x40)]) ∨
    (0xFFFF < c.toNat ∧ c.toNat ≤ 0x10FFFF ∧ String.utf8EncodeChar c =
      [.ofNat (0xF0 + c.toNat / 0x40000), .ofNat (0x80 + c.toNat / 0x1000 % 0x40),
        .ofNat (0x80 + c.toNat / 0x40 % 0x40), .ofNat (0x80 + c.toNat % 0x40)]) := by
  have hvalid : c.toNat < 0xD800 ∨ 0xDFFF < c.toNat ∧ c.toNat < 0x110000 := c.valid
  have hval : c.val.toNat = c.toNat := rfl
  unfold String.utf8EncodeChar
  simp only [hval]
  split
  · exact .inl ⟨by assumption, rfl⟩
  · split
    · refine .inr (.inl ⟨by omega, by assumption, ?_⟩)
      rw [show c.toNat / 64 % 32 + 192 = 0xC0 + c.toNat / 0x40 by omega, Nat.add_comm (_ % 64)]
    · split
      · refine .inr (.inr (.inl ⟨by omega, by assumption, by omega, ?_⟩))
        rw [show c.toNat / 4096 % 16 + 224 = 0xE0 + c.toNat / 0x1000 by omega,
          Nat.add_comm (_ % 64), Nat.add_comm (_ % 64)]
      · refine .inr (.inr (.inr ⟨by omega, by omega, ?_⟩))
        rw [show c.toNat / 262144 % 8 + 240 = 0xF0 + c.toNat / 0x40000 by omega,
          Nat.add_comm (_ % 64), Nat.add_comm (_ % 64), Nat.add_comm (_ % 64)]

namespace Decoder

theorem decode_start {b : UInt8} {bs : List UInt8} :
    start.decode (b :: bs) = (lead b.toNat).1 ++ (lead b.toNat).2.decode bs := rfl

theorem toNat_ofNat_lt {n : ℕ} (h : n < 256) : (UInt8.ofNat n).toNat = n := by
  rw [UInt8.toNat_ofNat']
  exact Nat.mod_eq_of_lt h

theorem lead_one {b : ℕ} (h : b ≤ 0x7F) : lead b = ([.ofNat b], start) := if_pos h

theorem lead_two {b : ℕ} (h : 0xC2 ≤ b) (h' : b ≤ 0xDF) :
    lead b = ([], ⟨1, b % 0x20, 0x80, 0xBF⟩) := by
  rw [lead, if_neg (by omega), if_pos ⟨h, h'⟩]

theorem lead_three {b : ℕ} (h : 0xE0 ≤ b) (h' : b ≤ 0xEF) :
    lead b = ([], ⟨2, b % 0x10, if b = 0xE0 then 0xA0 else 0x80,
      if b = 0xED then 0x9F else 0xBF⟩) := by
  rw [lead, if_neg (by omega), if_neg (by omega), if_pos ⟨h, h'⟩]

theorem lead_four {b : ℕ} (h : 0xF0 ≤ b) (h' : b ≤ 0xF4) :
    lead b = ([], ⟨3, b % 8, if b = 0xF0 then 0x90 else 0x80,
      if b = 0xF4 then 0x8F else 0xBF⟩) := by
  rw [lead, if_neg (by omega), if_neg (by omega), if_neg (by omega), if_pos ⟨h, h'⟩]

theorem decode_short {n cp lower upper : ℕ} : decode ⟨n + 1, cp, lower, upper⟩ [] = [replacement] :=
  if_neg n.succ_ne_zero

/-- A character is read back, and of a part of it one U+FFFD. -/
theorem decode_utf8EncodeChar (c : Char) :
    (∀ bs, start.decode (String.utf8EncodeChar c ++ bs) = c :: start.decode bs) ∧
      ∀ n, 0 < n → n < (String.utf8EncodeChar c).length →
        start.decode ((String.utf8EncodeChar c).take n) = [replacement] := by
  rcases utf8EncodeChar_cases c with ⟨h, hc⟩ | ⟨h, h', hc⟩ | ⟨h, h', hs, hc⟩ | ⟨h, h', hc⟩ <;>
    rw [hc]
  · have hb := toNat_ofNat_lt (n := c.toNat) (by omega)
    refine ⟨fun bs => ?_, fun n h0 hn => ?_⟩
    · rw [List.singleton_append, decode_start, hb, lead_one h, Char.ofNat_toNat]
      rfl
    · simp only [List.length_singleton] at hn
      omega
  · have hb0 := toNat_ofNat_lt (n := 0xC0 + c.toNat / 0x40) (by omega)
    have hb1 := toNat_ofNat_lt (n := 0x80 + c.toNat % 0x40) (by omega)
    have hlead := lead_two (b := 0xC0 + c.toNat / 0x40) (by omega) (by omega)
    refine ⟨fun bs => ?_, fun n h0 hn => ?_⟩
    · rw [List.cons_append, decode_start, hb0, hlead, List.cons_append,
        decode_last (by omega) (by omega), hb1,
        show (0xC0 + c.toNat / 0x40) % 0x20 * 0x40 + (0x80 + c.toNat % 0x40) % 0x40 = c.toNat by
          omega, Char.ofNat_toNat]
      rfl
    · obtain rfl : n = 1 := by simp only [List.length_cons, List.length_nil] at hn; omega
      rw [List.take_succ_cons, decode_start, hb0, hlead, List.take_zero, List.nil_append,
        decode_short]
  · have hb0 := toNat_ofNat_lt (n := 0xE0 + c.toNat / 0x1000) (by omega)
    have hb1 := toNat_ofNat_lt (n := 0x80 + c.toNat / 0x40 % 0x40) (by omega)
    have hb2 := toNat_ofNat_lt (n := 0x80 + c.toNat % 0x40) (by omega)
    have hlead := lead_three (b := 0xE0 + c.toNat / 0x1000) (by omega) (by omega)
    -- the second byte keeps out overlong forms and surrogates
    have hlower : (if 0xE0 + c.toNat / 0x1000 = 0xE0 then 0xA0 else 0x80) ≤
        (UInt8.ofNat (0x80 + c.toNat / 0x40 % 0x40)).toNat := by
      rw [hb1]; split <;> omega
    have hupper : (UInt8.ofNat (0x80 + c.toNat / 0x40 % 0x40)).toNat ≤
        (if 0xE0 + c.toNat / 0x1000 = 0xED then 0x9F else 0xBF) := by
      rw [hb1]; split <;> omega
    refine ⟨fun bs => ?_, fun n h0 hn => ?_⟩
    · rw [List.cons_append, decode_start, hb0, hlead, List.cons_append, decode_next hlower hupper,
        List.cons_append, decode_last (by omega) (by omega), hb1, hb2,
        show ((0xE0 + c.toNat / 0x1000) % 0x10 * 0x40 + (0x80 + c.toNat / 0x40 % 0x40) % 0x40) *
          0x40 + (0x80 + c.toNat % 0x40) % 0x40 = c.toNat by omega, Char.ofNat_toNat]
      rfl
    · obtain rfl | rfl : n = 1 ∨ n = 2 := by
        simp only [List.length_cons, List.length_nil] at hn; omega
      · rw [List.take_succ_cons, decode_start, hb0, hlead, List.take_zero, List.nil_append,
          decode_short]
      · rw [List.take_succ_cons, List.take_succ_cons, decode_start, hb0, hlead, List.nil_append,
          decode_next hlower hupper, List.take_zero, decode_short]
  · have hb0 := toNat_ofNat_lt (n := 0xF0 + c.toNat / 0x40000) (by omega)
    have hb1 := toNat_ofNat_lt (n := 0x80 + c.toNat / 0x1000 % 0x40) (by omega)
    have hb2 := toNat_ofNat_lt (n := 0x80 + c.toNat / 0x40 % 0x40) (by omega)
    have hb3 := toNat_ofNat_lt (n := 0x80 + c.toNat % 0x40) (by omega)
    have hlead := lead_four (b := 0xF0 + c.toNat / 0x40000) (by omega) (by omega)
    have hlower : (if 0xF0 + c.toNat / 0x40000 = 0xF0 then 0x90 else 0x80) ≤
        (UInt8.ofNat (0x80 + c.toNat / 0x1000 % 0x40)).toNat := by
      rw [hb1]; split <;> omega
    have hupper : (UInt8.ofNat (0x80 + c.toNat / 0x1000 % 0x40)).toNat ≤
        (if 0xF0 + c.toNat / 0x40000 = 0xF4 then 0x8F else 0xBF) := by
      rw [hb1]; split <;> omega
    refine ⟨fun bs => ?_, fun n h0 hn => ?_⟩
    · rw [List.cons_append, decode_start, hb0, hlead, List.cons_append, decode_next hlower hupper,
        List.cons_append, decode_next (by omega) (by omega), List.cons_append,
        decode_last (by omega) (by omega), hb1, hb2, hb3,
        show (((0xF0 + c.toNat / 0x40000) % 8 * 0x40 + (0x80 + c.toNat / 0x1000 % 0x40) % 0x40) *
          0x40 + (0x80 + c.toNat / 0x40 % 0x40) % 0x40) * 0x40 +
            (0x80 + c.toNat % 0x40) % 0x40 = c.toNat by omega, Char.ofNat_toNat]
      rfl
    · obtain rfl | rfl | rfl : n = 1 ∨ n = 2 ∨ n = 3 := by
        simp only [List.length_cons, List.length_nil] at hn; omega
      · rw [List.take_succ_cons, decode_start, hb0, hlead, List.take_zero, List.nil_append,
          decode_short]
      · rw [List.take_succ_cons, List.take_succ_cons, decode_start, hb0, hlead, List.nil_append,
          decode_next hlower hupper, List.take_zero, decode_short]
      · rw [List.take_succ_cons, List.take_succ_cons, List.take_succ_cons, decode_start, hb0, hlead,
          List.nil_append, decode_next hlower hupper, decode_next (by omega) (by omega),
          List.take_zero, decode_short]

/-- Of an encoding that is cut, the characters that are whole are read, and U+FFFD for a part. -/
theorem decode_take (cs : List Char) (n : ℕ) :
    ∃ k t, start.decode ((encode cs).take n) = cs.take k ++ t ∧ (t = [] ∨ t = [replacement]) ∧
      (encode (cs.take k)).length ≤ n ∧ (n < (encode cs).length → k < cs.length) := by
  induction cs generalizing n with
  | nil => exact ⟨0, [], by simp [encode, decode, start], .inl rfl, by simp [encode], by simp [encode]⟩
  | cons c cs ih =>
    obtain ⟨hwhole, hpart⟩ := decode_utf8EncodeChar c
    have hencode : encode (c :: cs) = String.utf8EncodeChar c ++ encode cs := rfl
    by_cases hn : n < (String.utf8EncodeChar c).length
    · rw [hencode, List.take_append_of_le_length (Nat.le_of_lt hn)]
      rcases Nat.eq_zero_or_pos n with rfl | h0
      · exact ⟨0, [], rfl, .inl rfl, by simp [encode], by simp⟩
      · exact ⟨0, [replacement], hpart n h0 hn, .inr rfl, by simp [encode], by simp⟩
    · obtain ⟨k, t, hk, ht, hle, hlt⟩ := ih (n - (String.utf8EncodeChar c).length)
      have hcut : (encode (c :: cs)).take n = String.utf8EncodeChar c ++
          (encode cs).take (n - (String.utf8EncodeChar c).length) := by
        rw [hencode, List.take_append, List.take_of_length_le (Nat.not_lt.mp hn)]
      refine ⟨k + 1, t, ?_, ht, ?_, fun h => ?_⟩
      · rw [hcut, hwhole, hk]
        rfl
      · rw [List.take_succ_cons, encode, List.flatMap_cons, List.length_append, ← encode]
        omega
      · rw [hencode, List.length_append] at h
        simpa using hlt (by omega)

end Decoder

/-- There is no byte order mark to drop. -/
theorem decode_encode_take {c : Char} (cs : List Char) (hc : c ≠ '\uFEFF') (n : ℕ) :
    decode ((encode (c :: cs)).take n) = Decoder.start.decode ((encode (c :: cs)).take n) := by
  obtain ⟨k, t, hk, ht, -, -⟩ := Decoder.decode_take (c :: cs) n
  unfold decode
  split
  · next ds hmark =>
    rw [hk] at hmark
    cases k with
    | zero => rcases ht with rfl | rfl <;> simp [replacement] at hmark
    | succ k => exact absurd (List.cons.inj hmark).1 hc
  · rfl

theorem encode_append (cs ds : List Char) : encode (cs ++ ds) = encode cs ++ encode ds :=
  List.flatMap_append

/-- No character has more units than bytes. -/
theorem length_units_le (cs : List Char) : (units cs).length ≤ (encode cs).length := by
  induction cs with
  | nil => exact Nat.le_refl _
  | cons c cs ih =>
    have hc : (utf16 c).length ≤ (String.utf8EncodeChar c).length := by
      unfold utf16
      rcases utf8EncodeChar_cases c with ⟨h, hc⟩ | ⟨h, h', hc⟩ | ⟨h, h', hs, hc⟩ | ⟨h, h', hc⟩ <;>
        (rw [hc]; split <;> simp <;> omega)
    simp only [units, encode, List.flatMap_cons, List.length_append] at ih ⊢
    omega

theorem length_le_encode {s : Units} (hs : WellFormed s) :
    s.length ≤ (encode (scalars s)).length := by
  have hle := length_units_le (scalars s)
  rwa [hs] at hle

/-- A text that survives a cut of its encoding ends in U+FFFD, and is no longer than that
would make it. -/
theorem Decoder.eq_concat_of_decode_take {cs : List Char} {n : ℕ} (hn : n < (encode cs).length)
    (h : start.decode ((encode cs).take n) = cs) :
    ∃ ds, cs = ds ++ [replacement] ∧ (encode cs).length ≤ n + 3 := by
  obtain ⟨k, t, hk, ht, hle, hlt⟩ := decode_take cs n
  rw [h] at hk
  rcases ht with rfl | rfl
  · have hlen := congrArg List.length hk
    rw [List.append_nil, List.length_take] at hlen
    have hshort := hlt hn
    omega
  · refine ⟨cs.take k, hk, ?_⟩
    have hthree : (encode [replacement]).length = 3 := by decide
    rw [hk, encode_append, List.length_append, hthree]
    omega

theorem Decoder.decode_encode (cs : List Char) : start.decode (encode cs) = cs := by
  induction cs with
  | nil => rfl
  | cons c cs ih => rw [encode, List.flatMap_cons, (decode_utf8EncodeChar c).1, ← encode, ih]

end Agora.Lib
