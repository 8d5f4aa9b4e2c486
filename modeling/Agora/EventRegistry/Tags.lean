import Agora.EventRegistry.Events
import Agora.Lib.Unicode
import Mathlib.Data.Bool.AllAny

/-!
# Tags

`validate_tags` of `lib.rs` looks at the bytes of a tag and refuses those of
`0x7F..0xC0` besides the ASCII control characters. These are the bytes that
continue a character in UTF-8, so it refuses every character beyond ASCII.
-/

namespace Agora.EventRegistry

open Lib

/-- `U+0000` to `U+001F` and `U+007F` to `U+009F`. -/
def IsControl (c : Char) : Prop := c.toNat ≤ 0x1F ∨ 0x7F ≤ c.toNat ∧ c.toNat ≤ 0x9F

instance (c : Char) : Decidable (IsControl c) := inferInstanceAs (Decidable (_ ∨ _))

/-- A tag of at most 32 bytes without control characters. -/
def Printable (tag : String) : Prop :=
  (bytesOf tag).length ≤ 32 ∧ ∀ c ∈ tag.toList, ¬ IsControl c

/-- The bytes that the loop lets pass. -/
def Passes (b : UInt8) : Prop := 0x20 ≤ b.toNat ∧ (b.toNat < 0x7F ∨ 0xC0 ≤ b.toNat)

theorem bytesOf_eq (s : String) : bytesOf s = encode s.toList := by
  rw [bytesOf, String.toUTF8, ← String.utf8Encode_toList, List.utf8Encode, List.data_toByteArray,
    List.toList_toArray, encode]

theorem not_passes_continuation (n : Nat) : ¬ Passes (.ofNat (0x80 + n % 0x40)) := by
  unfold Passes
  rw [Decoder.toNat_ofNat_lt (by omega)]
  omega

/-- The bytes of a character all pass when it is a printable one of ASCII. -/
theorem forall_passes_iff (c : Char) :
    (∀ b ∈ String.utf8EncodeChar c, Passes b) ↔ 0x20 ≤ c.toNat ∧ c.toNat < 0x7F := by
  rcases utf8EncodeChar_cases c with
    ⟨hle, heq⟩ | ⟨hlt, -, heq⟩ | ⟨hlt, -, -, heq⟩ | ⟨hlt, -, heq⟩
  · rw [heq, List.forall_mem_singleton, Passes, Decoder.toNat_ofNat_lt (by omega)]
    omega
  -- the last byte of a longer character continues it
  all_goals
    refine ⟨fun hall => ?_, fun h => by omega⟩
    exact absurd (hall _ (heq ▸ by simp)) (not_passes_continuation c.toNat)

theorem validateTag_eq_ok {tag : String} {u : Unit} :
    validateTag tag = .ok u ↔ (bytesOf tag).length ≤ 32 ∧ ∀ b ∈ bytesOf tag, Passes b := by
  simp only [validateTag, bind_eq_ok, ensure_eq_ok, List.all_eq_true, decide_eq_true_eq,
    exists_and_left]
  refine and_congr_right fun _ => ?_
  refine (exists_const _).trans (forall₂_congr fun b _ => ?_)
  rw [Passes, UInt8.lt_iff_toNat_lt, UInt8.le_iff_toNat_le, UInt8.lt_iff_toNat_lt]
  change ¬ (b.toNat < 0x20 ∨ 0x7F ≤ b.toNat ∧ b.toNat < 0xC0) ↔ _
  omega

/-- A tag passes when it is short and of printable ASCII characters. -/
theorem validateTag_iff {tag : String} {u : Unit} :
    validateTag tag = .ok u ↔
      (bytesOf tag).length ≤ 32 ∧ ∀ c ∈ tag.toList, 0x20 ≤ c.toNat ∧ c.toNat < 0x7F := by
  rw [validateTag_eq_ok]
  refine and_congr_right fun _ => ?_
  rw [bytesOf_eq, encode, List.forall_mem_flatMap]
  exact forall₂_congr fun c _ => forall_passes_iff c

/-- A tag that passes is printable, and a printable one passes when it is of ASCII. -/
theorem validateTag_iff_printable {tag : String} :
    validateTag tag = .ok () ↔ Printable tag ∧ ∀ c ∈ tag.toList, c.toNat ≤ 0x7F := by
  rw [validateTag_iff, Printable, and_assoc, ← forall₂_and]
  refine and_congr_right fun _ => forall₂_congr fun c _ => ?_
  unfold IsControl
  omega

/-- **When tags are validated as documented.** The validation succeeds exactly on the lists of
printable tags when all characters are of ASCII or some tag is not printable. -/
theorem validate_tags_iff (tags : List String) :
    (validateTags (some tags) = .ok () ↔ ∀ tag ∈ tags, Printable tag) ↔
      (∀ tag ∈ tags, ∀ c ∈ tag.toList, c.toNat ≤ 0x7F) ∨ ∃ tag ∈ tags, ¬ Printable tag := by
  have hvalid : validateTags (some tags) = .ok () ↔
      (∀ tag ∈ tags, Printable tag) ∧ ∀ tag ∈ tags, ∀ c ∈ tag.toList, c.toNat ≤ 0x7F := by
    rw [validateTags, forM_eq_ok, ← forall₂_and]
    exact forall₂_congr fun tag _ => validateTag_iff_printable
  rw [hvalid]
  constructor
  · intro h
    by_cases hall : ∀ tag ∈ tags, Printable tag
    · exact .inl (h.mpr hall).2
    · exact .inr (by simpa using hall)
  · rintro (hascii | ⟨tag, htag, hnot⟩)
    · exact ⟨And.left, fun hall => ⟨hall, hascii⟩⟩
    · exact ⟨And.left, fun hall => absurd (hall tag htag) hnot⟩

/-- A French tag is refused. -/
theorem validate_tags_refuses_cafe :
    validateTags (some ["café"]) = .error (.error .invalidTags) ∧
      ∀ tag ∈ ["café"], Printable tag := by
  refine ⟨by decide, List.forall_mem_singleton.mpr ⟨by decide +kernel, ?_⟩⟩
  exact List.all_iff_forall_prop.mp (by decide)

end Agora.EventRegistry
