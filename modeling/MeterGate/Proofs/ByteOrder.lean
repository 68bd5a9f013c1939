import Mathlib.Data.UInt
import Mathlib.Data.String.Basic

set_option autoImplicit false

/-! # The order of texts by bytes

Texts are compared character by character. The encoding of a text in bytes is made so that comparing
it byte by byte gives the same order (`utf8_lt_utf8`): of two characters the lower one has the lower
code at the first byte in which they differ, and no code is the beginning of another. -/

namespace MeterGate

/-- The bytes of a text. -/
def utf8 (s : String) : List UInt8 := s.toUTF8.data.toList

theorem utf8_eq_flatMap (s : String) : utf8 s = s.toList.flatMap String.utf8EncodeChar := by
  unfold utf8
  rw [String.toUTF8_eq_toByteArray, ← String.utf8Encode_toList, List.utf8Encode,
    List.toList_data_toByteArray]

/-- The first difference of two lists of bytes is a lower byte in the first one. -/
inductive BytesBelow : List UInt8 → List UInt8 → Prop where
  | here {x y : UInt8} (xs ys : List UInt8) (h : x < y) : BytesBelow (x :: xs) (y :: ys)
  | later (x : UInt8) {xs ys : List UInt8} (h : BytesBelow xs ys) : BytesBelow (x :: xs) (x :: ys)

namespace BytesBelow

/-- What comes after the first difference does not matter. -/
theorem append_lt {xs ys : List UInt8} (h : BytesBelow xs ys) (us vs : List UInt8) :
    xs ++ us < ys ++ vs := by
  induction h with
  | here xs ys h => exact List.cons_lt_cons_iff.2 (.inl h)
  | later x h ih => exact List.cons_lt_cons_iff.2 (.inr ⟨rfl, ih⟩)

/-- A byte that is lower, or equal with a difference to come. -/
theorem cons_ofNat {m n : Nat} {xs ys : List UInt8} (hn : n < 256) (le : m ≤ n)
    (h : m = n → BytesBelow xs ys) : BytesBelow (.ofNat m :: xs) (.ofNat n :: ys) := by
  rcases Nat.lt_or_eq_of_le le with hlt | rfl
  · apply here
    rw [UInt8.lt_iff_toNat_lt, UInt8.toNat_ofNat', UInt8.toNat_ofNat']
    omega
  · exact later _ (h rfl)

end BytesBelow

/-- The codes of two characters differ first in a byte that is lower for the lower character. -/
theorem bytesBelow_utf8EncodeChar {c d : Char} (h : c < d) :
    BytesBelow (String.utf8EncodeChar c) (String.utf8EncodeChar d) := by
  have hcd : c.val.toNat < d.val.toNat := h
  have hd : d.val.toNat < 1114112 := by
    have := d.valid
    simp only [UInt32.isValidChar, Nat.isValidChar] at this
    omega
  unfold String.utf8EncodeChar
  generalize c.val.toNat = m at hcd
  generalize d.val.toNat = n at hcd hd
  dsimp only
  -- A longer code has a higher first byte. In codes of one length the bytes are digits of the
  -- character, the leading ones first.
  split_ifs <;> first
    | omega
    | repeat refine .cons_ofNat (by omega) (by omega) fun _ => ?_
      omega

/-! ## Whole texts -/

theorem flatMap_utf8EncodeChar_lt {cs ds : List Char} (h : cs < ds) :
    cs.flatMap String.utf8EncodeChar < ds.flatMap String.utf8EncodeChar := by
  induction cs generalizing ds with
  | nil =>
      cases ds with
      | nil => exact absurd h (List.not_lt_nil _)
      | cons d ds =>
          rw [List.flatMap_nil, List.flatMap_cons]
          obtain ⟨b, bs, hb⟩ := List.exists_cons_of_ne_nil (String.utf8EncodeChar_ne_nil (c := d))
          rw [hb]
          exact List.nil_lt_cons _ _
  | cons c cs ih =>
      cases ds with
      | nil => exact absurd h (List.not_lt_nil _)
      | cons d ds =>
          rw [List.flatMap_cons, List.flatMap_cons]
          rcases List.cons_lt_cons_iff.1 h with hlt | ⟨rfl, hrest⟩
          · exact (bytesBelow_utf8EncodeChar hlt).append_lt _ _
          · exact List.append_left_lt (ih hrest)

/-- The lower of two texts has the lower bytes. -/
theorem utf8_lt_utf8 {a b : String} (h : a < b) : utf8 a < utf8 b := by
  rw [utf8_eq_flatMap, utf8_eq_flatMap]
  exact flatMap_utf8EncodeChar_lt h

end MeterGate
