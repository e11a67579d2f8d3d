import Mathlib.Data.String.Basic
import Contracts.Keyed

/-! # The Order of Texts and of Their Bytes

  Names are compared by code points, and so are the keys of a table. Stored names are compared by
  their UTF-8 bytes, as unsigned numbers. It is the same order (`lt_iff_bytes_lt`).

  A character is a leading byte, which also says how many bytes follow, and then its code in groups
  of six bits. Of two characters the one with the larger code has the larger leading byte, or they
  agree in it and in the number of bytes, and the groups decide (`bytes_append_lt`). The decision
  falls within both characters, so what comes after them does not matter.
-/

namespace Contracts

namespace Text

/-- The UTF-8 bytes of a text. -/
def bytes (s : String) : List UInt8 :=
  s.toUTF8.data.toList

/-- The number of bytes that follow the leading byte of a character with code `v`. -/
def followers (v : Nat) : Nat :=
  if v ≤ 127 then 0 else if v ≤ 2047 then 1 else if v ≤ 65535 then 2 else 3

/-- The leading byte of a character with code `v`. -/
def leading (v : Nat) : Nat :=
  if v ≤ 127 then v
  else if v ≤ 2047 then v / 64 % 32 + 192
  else if v ≤ 65535 then v / 4096 % 16 + 224
  else v / 262144 % 8 + 240

/-- The last `n` groups of six bits of `v`, as bytes. -/
def groups (v : Nat) : Nat → List UInt8
  | 0 => []
  | n + 1 => UInt8.ofNat (v / 64 ^ n % 64 + 128) :: groups v n

theorem utf8EncodeChar_eq (c : Char) :
    String.utf8EncodeChar c =
      UInt8.ofNat (leading c.toNat) :: groups c.toNat (followers c.toNat) := by
  show String.utf8EncodeChar c =
    UInt8.ofNat (leading c.val.toNat) :: groups c.val.toNat (followers c.val.toNat)
  unfold String.utf8EncodeChar leading followers
  generalize c.val.toNat = v
  by_cases h₁ : v ≤ 127
  · simp [h₁, groups]
  by_cases h₂ : v ≤ 2047
  · simp [h₁, h₂, groups]
  by_cases h₃ : v ≤ 65535
  · simp [h₁, h₂, h₃, groups]
  · simp [h₁, h₂, h₃, groups]

/-- The bytes of a text are those of its characters. -/
theorem bytes_eq_flatMap (s : String) : bytes s = s.toList.flatMap String.utf8EncodeChar := by
  unfold bytes
  rw [String.toUTF8_eq_toByteArray, ← String.utf8Encode_toList]
  unfold List.utf8Encode
  rw [List.data_toByteArray]

/-! ### Two Characters -/

theorem ofNat_lt_ofNat {m n : Nat} (h : m < n) (hn : n < 256) : UInt8.ofNat m < UInt8.ofNat n :=
  (UInt8.ofNat_lt_iff_lt (Nat.lt_trans h hn) hn).2 h

/-- Groups are in the order of the numbers that they stand for, whatever comes after them. -/
theorem groups_append_lt {v w n : Nat} (h : v % 64 ^ n < w % 64 ^ n) (l m : List UInt8) :
    groups v n ++ l < groups w n ++ m := by
  induction n with
  | zero =>
    rw [pow_zero, Nat.mod_one, Nat.mod_one] at h
    exact absurd h (Nat.lt_irrefl 0)
  | succ n ih =>
    rw [Nat.mod_pow_succ, Nat.mod_pow_succ] at h
    rw [groups, groups, List.cons_append, List.cons_append, List.cons_lt_cons_iff]
    by_cases heq : v / 64 ^ n % 64 = w / 64 ^ n % 64
    · -- the first groups agree, so the others decide
      rw [heq] at h ⊢
      exact .inr ⟨rfl, ih (Nat.lt_of_add_lt_add_right h)⟩
    · refine .inl (ofNat_lt_ofNat ?_ ?_)
      · by_contra hge
        -- a larger first group outweighs all the others
        have hlt : w / 64 ^ n % 64 + 1 ≤ v / 64 ^ n % 64 := by omega
        have hmul := Nat.mul_le_mul_left (64 ^ n) hlt
        have hrest := Nat.mod_lt w (Nat.pow_pos (n := n) (show 0 < 64 by decide))
        rw [Nat.mul_add, Nat.mul_one] at hmul
        omega
      · have hgroup := Nat.mod_lt (w / 64 ^ n) (show 0 < 64 by decide)
        omega

/-- Of two codes the larger one has the larger leading byte, or both have the same one and as many
bytes after it, and the groups in these differ as the codes do. -/
theorem leading_lt_or {v w : Nat} (h : v < w) (hw : w < 1114112) :
    leading v < leading w ∨
      leading v = leading w ∧ followers v = followers w ∧
        v % 64 ^ followers w < w % 64 ^ followers w := by
  unfold leading followers
  split_ifs <;> omega

theorem leading_lt {v : Nat} (h : v < 1114112) : leading v < 256 := by
  unfold leading
  split_ifs <;> omega

/-- Of two characters the one with the larger code has the larger bytes, whatever comes after. -/
theorem bytes_append_lt {c d : Char} (h : c < d) (l m : List UInt8) :
    String.utf8EncodeChar c ++ l < String.utf8EncodeChar d ++ m := by
  have hd : d.toNat < 1114112 := by
    rcases d.valid with hlow | hhigh
    · exact Nat.lt_trans hlow (by decide)
    · exact hhigh.2
  have hlt : c.toNat < d.toNat := h
  rw [utf8EncodeChar_eq, utf8EncodeChar_eq, List.cons_append, List.cons_append,
    List.cons_lt_cons_iff]
  rcases leading_lt_or hlt hd with hlead | ⟨hlead, hfollowers, hgroups⟩
  · exact .inl (ofNat_lt_ofNat hlead (leading_lt hd))
  · rw [hlead, hfollowers]
    exact .inr ⟨rfl, groups_append_lt hgroups l m⟩

/-! ### Two Texts -/

/-- Characters in order have their bytes in order. -/
theorem flatMap_lt {l m : List Char} (h : l < m) :
    l.flatMap String.utf8EncodeChar < m.flatMap String.utf8EncodeChar := by
  induction l generalizing m with
  | nil =>
    cases m with
    | nil => exact absurd h (List.lt_irrefl [])
    | cons d m =>
      rw [List.flatMap_nil, List.flatMap_cons, utf8EncodeChar_eq, List.cons_append]
      exact List.nil_lt_cons _ _
  | cons c l ih =>
    cases m with
    | nil => exact absurd h (List.not_lt_nil _)
    | cons d m =>
      rw [List.flatMap_cons, List.flatMap_cons]
      rcases List.cons_lt_cons_iff.1 h with hlt | ⟨heq, hrest⟩
      · exact bytes_append_lt hlt _ _
      · rw [heq]
        exact List.append_left_lt (ih hrest)

/-- **Texts and their bytes have the same order.** One text comes before another one exactly if its
UTF-8 bytes do. -/
theorem lt_iff_bytes_lt {s t : String} : s < t ↔ bytes s < bytes t := by
  have hbytes : ∀ {s t : String}, s < t → bytes s < bytes t := by
    intro s t h
    rw [bytes_eq_flatMap, bytes_eq_flatMap]
    exact flatMap_lt (String.lt_iff_toList_lt.1 h)
  constructor
  · exact hbytes
  · intro h
    -- otherwise the texts are equal or the other way round, and so are the bytes
    by_contra hnot
    by_cases heq : s = t
    · rw [heq] at h
      exact List.lt_irrefl _ h
    · have hgt : t < s := Std.lt_of_le_of_ne (String.not_lt.1 hnot) (Ne.symm heq)
      exact List.lt_asymm h (hbytes hgt)

end Text

end Contracts
