import Mathlib.Tactic.Common
import RegistryLookup.Text.Utf8

/-!
# Reading back what is written in UTF-8

* `next_utf8EncodeChar`: the bytes of a character are read as this character, whatever follows.
* `pieces_encode`: the bytes of a text are read as this text.
* `decode?_encode`, `decodeLossy_encode`: the same for the two readers of a text.
-/

namespace RegistryLookup.Text.Utf8

/-- A number below 256 is the value of its byte. -/
theorem toNat_ofNat_of_lt {n : Nat} (hn : n < 256) : (UInt8.ofNat n).toNat = n := by
  rw [UInt8.toNat_ofNat']
  exact Nat.mod_eq_of_lt hn

theorem ofNat_lt_iff {n : Nat} (hn : n < 256) : UInt8.ofNat n < 0x80 ↔ n < 128 := by
  rw [UInt8.lt_iff_toNat_lt, toNat_ofNat_of_lt hn]
  rfl

theorem leading_ofNat {n : Nat} (hn : n < 256) : leading (UInt8.ofNat n) =
    if 0xC2 ≤ n ∧ n ≤ 0xDF then some (1, 0x80, 0xBF, n - 0xC0)
    else if n = 0xE0 then some (2, 0xA0, 0xBF, 0)
    else if n = 0xED then some (2, 0x80, 0x9F, 0xD)
    else if 0xE1 ≤ n ∧ n ≤ 0xEF then some (2, 0x80, 0xBF, n - 0xE0)
    else if n = 0xF0 then some (3, 0x90, 0xBF, 0)
    else if 0xF1 ≤ n ∧ n ≤ 0xF3 then some (3, 0x80, 0xBF, n - 0xF0)
    else if n = 0xF4 then some (3, 0x80, 0x8F, 4)
    else none := by
  simp only [leading, UInt8.le_iff_toNat_le, ← UInt8.toNat_inj, toNat_ofNat_of_lt hn,
    UInt8.reduceToNat]

/-- A byte that goes on with a character adds six bits to it. -/
theorem continuation_ofNat {n acc m : Nat} {low high : UInt8} (hm : m < 64)
    (hlow : low.toNat ≤ m + 128) (hhigh : m + 128 ≤ high.toNat) (rest : List UInt8) :
    continuation (n + 1) low high acc (UInt8.ofNat (m + 128) :: rest) =
      continuation n 0x80 0xBF (acc * 64 + m) rest := by
  have hval : (UInt8.ofNat (m + 128)).toNat = m + 128 := toNat_ofNat_of_lt (by omega)
  have hin : low ≤ UInt8.ofNat (m + 128) ∧ UInt8.ofNat (m + 128) ≤ high := by
    rw [UInt8.le_iff_toNat_le, UInt8.le_iff_toNat_le, hval]
    exact ⟨hlow, hhigh⟩
  rw [continuation, if_pos hin, hval, Nat.add_sub_cancel]

/-- A leading byte that some bytes go on with. -/
theorem next_of_leading {n k bits : Nat} {low high : UInt8} (hn : 128 ≤ n) (hn' : n < 256)
    (hleading : leading (UInt8.ofNat n) = some (k, low, high, bits)) (rest : List UInt8) :
    next (UInt8.ofNat n) rest = ((continuation k low high bits rest).1.map Char.ofNat,
      (continuation k low high bits rest).2) := by
  have hge : ¬ UInt8.ofNat n < 0x80 := by
    rw [ofNat_lt_iff hn']
    omega
  unfold next
  rw [if_neg hge, hleading]

/-- **The bytes of a character are read as this character.** -/
theorem next_utf8EncodeChar (c : Char) (rest : List UInt8) :
    ∃ b bs, String.utf8EncodeChar c = b :: bs ∧ next b (bs ++ rest) = (some c, rest) := by
  have hread : ∀ v, v = c.toNat → some (Char.ofNat v) = some c := by
    rintro v rfl
    rw [Char.ofNat_toNat]
  have hvalid : c.toNat < 0xD800 ∨ 0xDFFF < c.toNat ∧ c.toNat < 0x110000 := c.valid
  have hv : c.val.toNat = c.toNat := rfl
  unfold String.utf8EncodeChar
  simp only [hv]
  generalize hw : c.toNat = v at hread hvalid
  -- as many bytes as the character has
  split_ifs with h1 h2 h3
  · refine ⟨_, _, rfl, ?_⟩
    rw [next, if_pos ((ofNat_lt_iff (by omega)).2 (by omega)), toNat_ofNat_of_lt (by omega),
      hread v rfl]
    rfl
  · refine ⟨_, _, rfl, ?_⟩
    have hleading : leading (UInt8.ofNat (v / 64 % 32 + 192)) =
        some (1, 0x80, 0xBF, v / 64 % 32) := by
      rw [leading_ofNat (by omega), if_pos (by omega), Nat.add_sub_cancel]
    rw [next_of_leading (by omega) (by omega) hleading, List.cons_append, List.nil_append,
      continuation_ofNat (by omega) (by simp) (by simp; omega), continuation, Option.map_some,
      hread _ (by omega)]
  · refine ⟨_, _, rfl, ?_⟩
    obtain ⟨low, high, hleading, hlow, hhigh⟩ : ∃ low high,
        leading (UInt8.ofNat (v / 4096 % 16 + 224)) = some (2, low, high, v / 4096 % 16) ∧
          low.toNat ≤ v / 64 % 64 + 128 ∧ v / 64 % 64 + 128 ≤ high.toNat := by
      rw [leading_ofNat (by omega), if_neg (by omega)]
      split_ifs with ha hb hc
      · exact ⟨_, _, by rw [show v / 4096 % 16 = 0 by omega], by simp; omega, by simp; omega⟩
      · exact ⟨_, _, by rw [show v / 4096 % 16 = 13 by omega], by simp, by simp; omega⟩
      · exact ⟨_, _, by rw [Nat.add_sub_cancel], by simp, by simp; omega⟩
      all_goals omega
    rw [next_of_leading (by omega) (by omega) hleading, List.cons_append, List.cons_append,
      List.nil_append, continuation_ofNat (by omega) hlow hhigh,
      continuation_ofNat (by omega) (by simp) (by simp; omega), continuation, Option.map_some,
      hread _ (by omega)]
  · refine ⟨_, _, rfl, ?_⟩
    obtain ⟨low, high, hleading, hlow, hhigh⟩ : ∃ low high,
        leading (UInt8.ofNat (v / 262144 % 8 + 240)) = some (3, low, high, v / 262144 % 8) ∧
          low.toNat ≤ v / 4096 % 64 + 128 ∧ v / 4096 % 64 + 128 ≤ high.toNat := by
      rw [leading_ofNat (by omega), if_neg (by omega), if_neg (by omega), if_neg (by omega),
        if_neg (by omega)]
      split_ifs with ha hb hc
      · exact ⟨_, _, by rw [show v / 262144 % 8 = 0 by omega], by simp; omega, by simp; omega⟩
      · exact ⟨_, _, by rw [Nat.add_sub_cancel], by simp, by simp; omega⟩
      · exact ⟨_, _, by rw [show v / 262144 % 8 = 4 by omega], by simp, by simp; omega⟩
      all_goals omega
    rw [next_of_leading (by omega) (by omega) hleading, List.cons_append, List.cons_append,
      List.cons_append, List.nil_append, continuation_ofNat (by omega) hlow hhigh,
      continuation_ofNat (by omega) (by simp) (by simp; omega),
      continuation_ofNat (by omega) (by simp) (by simp; omega), continuation, Option.map_some,
      hread _ (by omega)]

theorem pieces_nil : pieces [] = [] := by rw [pieces]

/-- The bytes of a character are one piece. -/
theorem pieces_utf8EncodeChar_append (c : Char) (rest : List UInt8) :
    pieces (String.utf8EncodeChar c ++ rest) = some c :: pieces rest := by
  obtain ⟨b, bs, hbytes, hnext⟩ := next_utf8EncodeChar c rest
  rw [hbytes, List.cons_append, pieces, hnext]

/-- **The bytes of a text are read as this text.** -/
theorem pieces_encode (cs : List Char) : pieces (encode cs) = cs.map some := by
  unfold encode
  induction cs with
  | nil => exact pieces_nil
  | cons c cs ih => rw [List.flatMap_cons, pieces_utf8EncodeChar_append, ih, List.map_cons]

theorem allSome_map_some (cs : List Char) : allSome (cs.map some) = some cs := by
  induction cs with
  | nil => rfl
  | cons c cs ih => rw [List.map_cons, allSome, ih, Option.map_some]

theorem decode?_encode (cs : List Char) : decode? (encode cs) = some (String.ofList cs) := by
  rw [decode?, pieces_encode, allSome_map_some, Option.map_some]

theorem decodeLossy_encode (cs : List Char) : decodeLossy (encode cs) = String.ofList cs := by
  rw [decodeLossy, pieces_encode, List.map_map]
  exact congrArg String.ofList (List.map_id _)

end RegistryLookup.Text.Utf8
