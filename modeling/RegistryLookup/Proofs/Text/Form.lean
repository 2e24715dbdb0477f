import Mathlib.Data.List.TakeWhile
import RegistryLookup.Proofs.Text.Percent
import RegistryLookup.Text.Form

/-!
# Reading back what is form-encoded

A text in form encoding has none of the characters that divide a query, and the reader of a query
gives it back. A reader of paths gives it back too, but for its spaces, which it takes for plus
signs.

* `isFormChar_of_mem_encode`: what characters form encoding is made of.
* `decode_encode`: the reader of a query undoes form encoding.
* `decodeBytes_encode`: what a reader of paths makes of it.
* `pairs_append_cons`, `pairs_of_part`: the pairs of a query, part by part.
* `pairs_encode`: a query may be percent-encoded as a whole without a change to its pairs.
-/

namespace RegistryLookup.Text.Form

open Percent (decodeBytes Spares)

/-- The characters that form encoding is made of. -/
def isFormChar (c : Char) : Bool :=
  c.isAlphanum || c = '*' || c = '-' || c = '.' || c = '_' || c = '+' || c = '%'

/-- What is true of the bytes of all numbers below 256 is true of every byte. -/
theorem forall_byte {P : UInt8 → Prop} (h : ∀ n < 256, P (UInt8.ofNat n)) (b : UInt8) : P b := by
  have hb := h b.toNat b.toNat_lt
  rwa [UInt8.ofNat_toNat] at hb

/-- How a byte is written. -/
inductive Written (b : UInt8) : List Char → Prop
  | plain {c : Char} (hc : c.toNat = b.toNat) (hascii : c.toNat ≤ 127)
      (hform : isFormChar c = true) (hplus : c ≠ '+') (hpercent : c ≠ '%') : Written b [c]
  | space (hb : b = 32) : Written b ['+']
  | escaped (hplain : isPlain b = false) (hb : b ≠ 32) : Written b (Percent.encodeByte b)

theorem written_encodeByte (b : UInt8) : Written b (encodeByte b) := by
  have hplain : ∀ b, isPlain b = true → (Char.ofNat b.toNat).toNat = b.toNat ∧
      (Char.ofNat b.toNat).toNat ≤ 127 ∧ isFormChar (Char.ofNat b.toNat) = true ∧
      Char.ofNat b.toNat ≠ '+' ∧ Char.ofNat b.toNat ≠ '%' :=
    forall_byte (by decide +kernel)
  unfold encodeByte
  by_cases hb : isPlain b = true
  · obtain ⟨hc, hascii, hform, hplus, hpercent⟩ := hplain b hb
    rw [if_pos hb]
    exact .plain hc hascii hform hplus hpercent
  · rw [if_neg hb]
    split
    · rename_i hspace
      exact .space hspace
    · rename_i hspace
      exact .escaped (by simpa using hb) hspace

theorem isFormChar_hexDigit {n : Nat} (hn : n < 16) : isFormChar (Percent.hexDigit n) = true := by
  have hall : ∀ n < 16, isFormChar (Percent.hexDigit n) = true := by decide
  exact hall n hn

/-- The characters of an escaped byte. -/
theorem mem_percent_encodeByte {b : UInt8} {c : Char} (h : c ∈ Percent.encodeByte b) :
    c = '%' ∨ ∃ n < 16, c = Percent.hexDigit n := by
  have hb : b.toNat < 256 := b.toNat_lt
  simp only [Percent.encodeByte, List.mem_cons, List.not_mem_nil, or_false] at h
  rcases h with rfl | rfl | rfl
  · exact Or.inl rfl
  · exact Or.inr ⟨_, by omega, rfl⟩
  · exact Or.inr ⟨_, by omega, rfl⟩

theorem Written.isFormChar {b : UInt8} {cs : List Char} (h : Written b cs) :
    ∀ c ∈ cs, isFormChar c = true := by
  intro c hc
  cases h with
  | plain _ _ hform _ _ => rw [List.mem_singleton.1 hc]; exact hform
  | space _ => rw [List.mem_singleton.1 hc]; decide
  | escaped _ _ =>
    rcases mem_percent_encodeByte hc with rfl | ⟨n, hn, rfl⟩
    · decide
    · exact isFormChar_hexDigit hn

/-- **What characters form encoding is made of.** -/
theorem isFormChar_of_mem_encode {cs : List Char} {c : Char} (h : c ∈ encode cs) :
    isFormChar c = true := by
  obtain ⟨b, -, hc⟩ := List.mem_flatMap.1 h
  exact (written_encodeByte b).isFormChar c hc

theorem ne_of_isFormChar {c d : Char} (hc : isFormChar c = true) (hd : isFormChar d = false) :
    c ≠ d := by
  rintro rfl
  rw [hc] at hd
  cases hd

/-- The characters of form encoding are characters of ASCII that can be seen. -/
theorem bounds_of_isFormChar {c : Char} (h : isFormChar c = true) :
    32 < c.toNat ∧ c.toNat < 127 := by
  delta isFormChar Char.isAlphanum Char.isAlpha Char.isUpper Char.isLower Char.isDigit at h
  simp only [Bool.or_eq_true, Bool.and_eq_true, decide_eq_true_eq, ge_iff_le,
    UInt32.le_iff_toNat_le] at h
  have hc : c.val.toNat = c.toNat := rfl
  have hupper : 'A'.val.toNat = 65 ∧ 'Z'.val.toNat = 90 := ⟨rfl, rfl⟩
  have hlower : 'a'.val.toNat = 97 ∧ 'z'.val.toNat = 122 := ⟨rfl, rfl⟩
  have hdigit : '0'.val.toNat = 48 ∧ '9'.val.toNat = 57 := ⟨rfl, rfl⟩
  rcases h with ((((((((h | h) | h) | rfl) | rfl) | rfl) | rfl) | rfl) | rfl)
  · omega
  · omega
  · omega
  all_goals decide

/-- What the reader of a query makes of a character. -/
def unplus (c : Char) : Char := if c = '+' then ' ' else c

theorem decode_eq (cs : List Char) :
    decode cs = Utf8.decodeLossy (decodeBytes (cs.map unplus)) := rfl

theorem unplus_of_ne {c : Char} (h : c ≠ '+') : unplus c = c := if_neg h

theorem map_unplus_encodeByte (b : UInt8) :
    (Percent.encodeByte b).map unplus = Percent.encodeByte b := by
  have hne : ∀ n < 16, Percent.hexDigit n ≠ '+' := by decide
  refine (List.map_congr_left fun c hc => unplus_of_ne ?_).trans (List.map_id _)
  rcases mem_percent_encodeByte hc with rfl | ⟨n, hn, rfl⟩
  · decide
  · exact hne n hn

/-- A byte is read back by the reader of a query. -/
theorem Written.decodeBytes_unplus {b : UInt8} {cs : List Char} (h : Written b cs)
    (rest : List Char) : decodeBytes (cs.map unplus ++ rest) = b :: decodeBytes rest := by
  cases h with
  | plain hc hascii _ hplus hpercent =>
    rw [List.map_singleton, unplus_of_ne hplus, List.singleton_append,
      Percent.decodeBytes_cons hpercent, Percent.utf8EncodeChar_of_le hascii, hc,
      UInt8.ofNat_toNat, List.singleton_append]
  | space hb =>
    subst hb
    rw [List.map_singleton, List.singleton_append, Percent.decodeBytes_cons (by decide)]
    rfl
  | escaped _ _ => rw [map_unplus_encodeByte, Percent.decodeBytes_encodeByte_append]

/-- A byte is read back by a reader of paths, but for a space. -/
theorem Written.decodeBytes {b : UInt8} {cs : List Char} (h : Written b cs) (rest : List Char) :
    decodeBytes (cs ++ rest) = (if b = 32 then 43 else b) :: decodeBytes rest := by
  cases h with
  | plain hc hascii hform _ hpercent =>
    have hb : b ≠ 32 := by
      rintro rfl
      have hbounds := bounds_of_isFormChar hform
      rw [hc] at hbounds
      exact absurd hbounds.1 (by decide)
    rw [if_neg hb, List.singleton_append, Percent.decodeBytes_cons hpercent,
      Percent.utf8EncodeChar_of_le hascii, hc, UInt8.ofNat_toNat, List.singleton_append]
  | space hb =>
    rw [if_pos hb, List.singleton_append, Percent.decodeBytes_cons (by decide)]
    rfl
  | escaped _ hb => rw [if_neg hb, Percent.decodeBytes_encodeByte_append]

/-- **The reader of a query undoes form encoding.** -/
theorem decode_encode (cs : List Char) : decode (encode cs) = String.ofList cs := by
  have hbytes : ∀ bs : List UInt8, decodeBytes ((bs.flatMap encodeByte).map unplus) = bs := by
    intro bs
    induction bs with
    | nil => exact Percent.decodeBytes_nil
    | cons b bs ih =>
      rw [List.flatMap_cons, List.map_append, (written_encodeByte b).decodeBytes_unplus, ih]
  rw [decode_eq, encode, hbytes, Utf8.decodeLossy_encode]

/-- A text without plus and percent signs stands for itself. -/
theorem decode_of_plain {cs : List Char} (h : ∀ c ∈ cs, c ≠ '+' ∧ c ≠ '%') :
    decode cs = String.ofList cs := by
  have hmap : cs.map unplus = cs :=
    (List.map_congr_left fun c hc => unplus_of_ne (h c hc).1).trans (List.map_id _)
  have hbytes : decodeBytes cs = Utf8.encode cs := by
    clear hmap
    induction cs with
    | nil => exact Percent.decodeBytes_nil
    | cons c cs ih =>
      rw [Percent.decodeBytes_cons (h c List.mem_cons_self).2,
        ih fun d hd => h d (List.mem_cons_of_mem c hd), Utf8.encode, Utf8.encode,
        List.flatMap_cons]
  rw [decode_eq, hmap, hbytes, Utf8.decodeLossy_encode]

/-- A text with plus signs in the places of its spaces. -/
def spacesAsPlus (cs : List Char) : List Char := cs.map (fun c => if c = ' ' then '+' else c)

/-- Only a space has the byte of a space. -/
theorem eq_space_of_mem {c : Char} (h : (32 : UInt8) ∈ String.utf8EncodeChar c) : c = ' ' := by
  have hvalue : ∀ n < 256, (32 : UInt8) = UInt8.ofNat n → n = 32 := by decide +kernel
  by_cases hascii : c.toNat ≤ 127
  · rw [Percent.utf8EncodeChar_of_le hascii, List.mem_singleton] at h
    exact Char.toNat_inj.1 (hvalue _ (by omega) h)
  · -- the bytes of other characters are beyond ASCII
    have hbeyond : ∀ n, 32 < n → n < 256 → (32 : UInt8) ≠ UInt8.ofNat n := by
      intro n hn hn' heq
      rw [hvalue n hn' heq] at hn
      exact absurd hn (by decide)
    have hc : c.val.toNat = c.toNat := rfl
    unfold String.utf8EncodeChar at h
    simp only [hc, if_neg hascii] at h
    exfalso
    split_ifs at h with h2 h3
    · simp only [List.mem_cons, List.not_mem_nil, or_false] at h
      rcases h with h | h <;> exact hbeyond _ (by omega) (by omega) h
    · simp only [List.mem_cons, List.not_mem_nil, or_false] at h
      rcases h with h | h | h <;> exact hbeyond _ (by omega) (by omega) h
    · simp only [List.mem_cons, List.not_mem_nil, or_false] at h
      rcases h with h | h | h | h <;> exact hbeyond _ (by omega) (by omega) h

/-- **A reader of paths takes the spaces of a form-encoded text for plus signs.** -/
theorem decodeBytes_encode (cs : List Char) :
    decodeBytes (encode cs) = Utf8.encode (spacesAsPlus cs) := by
  have hbytes : ∀ bs : List UInt8, decodeBytes (bs.flatMap encodeByte) =
      bs.map (fun b => if b = 32 then 43 else b) := by
    intro bs
    induction bs with
    | nil => exact Percent.decodeBytes_nil
    | cons b bs ih =>
      rw [List.flatMap_cons, (written_encodeByte b).decodeBytes, ih, List.map_cons]
  have hchar : ∀ c : Char, (String.utf8EncodeChar c).map (fun b => if b = 32 then 43 else b) =
      String.utf8EncodeChar (if c = ' ' then '+' else c) := by
    intro c
    by_cases hc : c = ' '
    · subst hc
      decide
    · rw [if_neg hc]
      refine (List.map_congr_left fun b hb => if_neg ?_).trans (List.map_id _)
      rintro rfl
      exact hc (eq_space_of_mem hb)
  rw [encode, hbytes, Utf8.encode, Utf8.encode, List.map_flatMap, spacesAsPlus, List.flatMap_map]
  exact congrArg (List.flatMap · cs) (funext hchar)

/-- What stands before a text and has no separator belongs to its first part. -/
theorem splitOn_append_of_not_mem {sep : Char} {xs : List Char} (hxs : sep ∉ xs) (ys : List Char) :
    (xs ++ ys).splitOn sep = (ys.splitOn sep).modifyHead (xs ++ ·) := by
  induction xs with
  | nil => exact (congrFun List.modifyHead_id (ys.splitOn sep)).symm
  | cons c xs ih =>
    rw [List.mem_cons, not_or] at hxs
    rw [List.cons_append, List.splitOn_cons_eq_if_modifyHead, ih hxs.2,
      if_neg (by rw [beq_iff_eq]; exact Ne.symm hxs.1), List.modifyHead_modifyHead]
    rfl

/-- The pair of a part. -/
def pairOf (part : List Char) : String × String :=
  (decode (part.takeWhile (· != '=')), decode ((part.dropWhile (· != '=')).drop 1))

theorem pairs_eq (query : List Char) : pairs query =
    ((query.splitOn '&').filter (fun part => !part.isEmpty)).map pairOf := rfl

/-- The pairs of a query that is divided by a separator. -/
theorem pairs_append_cons (xs ys : List Char) : pairs (xs ++ '&' :: ys) = pairs xs ++ pairs ys := by
  rw [pairs_eq, List.splitOn_append_cons_self, List.filter_append, List.map_append]
  rfl

theorem pairs_of_part {xs : List Char} (hxs : '&' ∉ xs) (hne : xs ≠ []) :
    pairs xs = [pairOf xs] := by
  rw [pairs_eq, List.splitOn_eq_singleton hxs]
  simp [hne]

theorem pairOf_append_cons {xs : List Char} (hxs : '=' ∉ xs) (ys : List Char) :
    pairOf (xs ++ '=' :: ys) = (decode xs, decode ys) := by
  have hall : ∀ c ∈ xs, (c != '=') = true := by
    intro c hc
    rw [bne_iff_ne]
    rintro rfl
    exact hxs hc
  rw [pairOf, List.takeWhile_append_of_pos hall, List.dropWhile_append_of_pos hall]
  simp

/-- A character that encoding keeps and never makes. -/
structure Kept (set : Char → Bool) (d : Char) : Prop where
  own : Percent.encodeChar set d = [d]
  foreign (c : Char) (h : c ≠ d) : d ∉ Percent.encodeChar set c

theorem kept_of {set : Char → Bool} {d : Char} (hascii : d.toNat ≤ 127) (hset : set d = false)
    (hpercent : d ≠ '%') (hhex : Percent.hexValue? d = none) : Kept set d := by
  refine ⟨?_, fun c hc hd => ?_⟩
  · unfold Percent.encodeChar
    rw [hset, if_neg (by simpa using hascii)]
  · unfold Percent.encodeChar at hd
    split at hd
    · obtain ⟨b, -, hb⟩ := List.mem_flatMap.1 hd
      rcases mem_percent_encodeByte hb with h | ⟨n, hn, h⟩
      · exact hpercent h
      · rw [h, Percent.hexValue?_hexDigit hn] at hhex
        cases hhex
    · exact hc (List.mem_singleton.1 hd).symm

section Kept

variable {set : Char → Bool} {d : Char}

theorem encode_cons (set : Char → Bool) (c : Char) (cs : List Char) :
    Percent.encode set (c :: cs) = Percent.encodeChar set c ++ Percent.encode set cs :=
  List.flatMap_cons

theorem encodeChar_ne_nil (set : Char → Bool) (c : Char) : Percent.encodeChar set c ≠ [] := by
  unfold Percent.encodeChar
  split
  · obtain ⟨b, bs, hbytes, -⟩ := Utf8.next_utf8EncodeChar c []
    rw [hbytes]
    exact List.cons_ne_nil _ _
  · exact List.cons_ne_nil _ _

theorem isEmpty_encode (set : Char → Bool) (cs : List Char) :
    (Percent.encode set cs).isEmpty = cs.isEmpty := by
  cases cs with
  | nil => rfl
  | cons c cs => simp [encode_cons, encodeChar_ne_nil]

/-- Encoding goes part by part. -/
theorem Kept.splitOn_encode (h : Kept set d) (cs : List Char) :
    (Percent.encode set cs).splitOn d = (cs.splitOn d).map (Percent.encode set) := by
  induction cs with
  | nil => rfl
  | cons c cs ih =>
    rw [encode_cons, List.splitOn_cons_eq_if_modifyHead]
    by_cases hc : c = d
    · subst hc
      rw [h.own, List.singleton_append, List.splitOn_cons_eq_if_modifyHead, ih, beq_self_eq_true,
        if_pos rfl, if_pos rfl]
      rfl
    · rw [splitOn_append_of_not_mem (h.foreign c hc), ih, if_neg (by rwa [beq_iff_eq])]
      obtain ⟨part, parts, hsplit⟩ := List.exists_cons_of_ne_nil (List.splitOn_ne_nil d cs)
      rw [hsplit, List.modifyHead_cons, List.map_cons, List.map_cons, List.modifyHead_cons,
        encode_cons]

theorem Kept.all_ne (h : Kept set d) {c : Char} (hc : c ≠ d) :
    ∀ x ∈ Percent.encodeChar set c, (x != d) = true := by
  intro x hx
  rw [bne_iff_ne]
  rintro rfl
  exact h.foreign c hc hx

theorem Kept.takeWhile_encode (h : Kept set d) (cs : List Char) :
    (Percent.encode set cs).takeWhile (· != d) = Percent.encode set (cs.takeWhile (· != d)) := by
  induction cs with
  | nil => rfl
  | cons c cs ih =>
    by_cases hc : c = d
    · subst hc
      rw [encode_cons, h.own]
      simp [Percent.encode]
    · rw [encode_cons, List.takeWhile_append_of_pos (h.all_ne hc), ih, ← encode_cons,
        List.takeWhile_cons_of_pos (by simpa using hc)]

theorem Kept.dropWhile_encode (h : Kept set d) (cs : List Char) :
    ((Percent.encode set cs).dropWhile (· != d)).drop 1 =
      Percent.encode set ((cs.dropWhile (· != d)).drop 1) := by
  induction cs with
  | nil => rfl
  | cons c cs ih =>
    by_cases hc : c = d
    · subst hc
      rw [encode_cons, h.own]
      simp
    · rw [encode_cons, List.dropWhile_append_of_pos (h.all_ne hc), ih,
        List.dropWhile_cons_of_pos (by simpa using hc)]

end Kept

theorem decode_encode_of_spares {set : Char → Bool} (h : Spares set unplus) (cs : List Char) :
    decode (Percent.encode set cs) = decode cs := by
  rw [decode_eq, decode_eq, h.decodeBytes_map_encode]

/-- **A query may be percent-encoded as a whole without a change to its pairs.** -/
theorem pairs_encode {set : Char → Bool} (h : Spares set unplus) (hamp : set '&' = false)
    (hequals : set '=' = false) (cs : List Char) :
    pairs (Percent.encode set cs) = pairs cs := by
  have hdivides : Kept set '&' := kept_of (by decide) hamp (by decide) (by decide)
  have hassigns : Kept set '=' := kept_of (by decide) hequals (by decide) (by decide)
  have hempty : ((fun part : List Char => !part.isEmpty) ∘ Percent.encode set) =
      fun part => !part.isEmpty := funext fun part => congrArg not (isEmpty_encode set part)
  have hpair : pairOf ∘ Percent.encode set = pairOf := by
    funext part
    rw [Function.comp_apply, pairOf, hassigns.takeWhile_encode, hassigns.dropWhile_encode,
      decode_encode_of_spares h, decode_encode_of_spares h]
    rfl
  rw [pairs_eq, hdivides.splitOn_encode, List.filter_map, hempty, List.map_map, hpair]
  rfl

end RegistryLookup.Text.Form
