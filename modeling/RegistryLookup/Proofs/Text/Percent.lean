import Mathlib.Tactic.Common
import RegistryLookup.Proofs.Text.Utf8
import RegistryLookup.Text.Percent

/-!
# Reading back what is percent-encoded

A percent sign is read together with the two characters behind it, if these are hexadecimal digits.
So a set may be encoded without a change to what is read if it leaves the percent sign and the
digits alone.

* `decodeBytes_encodeByte_append`: a byte is read back, whatever follows.
* `Spares`: a set that leaves alone what encodings are made of.
* `decodeBytes_map_encode`: encoding such a set changes nothing that is read, also when some other
  characters are replaced first.
* `encode_eq_self`: a text without characters of a set stays as it is.
-/

namespace RegistryLookup.Text.Percent

theorem hexValue?_hexDigit {n : Nat} (hn : n < 16) : hexValue? (hexDigit n) = some n := by
  have hall : ∀ n < 16, hexValue? (hexDigit n) = some n := by decide
  exact hall n hn

theorem hexValue?_percent : hexValue? '%' = none := by decide

/-- The bytes of an ASCII character. -/
theorem utf8EncodeChar_of_le {c : Char} (h : c.toNat ≤ 127) :
    String.utf8EncodeChar c = [UInt8.ofNat c.toNat] := by
  unfold String.utf8EncodeChar
  exact if_pos h

theorem toNat_le_of_hexValue? {c : Char} {n : Nat} (h : hexValue? c = some n) : c.toNat ≤ 127 := by
  unfold hexValue? at h
  simp only [Char.le_def, UInt32.le_iff_toNat_le] at h
  have hc : c.toNat = c.val.toNat := rfl
  split_ifs at h with h1 h2 h3
  · have h9 : '9'.val.toNat = 57 := rfl
    omega
  · have hf : 'f'.val.toNat = 102 := rfl
    omega
  · have hF : 'F'.val.toNat = 70 := rfl
    omega

/-- Whether a text begins with two hexadecimal digits. -/
def startsHex : List Char → Bool
  | a :: b :: _ => (hexValue? a).isSome && (hexValue? b).isSome
  | _ => false

theorem startsHex_iff {cs : List Char} : startsHex cs = true ↔ ∃ a b rest, cs = a :: b :: rest ∧
    (hexValue? a).isSome ∧ (hexValue? b).isSome := by
  unfold startsHex
  split
  · simp
  · rename_i hno
    constructor
    · intro h
      cases h
    · rintro ⟨a, b, rest, rfl, -⟩
      exact absurd rfl (hno a b rest)

theorem decodeBytes_nil : decodeBytes [] = [] := by rw [decodeBytes]

theorem decodeBytes_cons {c : Char} (hc : c ≠ '%') (rest : List Char) :
    decodeBytes (c :: rest) = String.utf8EncodeChar c ++ decodeBytes rest := by
  rw [decodeBytes]
  rintro a b more h -
  exact absurd h hc

theorem decodeBytes_percent {a b : Char} {x y : Nat} (ha : hexValue? a = some x)
    (hb : hexValue? b = some y) (rest : List Char) :
    decodeBytes ('%' :: a :: b :: rest) = UInt8.ofNat (x * 16 + y) :: decodeBytes rest := by
  rw [decodeBytes, ha, hb]

/-- A percent sign without two digits stands for itself. -/
theorem decodeBytes_percent_of_not {cs : List Char} (h : startsHex cs = false) :
    decodeBytes ('%' :: cs) = 37 :: decodeBytes cs := by
  match cs with
  | [] => rw [decodeBytes]; exacts [rfl, by simp]
  | [a] => rw [decodeBytes]; exacts [rfl, by simp]
  | a :: b :: rest =>
    rw [decodeBytes]
    rw [startsHex, Bool.and_eq_false_iff] at h
    cases ha : hexValue? a with
    | none => rfl
    | some x =>
      cases hb : hexValue? b with
      | none => rfl
      | some y => rw [ha, hb] at h; simp at h

/-- **A byte is read back, whatever follows.** -/
theorem decodeBytes_encodeByte_append (b : UInt8) (rest : List Char) :
    decodeBytes (encodeByte b ++ rest) = b :: decodeBytes rest := by
  have hb : b.toNat < 256 := b.toNat_lt
  have hhigh : hexValue? (hexDigit (b.toNat / 16)) = some (b.toNat / 16) :=
    hexValue?_hexDigit (by omega)
  have hlow : hexValue? (hexDigit (b.toNat % 16)) = some (b.toNat % 16) :=
    hexValue?_hexDigit (by omega)
  show decodeBytes ('%' :: hexDigit (b.toNat / 16) :: hexDigit (b.toNat % 16) :: rest) = _
  rw [decodeBytes_percent hhigh hlow, Nat.div_add_mod', UInt8.ofNat_toNat]

theorem decodeBytes_flatMap_encodeByte_append (bs : List UInt8) (rest : List Char) :
    decodeBytes (bs.flatMap encodeByte ++ rest) = bs ++ decodeBytes rest := by
  induction bs with
  | nil => rfl
  | cons b bs ih =>
    rw [List.flatMap_cons, List.append_assoc, decodeBytes_encodeByte_append, ih, List.cons_append]

/-- A set that leaves alone what encodings are made of, and a replacement of other characters of
ASCII outside of the set. -/
structure Spares (set : Char → Bool) (f : Char → Char) : Prop where
  kept (c : Char) (h : 127 < c.toNat ∨ set c = true ∨ c = '%' ∨ (hexValue? c).isSome) : f c = c
  made (c : Char) (h : f c = '%' ∨ (hexValue? (f c)).isSome) : f c = c ∧ set c = false

section Spares

variable {set : Char → Bool} {f : Char → Char}

theorem Spares.map_encodeByte (h : Spares set f) (b : UInt8) :
    (encodeByte b).map f = encodeByte b := by
  have hdigit : ∀ n, n < 16 → f (hexDigit n) = hexDigit n := fun n hn =>
    h.kept _ (Or.inr (Or.inr (Or.inr (by rw [hexValue?_hexDigit hn]; rfl))))
  have hb : b.toNat < 256 := b.toNat_lt
  simp only [encodeByte, List.map_cons, List.map_nil]
  rw [h.kept '%' (Or.inr (Or.inr (Or.inl rfl))), hdigit _ (by omega), hdigit _ (by omega)]

/-- A character that is encoded is kept by the replacement. -/
theorem Spares.map_encodeChar (h : Spares set f) (c : Char) : (encodeChar set c).map f =
    if 127 < c.toNat || set c then (String.utf8EncodeChar c).flatMap encodeByte else [f c] := by
  unfold encodeChar
  split
  · rw [List.map_flatMap]
    exact congrArg (List.flatMap · _) (funext h.map_encodeByte)
  · rfl

/-- What is left of a digit was one. -/
theorem Spares.hex_of_encode (h : Spares set f) {c a : Char} {rest xs : List Char}
    (heq : (encode set (c :: rest)).map f = a :: xs) (ha : (hexValue? a).isSome) :
    f c = a ∧ xs = (encode set rest).map f := by
  unfold encode at heq
  rw [List.flatMap_cons, List.map_append, h.map_encodeChar] at heq
  split at heq
  · -- an encoding begins with a percent sign
    obtain ⟨b, bs, hbytes, -⟩ := Utf8.next_utf8EncodeChar c []
    rw [hbytes, List.flatMap_cons, encodeByte, List.cons_append, List.cons_append] at heq
    rw [← (List.cons.inj heq).1, hexValue?_percent] at ha
    cases ha
  · exact ⟨(List.cons.inj heq).1, (List.cons.inj heq).2.symm⟩

/-- Encoding makes no two digits. -/
theorem Spares.startsHex_encode (h : Spares set f) (cs : List Char) :
    startsHex ((encode set cs).map f) = true → startsHex (cs.map f) = true := by
  intro hhex
  obtain ⟨a, b, rest, hout, ha, hb⟩ := startsHex_iff.1 hhex
  match cs with
  | [] => cases hout
  | [c] =>
    obtain ⟨-, hrest⟩ := h.hex_of_encode hout ha
    cases hrest
  | c :: d :: cs =>
    obtain ⟨hca, hrest⟩ := h.hex_of_encode hout ha
    obtain ⟨hdb, -⟩ := h.hex_of_encode hrest.symm hb
    exact startsHex_iff.2 ⟨a, b, cs.map f, by rw [List.map_cons, List.map_cons, hca, hdb], ha, hb⟩

theorem Spares.encode_cons_of_kept (h : Spares set f) {c : Char}
    (hc : c = '%' ∨ (hexValue? c).isSome) (rest : List Char) :
    (encode set (c :: rest)).map f = c :: (encode set rest).map f := by
  have hfc : f c = c := h.kept c (Or.inr (Or.inr hc))
  have hset : set c = false := (h.made c (by rwa [hfc])).2
  have hascii : ¬ 127 < c.toNat := by
    rcases hc with rfl | hc
    · decide
    · obtain ⟨n, hn⟩ := Option.isSome_iff_exists.1 hc
      exact Nat.not_lt.2 (toNat_le_of_hexValue? hn)
  unfold encode
  rw [List.flatMap_cons, List.map_append, h.map_encodeChar, hset, if_neg (by simpa using hascii),
    hfc]
  rfl

/-- **Encoding changes nothing that is read.** -/
theorem Spares.decodeBytes_map_encode (h : Spares set f) (cs : List Char) :
    decodeBytes ((encode set cs).map f) = decodeBytes (cs.map f) := by
  -- by induction on the length, since a percent sign takes two more characters with it
  induction hn : cs.length using Nat.strongRecOn generalizing cs with
  | _ n ih =>
    cases cs with
    | nil => rfl
    | cons c rest =>
      have hshort : rest.length < n := by rw [← hn]; exact Nat.lt_succ_self _
      by_cases hc : c = '%'
      · subst hc
        rw [h.encode_cons_of_kept (Or.inl rfl), List.map_cons,
          h.kept '%' (Or.inr (Or.inr (Or.inl rfl)))]
        cases hhex : startsHex (rest.map f) with
        | false =>
          have hhex' : startsHex ((encode set rest).map f) = false := by
            by_contra hno
            rw [h.startsHex_encode rest (by simpa using hno)] at hhex
            cases hhex
          rw [decodeBytes_percent_of_not hhex', decodeBytes_percent_of_not hhex,
            ih _ hshort rest rfl]
        | true =>
          match rest with
          | [] => cases hhex
          | [a] => cases hhex
          | a :: b :: more =>
            rw [List.map_cons, List.map_cons, startsHex, Bool.and_eq_true] at hhex
            have hfa : f a = a := (h.made a (Or.inr hhex.1)).1
            have hfb : f b = b := (h.made b (Or.inr hhex.2)).1
            rw [hfa, hfb] at hhex
            obtain ⟨x, hx⟩ := Option.isSome_iff_exists.1 hhex.1
            obtain ⟨y, hy⟩ := Option.isSome_iff_exists.1 hhex.2
            rw [h.encode_cons_of_kept (Or.inr hhex.1), h.encode_cons_of_kept (Or.inr hhex.2),
              List.map_cons, List.map_cons, hfa, hfb, decodeBytes_percent hx hy,
              decodeBytes_percent hx hy, ih more.length (by simp at hshort; omega) more rfl]
      · have hfc : f c ≠ '%' := by
          intro heq
          exact hc ((h.made c (Or.inl heq)).1.symm.trans heq)
        have hencode : (encode set (c :: rest)).map f =
            (encodeChar set c).map f ++ (encode set rest).map f := by
          rw [encode, List.flatMap_cons, List.map_append]
          rfl
        rw [hencode, List.map_cons, decodeBytes_cons hfc, ← ih _ hshort rest rfl, h.map_encodeChar]
        split
        · rename_i hset
          have hkept : f c = c := by
            rw [Bool.or_eq_true, decide_eq_true_eq] at hset
            exact h.kept c (hset.imp_right Or.inl)
          rw [decodeBytes_flatMap_encodeByte_append, hkept]
        · rw [List.singleton_append, decodeBytes_cons hfc]

end Spares

/-- A text without characters of a set stays as it is. -/
theorem encode_eq_self {set : Char → Bool} {cs : List Char}
    (h : ∀ c ∈ cs, c.toNat ≤ 127 ∧ set c = false) : encode set cs = cs := by
  induction cs with
  | nil => rfl
  | cons c cs ih =>
    obtain ⟨hascii, hset⟩ := h c List.mem_cons_self
    have hchar : encodeChar set c = [c] := by
      unfold encodeChar
      rw [hset, if_neg (by simpa using hascii)]
    unfold encode at ih ⊢
    rw [List.flatMap_cons, hchar, ih fun d hd => h d (List.mem_cons_of_mem c hd)]
    rfl

end RegistryLookup.Text.Percent
