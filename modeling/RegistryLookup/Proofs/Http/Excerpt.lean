import Mathlib.Data.List.Infix
import RegistryLookup.Proofs.Http.Journey

/-!
# What a failure quotes of an answer

An answer that is refused is quoted in its failure, as much of it as fits into 256 bytes. A quote
is made of whole characters, none of those that fit is missing, and it can always be made
(`quotes_exact`).

* `isBoundary_iff_exists_start`: a text can be cut just behind each of its starts.
* `LongestStart`: as much of a text, from its start on, as fits; there is only one
  (`LongestStart.eq`).
* `excerpt?_eq_some_iff`: this is what an excerpt is.
* `Reply.quotes_read_iff`, `Network.quotes_fetch_iff`: which answers are quoted, and what is quoted
  of them.
-/

namespace RegistryLookup

namespace Text

theorem toList_isPrefix_iff {s t : String} : t.toList <+: s.toList ↔ ∃ u, s = t ++ u := by
  constructor
  · rintro ⟨cs, hcs⟩
    refine ⟨String.ofList cs, String.toList_inj.1 ?_⟩
    rw [String.toList_append, String.toList_ofList, hcs]
  · rintro ⟨u, rfl⟩
    rw [String.toList_append]
    exact List.prefix_append _ _

/-- Of two starts of a text, the one with fewer bytes is a start of the other one. -/
theorem isPrefix_of_utf8ByteSize_le {s t u : String} (ht : t.toList <+: s.toList)
    (hu : u.toList <+: s.toList) (h : t.utf8ByteSize ≤ u.utf8ByteSize) :
    t.toList <+: u.toList := by
  rcases List.prefix_or_prefix_of_prefix ht hu with htu | hut
  · exact htu
  · -- what the longer one has more is without a byte, so without a character
    obtain ⟨more, rfl⟩ := toList_isPrefix_iff.1 hut
    rw [String.utf8ByteSize_append] at h
    have hmore : more = "" := String.utf8ByteSize_eq_zero_iff.1 (by omega)
    rw [hmore, String.append_empty]

/-- **A text can be cut just behind each of its starts.** -/
theorem isBoundary_iff_exists_start {s : String} {place : Nat} :
    isBoundary s place = true ↔ ∃ t : String, t.toList <+: s.toList ∧ t.utf8ByteSize = place := by
  rw [isBoundary_iff, String.Pos.Raw.isValid_iff_exists_append]
  constructor
  · rintro ⟨t, u, hs, hplace⟩
    exact ⟨t, toList_isPrefix_iff.2 ⟨u, hs⟩, (congrArg String.Pos.Raw.byteIdx hplace).symm⟩
  · rintro ⟨t, ht, rfl⟩
    obtain ⟨u, hs⟩ := toList_isPrefix_iff.1 ht
    exact ⟨t, u, hs, rfl⟩

theorem cut?_of_isPrefix {s t : String} (ht : t.toList <+: s.toList) :
    cut? s t.utf8ByteSize = some t := by
  have hboundary : isBoundary s t.utf8ByteSize = true := isBoundary_iff_exists_start.2 ⟨t, ht, rfl⟩
  obtain ⟨u, rfl⟩ := toList_isPrefix_iff.1 ht
  rw [cut?_of_isBoundary (isBoundary_iff.1 hboundary), Option.some.injEq, ← String.toByteArray_inj,
    String.toByteArray_extract, String.toByteArray_append]
  exact ByteArray.extract_append_eq_left rfl

/-- A text is the longest start of another one that fits into a number of bytes. -/
structure LongestStart (room : Nat) (whole part : String) : Prop where
  isPrefix : part.toList <+: whole.toList
  fits : part.utf8ByteSize ≤ room
  /-- Every start that fits is a start of it. -/
  longest : ∀ other : String, other.toList <+: whole.toList → other.utf8ByteSize ≤ room →
    other.toList <+: part.toList

namespace LongestStart

variable {room : Nat} {whole part : String}

theorem of_fits (h : whole.utf8ByteSize ≤ room) : LongestStart room whole whole where
  isPrefix := List.prefix_rfl
  fits := h
  longest _ hother _ := hother

theorem eq {other : String} (h : LongestStart room whole part)
    (hother : LongestStart room whole other) : part = other := by
  have hle : part.toList <+: other.toList := hother.longest part h.isPrefix h.fits
  have hge : other.toList <+: part.toList := h.longest other hother.isPrefix hother.fits
  exact String.toList_inj.1 (hle.eq_of_length_le hge.length_le)

end LongestStart

theorem exists_excerpt? (room : Nat) (s : String) :
    ∃ t, excerpt? room s = some t ∧ LongestStart room s t := by
  by_cases hfits : s.utf8ByteSize ≤ room
  · exact ⟨s, if_neg (Nat.not_lt.2 hfits), .of_fits hfits⟩
  · obtain ⟨n, hn, hle, hboundary, hlast⟩ := exists_boundaryUpTo? s room
    obtain ⟨t, ht, rfl⟩ := isBoundary_iff_exists_start.1 hboundary
    refine ⟨t, ?_, ht, hle, ?_⟩
    · rw [excerpt?, if_pos (Nat.lt_of_not_le hfits), hn, Option.bind_some, cut?_of_isPrefix ht]
    · intro other hother hfit
      have hsize : other.utf8ByteSize ≤ t.utf8ByteSize :=
        hlast _ (isBoundary_iff_exists_start.2 ⟨other, hother, rfl⟩) hfit
      exact isPrefix_of_utf8ByteSize_le hother ht hsize

/-- **An excerpt is the longest start that fits.** -/
theorem excerpt?_eq_some_iff {room : Nat} {s t : String} :
    excerpt? room s = some t ↔ LongestStart room s t := by
  obtain ⟨u, hu, hlongest⟩ := exists_excerpt? room s
  constructor
  · intro h
    rw [hu, Option.some.injEq] at h
    exact h ▸ hlongest
  · intro h
    rw [hu, hlongest.eq h]

example : excerpt? 6 "sjøvær" = some "sjøv" := by decide +kernel

theorem eq_excerpt_iff {room : Nat} {s t : String} :
    t = excerpt room s ↔ LongestStart room s t := by
  rw [← excerpt?_eq_some_iff, excerpt, Option.eq_some_iff_get_eq]
  constructor
  · rintro rfl
    exact ⟨isSome_excerpt? room s, rfl⟩
  · rintro ⟨-, rfl⟩
    rfl

end Text

namespace Http

/-- What comes of a request is a failure that quotes an answer with a status. -/
def Quotes (result : Except Failure Json) (status : Nat) (text : String) : Prop :=
  result = .error (.serverError status text) ∨ result = .error (.clientError status text)

variable {status status' : Nat} {text text' : String}

theorem Quotes.unique {result : Except Failure Json} (h : Quotes result status text)
    (h' : Quotes result status' text') : status = status' ∧ text = text' := by
  unfold Quotes at h h'
  grind

theorem not_quotes_transport (detail : String) :
    ¬ Quotes (.error (.transport detail)) status text := by
  simp [Quotes]

namespace Reply

variable {decode : Decoder} {reply : Reply} {subject : String}

/-- An answer is quoted: it is refused, but neither for a missing entity nor for the rate. -/
def IsQuoted (reply : Reply) : Prop :=
  reply.isSuccess = false ∧ reply.status ≠ 404 ∧ reply.status ≠ 429

theorem quotes_read (h : reply.IsQuoted) (subject : String) :
    Quotes (reply.read decode subject) reply.status (reply.excerpt decode) := by
  obtain ⟨hbad, hmissing, hrate⟩ := h
  unfold read
  rw [if_neg (Bool.eq_false_iff.1 hbad), if_neg hmissing, if_neg hrate]
  split
  · exact Or.inl rfl
  · exact Or.inr rfl

theorem isQuoted_of_quotes (h : Quotes (reply.read decode subject) status text) :
    reply.IsQuoted := by
  unfold read at h
  split at h
  · split at h <;> simp [Quotes] at h
  · rename_i hbad
    split at h
    · simp [Quotes] at h
    · rename_i hmissing
      split at h
      · simp [Quotes] at h
      · rename_i hrate
        exact ⟨Bool.eq_false_iff.2 hbad, hmissing, hrate⟩

/-- **Which answers are quoted, and what is quoted of them.** -/
theorem quotes_read_iff : Quotes (reply.read decode subject) status text ↔
    reply.IsQuoted ∧ reply.status = status ∧ text = reply.excerpt decode := by
  constructor
  · intro h
    have hquoted : reply.IsQuoted := isQuoted_of_quotes h
    obtain ⟨rfl, rfl⟩ := h.unique (quotes_read hquoted subject)
    exact ⟨hquoted, rfl, rfl⟩
  · rintro ⟨hquoted, rfl, rfl⟩
    exact quotes_read hquoted subject

end Reply

/-- **Which requests are answered with a quote.** -/
theorem Network.quotes_fetch_iff {network : Network} {patience number : Nat} {request : Request}
    {subject : String} :
    Quotes (network.fetch patience request subject number).result status text ↔
      ∃ hop last after reply, network.Replies patience number request hop last after reply ∧
        Quotes (reply.read network.decode subject) status text := by
  constructor
  · intro h
    rcases network.fetch_cases patience request subject number with
      ⟨hop, last, after, reply, hreplies⟩ | ⟨after, detail, hlost⟩
    · rw [hreplies.fetch] at h
      exact ⟨hop, last, after, reply, hreplies, h⟩
    · rw [hlost] at h
      exact absurd h (not_quotes_transport detail)
  · rintro ⟨hop, last, after, reply, hreplies, h⟩
    rw [hreplies.fetch]
    exact h

/-- **Quotes are exact.** Every text can be cut to an excerpt, which is the longest start of it that
fits into 256 bytes, whole characters throughout: the text itself if it fits, so that nothing more
is cut off an excerpt. A request that ends with a reply in which a registry refuses it, but for a
missing entity or for the rate, fails with a text that is such a start of the body of the reply, and
no other request does. -/
theorem quotes_exact :
    (∀ m : String, ∃ t, Text.excerpt? Reply.excerptBytes m = some t ∧ Text.LongestStart 256 m t ∧
      (m.utf8ByteSize ≤ 256 → t = m) ∧ Text.excerpt? Reply.excerptBytes t = some t) ∧
    ∀ (network : Network) (patience number status : Nat) (request : Request)
      (subject text : String),
      Quotes (network.fetch patience request subject number).result status text ↔
        ∃ hop last after reply, network.Replies patience number request hop last after reply ∧
          reply.IsQuoted ∧ reply.status = status ∧
            Text.LongestStart 256 (reply.bodyText network.decode) text := by
  constructor
  · intro m
    obtain ⟨t, ht, hlongest⟩ := Text.exists_excerpt? Reply.excerptBytes m
    exact ⟨t, ht, hlongest, fun hfits => hlongest.eq (.of_fits hfits),
      Text.excerpt?_eq_some_iff.2 (.of_fits hlongest.fits)⟩
  · intro network patience number status request subject text
    simp only [Network.quotes_fetch_iff, Reply.quotes_read_iff, Reply.excerpt, Text.eq_excerpt_iff]
    rfl

end Http

end RegistryLookup
