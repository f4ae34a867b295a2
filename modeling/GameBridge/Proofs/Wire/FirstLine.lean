import GameBridge.Wire.Connection
import Mathlib.Data.List.Infix

/-!
# The first line of a connection

A request is what stands before the first line break. Bytes are taken in chunks, and every chunk is
counted against the limit as a whole, so bytes behind the line break are counted as well. That they
make no difference is due to the sizes: the limit is a whole number of chunks.

`Overlong` says of all the bytes at once what the loop finds out chunk by chunk. The invariant of
the loop is that what was taken has no line break, fits into the limit and, unless nothing more
comes, is made of whole chunks.
-/

namespace GameBridge.Wire

/-! ## All bytes at once -/

/-- The bytes before the first line break, or all of them if there is none. -/
def firstLine (incoming : List UInt8) : List UInt8 := incoming.takeWhile (· ≠ newline)

/-- There are more bytes than the limit, and no line break among those within it. -/
def Overlong (incoming : List UInt8) : Prop :=
  maxRequestBytes < incoming.length ∧ newline ∉ incoming.take maxRequestBytes

/-- A line of ASCII white space only: blanks, tabs, line feeds, form feeds and carriage returns. -/
def Blank (line : List UInt8) : Prop := ∀ b ∈ line, b ∈ [0x20, 0x09, 0x0a, 0x0c, 0x0d]

instance (incoming : List UInt8) : Decidable (Overlong incoming) :=
  inferInstanceAs (Decidable (_ ∧ _))

instance (line : List UInt8) : Decidable (Blank line) :=
  inferInstanceAs (Decidable (∀ b ∈ line, _))

/-- The request that a line holds. -/
def decode (line : List UInt8) : Except ErrorInfo Request :=
  match Request.read? line with
  | some request => .ok request
  | none => .error ⟨"invalid_json", "request was not valid JSON: "⟩

theorem all_isBlankByte_iff {line : List UInt8} : line.all isBlankByte = true ↔ Blank line := by
  rw [List.all_eq_true]
  refine forall₂_congr fun b _ ↦ ?_
  simp [isBlankByte, or_assoc]

theorem firstLine_append_newline {line : List UInt8} (hline : newline ∉ line)
    (after : List UInt8) : firstLine (line ++ newline :: after) = line := by
  rw [firstLine, List.takeWhile_append_of_pos]
  · rw [List.takeWhile_cons_of_neg (by simp), List.append_nil]
  · intro b hb
    exact decide_eq_true (ne_of_mem_of_not_mem hb hline)

theorem firstLine_of_prefix {taken all : List UInt8} (hbegin : taken <+: all)
    (hline : newline ∈ taken) : firstLine taken = firstLine all := by
  obtain ⟨rest, rfl⟩ := hbegin
  obtain ⟨line, after, hsplit, hnone⟩ := List.eq_append_cons_of_mem hline
  rw [hsplit, List.append_assoc, List.cons_append, firstLine_append_newline hnone,
    firstLine_append_newline hnone]

/-! ## The loop -/

private theorem eq_limit_of_full {taken chunk : Nat} (hfits : taken ≤ maxRequestBytes)
    (hwhole : chunkSize ∣ taken) (hchunk : chunk ≤ chunkSize)
    (hmany : maxRequestBytes < taken + chunk) : taken = maxRequestBytes := by
  obtain ⟨chunks, rfl⟩ := hwhole
  rw [maxRequestBytes, chunkSize] at *
  omega

/-- **The invariant of the loop.** If the bytes taken so far have no line break, fit into the limit
and are whole chunks, then the loop finds out whether all of them together are overlong. -/
private theorem gather_cases (taken incoming : List UInt8) (hline : newline ∉ taken)
    (hfits : taken.length ≤ maxRequestBytes)
    (hwhole : incoming ≠ [] → chunkSize ∣ taken.length) :
    (Overlong (taken ++ incoming) ∧ gather taken incoming = none) ∨
      (¬Overlong (taken ++ incoming) ∧ ∃ all, gather taken incoming = some all
        ∧ firstLine all = firstLine (taken ++ incoming)) := by
  induction taken, incoming using gather.induct with
  | case1 taken =>
    rw [List.append_nil]
    exact Or.inr ⟨fun hlong ↦ Nat.not_lt.mpr hfits hlong.1, taken, by rw [gather], rfl⟩
  | case2 taken b rest chunk sum hmany =>
    -- the chunks before this one filled the limit, without a line break
    have hfull : taken.length = maxRequestBytes :=
      eq_limit_of_full hfits (hwhole (List.cons_ne_nil b rest)) (List.length_take_le _ _)
        (by rwa [← List.length_append])
    refine Or.inl ⟨⟨?_, ?_⟩, by rw [gather, if_pos hmany]⟩
    · rw [List.length_append, hfull, List.length_cons]
      exact Nat.lt_add_of_pos_right (Nat.succ_pos _)
    · rwa [← hfull, List.take_left]
  | case3 taken b rest chunk sum hfew hbreak =>
    have hbegin : sum <+: taken ++ b :: rest :=
      (List.prefix_append_right_inj taken).mpr (List.take_prefix _ _)
    have hmem : newline ∈ sum := List.mem_append_right _ (List.contains_iff_mem.mp hbreak)
    refine Or.inr ⟨fun hlong ↦ hlong.2 ?_, sum, by rw [gather, if_neg hfew, if_pos hbreak],
      firstLine_of_prefix hbegin hmem⟩
    exact (List.prefix_take_iff.mpr ⟨hbegin, Nat.not_lt.mp hfew⟩).mem hmem
  | case4 taken b rest chunk sum hfew hbreak ih =>
    have hnone : newline ∉ sum := by
      rw [List.mem_append, not_or]
      exact ⟨hline, fun hmem ↦ hbreak (List.contains_iff_mem.mpr hmem)⟩
    have hall : sum ++ (b :: rest).drop chunkSize = taken ++ b :: rest := by
      rw [List.append_assoc, List.take_append_drop]
    rw [← hall, gather, if_neg hfew, if_neg hbreak]
    refine ih hnone (Nat.not_lt.mp hfew) fun hmore ↦ ?_
    -- if more bytes come, then this chunk was a whole one
    have hlong : chunkSize ≤ (b :: rest).length :=
      Nat.le_of_not_lt fun hshort ↦ hmore (List.drop_eq_nil_of_le hshort.le)
    rw [List.length_append, List.length_take_of_le hlong]
    exact Nat.dvd_add (hwhole (List.cons_ne_nil b rest)) (Nat.dvd_refl chunkSize)

/-! ## Receiving a request -/

private theorem decode_ne_error {line : List UInt8} {info : ErrorInfo}
    (h : info.code ≠ "invalid_json") : decode line ≠ .error info := by
  intro hdecode
  rw [decode] at hdecode
  split at hdecode
  · exact absurd hdecode (by simp)
  · exact h (congrArg ErrorInfo.code (Except.error.inj hdecode)).symm

theorem receive_eq (incoming : List UInt8) :
    receive incoming =
      if Overlong incoming then .error ⟨"request_too_large", "request exceeded maximum size"⟩
      else if Blank (firstLine incoming) then .error ⟨"empty_request", "request body was empty"⟩
      else decode (firstLine incoming) := by
  have hloop := gather_cases [] incoming List.not_mem_nil (Nat.zero_le _) fun _ ↦ Nat.dvd_zero _
  rw [List.nil_append] at hloop
  obtain ⟨hlong, hnone⟩ | ⟨hshort, all, hall, hline⟩ := hloop
  · rw [if_pos hlong, receive, hnone]
  · rw [if_neg hshort, ← hline, receive, hall]
    exact if_congr all_isBlankByte_iff rfl rfl

theorem overlong_append_newline_iff {line : List UInt8} (hline : newline ∉ line)
    (after : List UInt8) :
    Overlong (line ++ newline :: after) ↔ maxRequestBytes ≤ line.length := by
  constructor
  · rintro ⟨-, hnone⟩
    by_contra hshort
    refine hnone (List.mem_take_iff_getElem.mpr ⟨line.length, ?_, ?_⟩)
    · rw [List.length_append, List.length_cons]
      omega
    · rw [List.getElem_append_right (Nat.le_refl _)]
      simp
  · intro hlong
    refine ⟨?_, fun hmem ↦ hline ?_⟩
    · rw [List.length_append, List.length_cons]
      omega
    · rw [List.take_append_of_le_length hlong] at hmem
      exact List.mem_of_mem_take hmem

/-- **The first line decides.** A request is too large just if there are more bytes than the limit
and no line break among those within it. Otherwise it is empty just if the first line is blank, and
else it is what the first line says. What follows a line makes no difference. -/
theorem receive_firstLine (incoming : List UInt8) :
    (receive incoming = .error ⟨"request_too_large", "request exceeded maximum size"⟩
        ↔ Overlong incoming)
      ∧ (receive incoming = .error ⟨"empty_request", "request body was empty"⟩
        ↔ ¬Overlong incoming ∧ Blank (firstLine incoming))
      ∧ (Overlong incoming ∨ Blank (firstLine incoming)
        ∨ receive incoming = decode (firstLine incoming))
      ∧ ∀ line after after', newline ∉ line →
        receive (line ++ newline :: after) = receive (line ++ newline :: after') := by
  refine ⟨?_, ?_, ?_, ?_⟩
  · rw [receive_eq]
    split_ifs with hlong hblank
    · exact iff_of_true rfl hlong
    · exact iff_of_false (by simp) hlong
    · exact iff_of_false (decode_ne_error (by simp)) hlong
  · rw [receive_eq]
    split_ifs with hlong hblank
    · exact iff_of_false (by simp) fun h ↦ h.1 hlong
    · exact iff_of_true rfl ⟨hlong, hblank⟩
    · exact iff_of_false (decode_ne_error (by simp)) fun h ↦ hblank h.2
  · rw [receive_eq]
    split_ifs with hlong hblank
    · exact Or.inl hlong
    · exact Or.inr (Or.inl hblank)
    · exact Or.inr (Or.inr rfl)
  · intro line after after' hline
    rw [receive_eq, receive_eq, firstLine_append_newline hline, firstLine_append_newline hline]
    simp only [overlong_append_newline_iff hline]

/-- A line of blanks as long as the limit is too large if it ends, whatever follows, and empty if
nothing follows. -/
theorem receive_firstLine_limit :
    newline ∉ List.replicate maxRequestBytes 0x20
      ∧ receive (List.replicate maxRequestBytes 0x20 ++ newline :: [0x7b])
        = receive (List.replicate maxRequestBytes 0x20 ++ newline :: [])
      ∧ receive (List.replicate maxRequestBytes 0x20 ++ newline :: [])
        = .error ⟨"request_too_large", "request exceeded maximum size"⟩
      ∧ receive (List.replicate maxRequestBytes 0x20)
        = .error ⟨"empty_request", "request body was empty"⟩ := by
  have hline : newline ∉ List.replicate maxRequestBytes 0x20 := by
    rw [List.mem_replicate]
    exact fun h ↦ absurd h.2 (by decide)
  refine ⟨hline, (receive_firstLine []).2.2.2 _ [0x7b] [] hline, ?_, ?_⟩
  · refine (receive_firstLine _).1.mpr ((overlong_append_newline_iff hline []).mpr ?_)
    rw [List.length_replicate]
  · refine (receive_firstLine _).2.1.mpr ⟨fun hlong ↦ ?_, fun b hb ↦ ?_⟩
    · exact absurd hlong.1 (by rw [List.length_replicate]; exact Nat.lt_irrefl _)
    · have hmem : b ∈ List.replicate maxRequestBytes 0x20 :=
        (List.takeWhile_prefix _).mem hb
      rw [(List.mem_replicate.mp hmem).2]
      exact List.mem_cons_self

end GameBridge.Wire
