import GameBridge.Proofs.Catalog.CanonicalIds
import GameBridge.Proofs.Text.ByteOrder
import GameBridge.Wire.GameParams

/-!
# Which parameters name a game

Parameters name a text if they are an object with this text as the only member, under `game_id`, or
an array with this text as the only item. Whether the text is accepted as the id of a game depends
on its size as it was sent and on what is left of it after trimming. Everything is refused with one
of three codes, one for each way to fail, and a blank text counts as missing however long it is.

The characters of an accepted id are all in ASCII, so none of them is white space and each takes
one byte. An accepted id is therefore accepted again as it is, and so is its canonical form
(`parse_exact`).
-/

namespace GameBridge

/-! ## The alphabet -/

namespace GameId

/-- The letters of ids: those of ASCII, its digits and two marks. -/
def InAlphabet (c : Char) : Prop :=
  ('A' ≤ c ∧ c ≤ 'Z') ∨ ('a' ≤ c ∧ c ≤ 'z') ∨ ('0' ≤ c ∧ c ≤ '9') ∨ c = '-' ∨ c = '_'

theorem isIdChar_iff {c : Char} : isIdChar c = true ↔ InAlphabet c := by
  have hupper : c.isUpper = true ↔ 'A' ≤ c ∧ c ≤ 'Z' := decide_eq_true_iff
  have hlower : c.isLower = true ↔ 'a' ≤ c ∧ c ≤ 'z' :=
    (Bool.and_eq_true_iff).trans (and_congr decide_eq_true_iff decide_eq_true_iff)
  have hdigit : c.isDigit = true ↔ '0' ≤ c ∧ c ≤ '9' :=
    (Bool.and_eq_true_iff).trans (and_congr decide_eq_true_iff decide_eq_true_iff)
  have halphanum : c.isAlphanum = ((c.isUpper || c.isLower) || c.isDigit) := rfl
  rw [isIdChar, halphanum, InAlphabet]
  simp only [Bool.or_eq_true, beq_iff_eq, hupper, hlower, hdigit, or_assoc]

/-- A text in the alphabet has as many bytes as characters. -/
theorem utf8ByteSize_of_isIdChar {s : String} (h : ∀ c ∈ s.toList, isIdChar c = true) :
    s.utf8ByteSize = s.length := by
  have hsize : ∀ cs : List Char, (∀ c ∈ cs, isIdChar c = true) →
      (cs.flatMap Text.charBytes).length = cs.length := by
    intro cs hcs
    rw [List.length_flatMap]
    have hone : cs.map (fun c ↦ (Text.charBytes c).length) = cs.map fun _ ↦ 1 := by
      refine List.map_congr_left fun c hc ↦ ?_
      rw [Text.charBytes, String.length_utf8EncodeChar, Char.utf8Size_eq_one_iff]
      exact UInt32.le_iff_toNat_le.mpr
        ((visible_of_isIdChar (hcs c hc)).2.trans (by decide : 0x7e ≤ 0x7f))
    rw [hone, List.map_const', List.sum_replicate_nat, Nat.mul_one]
  have hbytes : (Text.bytes s).length = s.utf8ByteSize := rfl
  rw [← hbytes, ← String.length_toList, ← hsize s.toList h, Text.bytes_eq_flatMap]

end GameId

namespace Wire.GameParams

open Json

/-! ## The shape -/

/-- Parameters name a text. -/
inductive Names : Value → String → Prop
  /-- It is the only member of an object. -/
  | object (s : String) : Names (.obj [("game_id", .str s)]) s
  /-- It is the only item of an array. -/
  | array (s : String) : Names (.arr [.str s]) s

theorem textOf_eq_ok_iff {value : Value} {s : String} : textOf value = .ok s ↔ value = .str s := by
  cases value <;> simp [textOf]

/-- After the first member of an object there is none that could be the id as well. -/
theorem idAmong_eq_ok_iff {members : List (String × Value)} {s : String}
    (h : (members.map Prod.fst).Nodup) :
    idAmong none members = .ok s ↔ members = [("game_id", .str s)] := by
  rcases members with - | ⟨⟨name, value⟩, rest⟩
  · simp [idAmong]
  rw [idAmong]
  by_cases hname : name = "game_id"
  · subst hname
    rw [if_pos rfl]
    cases hvalue : textOf value with
    | error fault =>
      have hother : ∀ s, value ≠ .str s := fun s hs ↦
        absurd (hvalue.symm.trans (textOf_eq_ok_iff.mpr hs)) (by simp)
      simp [hother]
    | ok id =>
      obtain rfl := textOf_eq_ok_iff.mp hvalue
      rcases rest with - | ⟨⟨other, value⟩, rest⟩
      · simp [idAmong]
      · have hother : other ≠ "game_id" := by
          rintro rfl
          simp at h
        simp [idAmong, hother]
  · simp [hname]

/-- The members of an object have different names, as they do in any value that was read. -/
def Distinct (params : Option Value) : Prop :=
  ∀ members, params = some (.obj members) → (members.map Prod.fst).Nodup

theorem idOf_eq_ok_iff {value : Value} {s : String} (h : Distinct (some value)) :
    idOf value = .ok s ↔ Names value s := by
  constructor
  · intro hid
    cases value with
    | obj members =>
      rw [idOf, idAmong_eq_ok_iff (h members rfl)] at hid
      exact hid ▸ Names.object s
    | arr items =>
      rcases items with - | ⟨item, - | ⟨other, rest⟩⟩
      · exact nomatch hid
      · rw [idOf, textOf_eq_ok_iff] at hid
        exact hid ▸ Names.array s
      · cases hitem : textOf item <;> simp [idOf, hitem] at hid
    | _ => exact nomatch hid
  · rintro (_ | _)
    · rfl
    · rfl

/-! ## The checks -/

/-- A text that passes as the id of a game, with white space around it or without. -/
structure Acceptable (raw : String) : Prop where
  size : raw.utf8ByteSize ≤ 64
  nonempty : Text.trim raw ≠ ""
  chars : ∀ c ∈ (Text.trim raw).toList, GameId.InAlphabet c

/-- A result is an error with a code. -/
def Refused {α : Type} (result : Except ErrorInfo α) (code : String) : Prop :=
  ∃ message, result = .error ⟨code, message⟩

namespace Refused

variable {α β : Type} {result : Except ErrorInfo α} {code : String}

theorem ne_ok (h : Refused result code) (a : α) : result ≠ .ok a := by
  obtain ⟨message, rfl⟩ := h
  simp

theorem iff_eq (h : Refused result code) {other : String} :
    Refused result other ↔ other = code := by
  obtain ⟨message, rfl⟩ := h
  simp [Refused, eq_comm]

theorem map (h : Refused result code) (f : α → β) : Refused (result.map f) code := by
  obtain ⟨message, rfl⟩ := h
  exact ⟨message, rfl⟩

end Refused

theorem not_refused_of_ok {α : Type} {result : Except ErrorInfo α} {a : α} (h : result = .ok a)
    (code : String) : ¬Refused result code :=
  fun hrefused ↦ hrefused.ne_ok a h

/-- What the checks find out about a text. -/
theorem validate_cases (raw : String) :
    Text.trim raw = "" ∧ Refused (validate raw) "missing_field"
      ∨ Text.trim raw ≠ "" ∧ ¬Acceptable raw ∧ Refused (validate raw) "invalid_game_id"
      ∨ Acceptable raw ∧ validate raw = .ok () := by
  rw [validate]
  split_ifs with hblank hlong hchars
  · exact Or.inl ⟨hblank, _, rfl⟩
  · exact Or.inr (Or.inl ⟨hblank, fun h ↦ Nat.not_lt.mpr h.size hlong, _, rfl⟩)
  · rw [List.all_eq_true] at hchars
    exact Or.inr (Or.inr
      ⟨⟨Nat.not_lt.mp hlong, hblank, fun c hc ↦ GameId.isIdChar_iff.mp (hchars c hc)⟩, rfl⟩)
  · refine Or.inr (Or.inl ⟨hblank, fun h ↦ hchars (List.all_eq_true.mpr fun c hc ↦ ?_), _, rfl⟩)
    exact GameId.isIdChar_iff.mpr (h.chars c hc)

theorem validate_of_acceptable {raw : String} (h : Acceptable raw) : validate raw = .ok () := by
  obtain ⟨hblank, -⟩ | ⟨-, hnot, -⟩ | ⟨-, hvalid⟩ := validate_cases raw
  · exact absurd hblank h.nonempty
  · exact absurd h hnot
  · exact hvalid

/-! ## Accepted ids -/

theorem Acceptable.plain {raw : String} (h : Acceptable raw) : GameId.Plain (Text.trim raw) where
  ne_empty := h.nonempty
  length_le := (Text.length_trim_le raw).trans ((Text.length_le_utf8ByteSize raw).trans h.size)
  chars c hc := GameId.isIdChar_iff.mpr (h.chars c hc)

theorem acceptable_of_plain {id : String} (h : GameId.Plain id) : Acceptable id where
  size := (GameId.utf8ByteSize_of_isIdChar h.chars).trans_le h.length_le
  nonempty := h.trim_eq.symm ▸ h.ne_empty
  chars c hc := GameId.isIdChar_iff.mp (h.chars c (h.trim_eq ▸ hc))

/-! ## Parameters -/

theorem Names.unique {value : Value} {s t : String} (hs : Names value s) (ht : Names value t) :
    s = t := by
  cases hs <;> cases ht <;> rfl

/-- Parameters that name a text name one that has a property just if theirs does. -/
theorem Names.exists_iff {value : Value} {s : String} (h : Names value s) (p : String → Prop) :
    (∃ v ∈ some value, ∃ t, Names v t ∧ p t) ↔ p s := by
  constructor
  · rintro ⟨v, hv, t, ht, hp⟩
    obtain rfl := Option.some.inj hv
    exact h.unique ht ▸ hp
  · exact fun hp ↦ ⟨value, rfl, s, h, hp⟩

theorem parse_of_names {value : Value} {s : String} (h : Names value s) :
    parse (some value) = (validate s).map fun _ ↦ Text.trim s := by
  have hid : idOf value = .ok s := by cases h <;> rfl
  rw [parse, hid]
  cases hvalid : validate s with
  | error info => simp [hvalid, bind, Except.bind, Except.map]
  | ok valid => simp [hvalid, bind, Except.bind, Except.map, pure, Except.pure]

theorem parse_of_plain {value : Value} {id : String} (h : GameId.Plain id)
    (hvalue : Names value id) : parse (some value) = .ok id := by
  rw [parse_of_names hvalue, validate_of_acceptable (acceptable_of_plain h), Except.map,
    h.trim_eq]

theorem refused_of_unnamed {params : Option Value} (hdistinct : Distinct params)
    (h : ¬∃ v ∈ params, ∃ s, Names v s) : Refused (parse params) "invalid_params" := by
  cases params with
  | none => exact ⟨_, rfl⟩
  | some value =>
    cases hid : idOf value with
    | ok s => exact absurd ⟨value, rfl, s, (idOf_eq_ok_iff hdistinct).mp hid⟩ h
    | error fault =>
      rw [parse, hid]
      exact ⟨_, rfl⟩

/-- What comes of parameters that name a text. -/
theorem parse_cases_of_names {value : Value} {s : String} (h : Names value s) :
    Text.trim s = "" ∧ Refused (parse (some value)) "missing_field"
      ∨ Text.trim s ≠ "" ∧ ¬Acceptable s ∧ Refused (parse (some value)) "invalid_game_id"
      ∨ Acceptable s ∧ parse (some value) = .ok (Text.trim s) := by
  rw [parse_of_names h]
  obtain ⟨hblank, hrefused⟩ | ⟨hblank, hnot, hrefused⟩ | ⟨hvalid, hok⟩ := validate_cases s
  · exact Or.inl ⟨hblank, hrefused.map _⟩
  · exact Or.inr (Or.inl ⟨hblank, hnot, hrefused.map _⟩)
  · exact Or.inr (Or.inr ⟨hvalid, by rw [hok, Except.map]⟩)

theorem plain_of_parse {params : Option Value} {t : String} (hdistinct : Distinct params)
    (h : parse params = .ok t) : GameId.Plain t := by
  by_cases hnamed : ∃ v ∈ params, ∃ s, Names v s
  · obtain ⟨v, rfl, s, hv⟩ := hnamed
    obtain ⟨-, hrefused⟩ | ⟨-, -, hrefused⟩ | ⟨hvalid, hok⟩ := parse_cases_of_names hv
    · exact absurd h (hrefused.ne_ok t)
    · exact absurd h (hrefused.ne_ok t)
    · obtain rfl := Except.ok.inj (hok.symm.trans h)
      exact hvalid.plain
  · exact absurd h ((refused_of_unnamed hdistinct hnamed).ne_ok t)

/-- A plain id is accepted unchanged, and so is its canonical form, which is plain as well. -/
theorem stable_of_plain {t : String} (h : GameId.Plain t) :
    (∀ v, Names v t → parse (some v) = .ok t)
      ∧ GameId.canonical t ≠ "" ∧ (GameId.canonical t).length ≤ 64
      ∧ (∀ c ∈ (GameId.canonical t).toList, GameId.InAlphabet c)
      ∧ ∀ v, Names v (GameId.canonical t) → parse (some v) = .ok (GameId.canonical t) :=
  ⟨fun _ hv ↦ parse_of_plain h hv, h.canonical.ne_empty, h.canonical.length_le,
    fun c hc ↦ GameId.isIdChar_iff.mp (h.canonical.chars c hc),
    fun _ hv ↦ parse_of_plain h.canonical hv⟩

/-- **Exact and stable.** Parameters are accepted just if they name a text that passes, and what is
found is this text after trimming. The code of a refusal says which of the three ways to fail it
was. What was found is accepted again unchanged, and its canonical form is a text of the same kind,
which is accepted unchanged as well. -/
theorem parse_exact {params : Option Value} (h : Distinct params) :
    (∀ t, parse params = .ok t
        ↔ ∃ v ∈ params, ∃ s, Names v s ∧ Acceptable s ∧ t = Text.trim s)
    ∧ (Refused (parse params) "invalid_params" ↔ ¬∃ v ∈ params, ∃ s, Names v s)
    ∧ (Refused (parse params) "missing_field"
        ↔ ∃ v ∈ params, ∃ s, Names v s ∧ Text.trim s = "")
    ∧ (Refused (parse params) "invalid_game_id"
        ↔ ∃ v ∈ params, ∃ s, Names v s ∧ Text.trim s ≠ "" ∧ ¬Acceptable s)
    ∧ ∀ t, parse params = .ok t →
        (∀ v, Names v t → parse (some v) = .ok t)
        ∧ GameId.canonical t ≠ "" ∧ (GameId.canonical t).length ≤ 64
        ∧ (∀ c ∈ (GameId.canonical t).toList, GameId.InAlphabet c)
        ∧ ∀ v, Names v (GameId.canonical t) → parse (some v) = .ok (GameId.canonical t) := by
  have hstable t (ht : parse params = .ok t) := stable_of_plain (plain_of_parse h ht)
  by_cases hnamed : ∃ v ∈ params, ∃ s, Names v s
  · obtain ⟨v, rfl, s, hv⟩ := hnamed
    have hsome : ∃ v' ∈ some v, ∃ t, Names v' t := ⟨v, rfl, s, hv⟩
    obtain ⟨hblank, hrefused⟩ | ⟨hblank, hnot, hrefused⟩ | ⟨hvalid, hok⟩ := parse_cases_of_names hv
    · have hnot : ¬Acceptable s := fun hvalid ↦ hvalid.nonempty hblank
      refine ⟨fun t ↦ ?_, ?_, ?_, ?_, hstable⟩ <;>
        simp only [hv.exists_iff, hsome, hrefused.iff_eq] <;> simp [hrefused.ne_ok, hblank, hnot]
    · refine ⟨fun t ↦ ?_, ?_, ?_, ?_, hstable⟩ <;>
        simp only [hv.exists_iff, hsome, hrefused.iff_eq] <;> simp [hrefused.ne_ok, hblank, hnot]
    · have hfound : ∀ t, parse (some v) = .ok t ↔ t = Text.trim s := fun t ↦ by
        rw [hok, Except.ok.injEq, eq_comm]
      refine ⟨fun t ↦ ?_, ?_, ?_, ?_, hstable⟩ <;>
        simp only [hv.exists_iff, hsome, hfound, not_refused_of_ok hok] <;>
        simp [hvalid, hvalid.nonempty]
  · have hrefused := refused_of_unnamed h hnamed
    have hnone : ∀ p : String → Prop, ¬∃ v ∈ params, ∃ s, Names v s ∧ p s :=
      fun p ⟨v, hv, s, hnames, _⟩ ↦ hnamed ⟨v, hv, s, hnames⟩
    refine ⟨fun t ↦ ?_, ?_, ?_, ?_, hstable⟩ <;>
      simp only [hnone, hnamed, hrefused.iff_eq] <;> simp [hrefused.ne_ok]

/-- The game 7 is named in an object by " 007 ". What is found is accepted again as the item of an
array, and so is the canonical form. -/
theorem parse_exact_seven :
    let params : Option Value := some (.obj [("game_id", .str " 007 ")])
    Distinct params ∧ parse params = .ok "007"
      ∧ parse (some (.arr [.str "007"])) = .ok "007"
      ∧ GameId.canonical "007" = "7"
      ∧ parse (some (.arr [.str "7"])) = .ok "7" := by
  intro params
  have hdistinct : Distinct params := by
    rintro members hmembers
    obtain rfl := Value.obj.inj (Option.some.inj hmembers)
    simp
  obtain ⟨hok, -, -, -, hstable⟩ := parse_exact hdistinct
  have hchars : (Text.trim " 007 ").toList.all GameId.isIdChar = true := by decide
  have hvalid : Acceptable " 007 " := ⟨by decide, by decide, fun c hc ↦
    GameId.isIdChar_iff.mp (List.all_eq_true.mp hchars c hc)⟩
  have hfound : parse params = .ok "007" :=
    (hok "007").mpr ⟨_, rfl, _, .object _, hvalid, by decide⟩
  have hcanonical : GameId.canonical "007" = "7" := by decide
  obtain ⟨hagain, -, -, -, hother⟩ := hstable "007" hfound
  rw [hcanonical] at hother
  exact ⟨hdistinct, hfound, hagain _ (.array _), hcanonical, hother _ (.array _)⟩

end Wire.GameParams

end GameBridge
