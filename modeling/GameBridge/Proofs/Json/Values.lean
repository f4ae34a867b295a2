import GameBridge.Proofs.Json.Strings
import Mathlib.Data.Fintype.Basic
import Mathlib.Tactic.FinCases

/-!
# Reading written values

A value without floating-point numbers is written as a text that holds one document,
`Value.document?`, and is read as that document. The printer and the two readers meet at the tokens
of the document: the lexer makes them of the text, and the builder makes the document of them.

A number is the only token that does not end by itself. After it the lexer is in another state than
between two tokens, but one in which it takes a comma, a bracket or a brace as if it were between
them, and nothing else comes after a value. `Lexer.Settled` says just that.
-/

namespace GameBridge.Json

/-! ## The document of a value -/

namespace Literal

/-- The digits of a natural number, the highest first. -/
def digits (n : Nat) : List Digit :=
  if n < 10 then [Fin.ofNat 10 n] else digits (n / 10) ++ [Fin.ofNat 10 n]

/-- An integer as it is written. -/
def ofInt (i : Int) : Literal := ⟨decide (i < 0), digits i.natAbs, [], none⟩

/-- Digits as they are written. -/
def digitChars (ds : List Digit) : List Char := ds.map fun d ↦ Nat.digitChar d.val

/-- Digits that can stand before the point: at least one, and no zero in front of others. -/
def Leads (ds : List Digit) : Prop := ds = [0] ∨ ∃ d rest, d ≠ 0 ∧ ds = d :: rest

/-- A literal that is being read, with more digits in one of its parts. -/
def extend (l : Literal) (part : NumberPart) (ds : List Digit) : Literal :=
  match part with
  | .fraction => { l with fraction := ds.reverse ++ l.fraction }
  | .power => { l with power := l.power.map fun (s, before) ↦ (s, ds.reverse ++ before) }
  | _ => { l with whole := ds.reverse ++ l.whole }

theorem extend_nil (l : Literal) (part : NumberPart) : l.extend part [] = l := by
  obtain ⟨negative, whole, fraction, - | ⟨sign, power⟩⟩ := l <;> cases part <;> rfl

theorem extend_cons (l : Literal) (part : NumberPart) (d : Digit) (ds : List Digit) :
    l.extend part (d :: ds) = (l.extend part [d]).extend part ds := by
  obtain ⟨negative, whole, fraction, - | ⟨sign, power⟩⟩ := l <;> cases part <;> simp [extend]

end Literal

namespace Value

mutual

/-- The document as which a value is written, if it has no floating-point numbers. -/
def document? : Value → Option Document
  | .null => some .null
  | .bool b => some (.bool b)
  | .int n => some (.num (.ofInt n.val))
  | .float _ => none
  | .str s => some (.str (some s))
  | .arr items => (itemDocuments? items).map .arr
  | .obj members => (memberDocuments? members).map .obj

/-- The documents of the items of an array. -/
def itemDocuments? : List Value → Option (List Document)
  | [] => some []
  | item :: rest =>
    match document? item, itemDocuments? rest with
    | some d, some ds => some (d :: ds)
    | _, _ => none

/-- The documents of the members of an object. -/
def memberDocuments? : List (String × Value) → Option Document.Members
  | [] => some []
  | (name, value) :: rest =>
    match document? value, memberDocuments? rest with
    | some d, some ds => some ((some name, d) :: ds)
    | _, _ => none

end

theorem itemDocuments?_cons {item : Value} {rest : List Value} {ds : List Document}
    (h : itemDocuments? (item :: rest) = some ds) :
    ∃ d more, item.document? = some d ∧ itemDocuments? rest = some more ∧ ds = d :: more := by
  rw [itemDocuments?] at h
  split at h
  · rename_i d more hitem hrest
    exact ⟨d, more, hitem, hrest, (Option.some.inj h).symm⟩
  · exact absurd h (by simp)

theorem memberDocuments?_cons {name : String} {value : Value} {rest : List (String × Value)}
    {ds : Document.Members} (h : memberDocuments? ((name, value) :: rest) = some ds) :
    ∃ d more, value.document? = some d ∧ memberDocuments? rest = some more
      ∧ ds = (some name, d) :: more := by
  rw [memberDocuments?] at h
  split at h
  · rename_i d more hvalue hrest
    exact ⟨d, more, hvalue, hrest, (Option.some.inj h).symm⟩
  · exact absurd h (by simp)

/-- A value without floating-point numbers. -/
def Exact (v : Value) : Prop := v.document?.isSome = true

@[simp] theorem exact_null : null.Exact := rfl

@[simp] theorem exact_bool (b : Bool) : (bool b).Exact := rfl

@[simp] theorem exact_str (s : String) : (str s).Exact := rfl

@[simp] theorem exact_ofInt64 (n : Int64) : (ofInt64 n).Exact := rfl

@[simp] theorem exact_ofUInt64 (n : UInt64) : (ofUInt64 n).Exact := rfl

@[simp] theorem exact_ofOption {α : Type} {make : α → Value} (h : ∀ a, (make a).Exact)
    (content : Option α) : (ofOption make content).Exact := by
  rcases content with - | a
  · rfl
  · exact h a

theorem exact_arr {items : List Value} (h : ∀ item ∈ items, item.Exact) : (arr items).Exact := by
  rw [Exact, document?, Option.isSome_map]
  induction items with
  | nil => rfl
  | cons item rest ih =>
    obtain ⟨hitem, hrest⟩ := List.forall_mem_cons.mp h
    obtain ⟨d, hd⟩ := Option.isSome_iff_exists.mp hitem
    obtain ⟨ds, hds⟩ := Option.isSome_iff_exists.mp (ih hrest)
    rw [itemDocuments?, hd, hds]
    rfl

theorem exact_arr_map {α : Type} {make : α → Value} (h : ∀ a, (make a).Exact) (list : List α) :
    (arr (list.map make)).Exact :=
  exact_arr (List.forall_mem_map.mpr fun a _ ↦ h a)

theorem exact_obj {members : List (String × Value)} (h : ∀ member ∈ members, member.2.Exact) :
    (obj members).Exact := by
  rw [Exact, document?, Option.isSome_map]
  induction members with
  | nil => rfl
  | cons member rest ih =>
    obtain ⟨hmember, hrest⟩ := List.forall_mem_cons.mp h
    obtain ⟨d, hd⟩ := Option.isSome_iff_exists.mp hmember
    obtain ⟨ds, hds⟩ := Option.isSome_iff_exists.mp (ih hrest)
    rw [memberDocuments?, hd, hds]
    rfl

/-- The order in which members are put into an object makes no difference to this. -/
theorem exact_object {members : List (String × Value)} (h : ∀ member ∈ members, member.2.Exact) :
    (object members).Exact := by
  have hall : ∀ before : List (String × Value), (∀ entry ∈ before, entry.2.Exact) →
      ∀ entry ∈ members.foldl (fun entries member ↦ insertEntry member.1 member.2 entries) before,
        entry.2.Exact := by
    induction members with
    | nil => exact fun _ hbefore ↦ hbefore
    | cons member rest ih =>
      obtain ⟨hmember, hrest⟩ := List.forall_mem_cons.mp h
      intro before hbefore
      refine ih hrest _ fun entry hentry ↦ ?_
      rcases mem_insertEntry hentry with rfl | hentry
      · exact hmember
      · exact hbefore entry hentry
  exact exact_obj (hall [] fun _ hentry ↦ absurd hentry List.not_mem_nil)

end Value

/-! ## The tokens of a document -/

namespace Document

mutual

/-- The tokens of a document. -/
def tokens : Document → List Token
  | .null => [.null]
  | .bool b => [.bool b]
  | .num l => [.num l]
  | .str s => [.str s]
  | .arr [] => [.openArray, .closeArray]
  | .arr (item :: rest) => .openArray :: (tokens item ++ moreItems rest)
  | .obj [] => [.openObject, .closeObject]
  | .obj ((name, d) :: rest) =>
    .openObject :: .str name :: .colon :: (tokens d ++ moreMembers rest)

/-- The tokens of the further items of an array, and of its end. -/
def moreItems : List Document → List Token
  | [] => [.closeArray]
  | item :: rest => .comma :: (tokens item ++ moreItems rest)

/-- The tokens of the further members of an object, and of its end. -/
def moreMembers : Members → List Token
  | [] => [.closeObject]
  | (name, d) :: rest => .comma :: .str name :: .colon :: (tokens d ++ moreMembers rest)

end

/-! ## Building -/

namespace Builder

/-- The builder after more tokens. -/
def feed (builder : Builder) (tokens : List Token) : Option Builder := tokens.foldlM step builder

theorem feed_cons {first next : Builder} {token : Token} (h : first.step token = some next)
    (rest : List Token) : first.feed (token :: rest) = next.feed rest := by
  rw [feed, List.foldlM_cons, h]
  rfl

/-- The first item of an array begins like any value. -/
theorem step_eq_beginValue? {frames : List Frame} {phase : Phase} {token : Token}
    (hphase : phase = .value ∨ phase = .first) (htoken : token ≠ .closeArray) :
    step ⟨frames, phase⟩ token = beginValue? frames token := by
  rcases hphase with rfl | rfl
  · rfl
  · rcases frames with - | ⟨before | ⟨before, name⟩, frames⟩
    · rfl
    · cases token with
      | closeArray => exact absurd rfl htoken
      | _ => rfl
    · rfl

mutual

/-- **The tokens of a document** are built into it, whatever it stands in and whatever follows. -/
theorem feed_tokens (d : Document) (frames : List Frame) {phase : Phase}
    (hphase : phase = .value ∨ phase = .first) (rest : List Token) :
    feed ⟨frames, phase⟩ (d.tokens ++ rest) = feed ⟨frames, .complete d⟩ rest := by
  match d with
  | .null => exact feed_cons (step_eq_beginValue? hphase (by simp)) rest
  | .bool b => exact feed_cons (step_eq_beginValue? hphase (by simp)) rest
  | .num l => exact feed_cons (step_eq_beginValue? hphase (by simp)) rest
  | .str s => exact feed_cons (step_eq_beginValue? hphase (by simp)) rest
  | .arr [] =>
    rw [tokens, List.cons_append, feed_cons (step_eq_beginValue? hphase (by simp))]
    rfl
  | .arr (item :: items) =>
    rw [tokens, List.cons_append, feed_cons (step_eq_beginValue? hphase (by simp)),
      List.append_assoc, feed_tokens item _ (Or.inr rfl), feed_moreItems items]
    rfl
  | .obj [] =>
    rw [tokens, List.cons_append, feed_cons (step_eq_beginValue? hphase (by simp))]
    rfl
  | .obj ((name, d) :: members) =>
    rw [tokens, List.cons_append, feed_cons (step_eq_beginValue? hphase (by simp))]
    have hvalue := feed_tokens d (.member [] name :: frames) (Or.inl rfl)
      (moreMembers members ++ rest)
    rw [List.cons_append, List.cons_append, List.append_assoc]
    exact hvalue.trans (feed_moreMembers members [] name d frames rest)

theorem feed_moreItems (items before : List Document) (d : Document) (frames : List Frame)
    (rest : List Token) :
    feed ⟨.item before :: frames, .complete d⟩ (moreItems items ++ rest)
      = feed ⟨frames, .complete (.arr (before.reverse ++ d :: items))⟩ rest := by
  match items with
  | [] =>
    rw [← List.reverse_cons]
    rfl
  | item :: items =>
    have hitem := feed_tokens item (.item (d :: before) :: frames) (Or.inl rfl)
      (moreItems items ++ rest)
    rw [moreItems, List.cons_append, List.append_assoc]
    refine hitem.trans ((feed_moreItems items (d :: before) item frames rest).trans ?_)
    rw [List.reverse_cons, List.append_assoc, List.singleton_append]

theorem feed_moreMembers (members before : Members) (name : Option String) (d : Document)
    (frames : List Frame) (rest : List Token) :
    feed ⟨.member before name :: frames, .complete d⟩ (moreMembers members ++ rest)
      = feed ⟨frames, .complete (.obj (before.reverse ++ (name, d) :: members))⟩ rest := by
  match members with
  | [] =>
    rw [← List.reverse_cons]
    rfl
  | (next, d') :: members =>
    have hvalue := feed_tokens d' (.member ((name, d) :: before) next :: frames) (Or.inl rfl)
      (moreMembers members ++ rest)
    rw [moreMembers, List.cons_append, List.cons_append, List.cons_append, List.append_assoc]
    refine hvalue.trans
      ((feed_moreMembers members ((name, d) :: before) next d' frames rest).trans ?_)
    rw [List.reverse_cons, List.append_assoc, List.singleton_append]

end

end Builder

theorem ofTokens?_tokens (d : Document) : ofTokens? d.tokens = some d := by
  have hfeed := Builder.feed_tokens d [] (Or.inl rfl) []
  rw [List.append_nil, Builder.feed] at hfeed
  rw [ofTokens?, Builder.start, hfeed]
  rfl

end Document

/-! ## Reading integers -/

theorem natChars_eq_digitChars (n : Nat) :
    Decimal.natChars n = Literal.digitChars (Literal.digits n) := by
  rw [Decimal.natChars, Literal.digitChars]
  induction n using Literal.digits.induct with
  | case1 n hsmall =>
    rw [Literal.digits, if_pos hsmall, Nat.toDigits_of_lt_base hsmall, List.map_singleton,
      Fin.val_ofNat, Nat.mod_eq_of_lt hsmall]
  | case2 n hlarge ih =>
    rw [Literal.digits, if_neg hlarge,
      Nat.toDigits_of_base_le (by decide) (Nat.not_lt.mp hlarge), ih, List.map_append,
      List.map_singleton, Fin.val_ofNat]

theorem digits_cases (n : Nat) :
    n = 0 ∧ Literal.digits n = [0] ∨ ∃ d rest, d ≠ 0 ∧ Literal.digits n = d :: rest := by
  induction n using Literal.digits.induct with
  | case1 n hsmall =>
    rw [Literal.digits, if_pos hsmall]
    rcases Decidable.em (n = 0) with rfl | hn
    · exact Or.inl ⟨rfl, rfl⟩
    · refine Or.inr ⟨_, [], fun hzero ↦ hn ?_, rfl⟩
      rw [← Nat.mod_eq_of_lt hsmall, ← Fin.val_ofNat, hzero]
      rfl
  | case2 n hlarge ih =>
    rw [Literal.digits, if_neg hlarge]
    obtain ⟨hzero, -⟩ | ⟨d, rest, hd, hdigits⟩ := ih
    · omega
    · exact Or.inr ⟨d, rest ++ [Fin.ofNat 10 n], hd, by rw [hdigits]; rfl⟩

theorem leads_digits (n : Nat) : Literal.Leads (Literal.digits n) :=
  (digits_cases n).imp And.right id

theorem charBytes_digitChar (d : Digit) :
    Text.charBytes (Nat.digitChar d.val) = [ascii (Nat.digitChar d.val)]
      ∧ digit? (ascii (Nat.digitChar d.val)) = some d := by
  revert d
  decide

namespace Lexer

/-- The lexer ends, or goes on with what may follow a value, as it does after some tokens. The last
of them may be a number that is still open. -/
structure Settled (lexer : Lexer) (tokens : List Token) : Prop where
  finish : lexer.finish? = some tokens.reverse
  step : ∀ b ∈ [ascii ',', ascii ']', ascii '\x7d'], lexer.step b = begin? tokens b

theorem settled_between (tokens : List Token) : Settled ⟨.between, tokens⟩ tokens where
  finish := rfl
  step _ _ := rfl

/-- A whole number may be open at the end of a value. -/
theorem settled_number {part : NumberPart} (hpart : part = .zero ∨ part = .whole)
    (draft : Literal) (tokens : List Token) :
    Settled ⟨.number part draft, tokens⟩ (.num draft.finish :: tokens) := by
  constructor
  case finish => rcases hpart with rfl | rfl <;> rfl
  case step =>
    intro b hb
    simp only [List.mem_cons, List.not_mem_nil, or_false] at hb
    rcases hpart with rfl | rfl <;> rcases hb with rfl | rfl | rfl <;> rfl

/-- A number without a sign is read like one after its sign. -/
private theorem begin?_digitChar (d : Digit) (tokens : List Token) :
    begin? tokens (ascii (Nat.digitChar d.val))
      = step ⟨.number .minus (.start false), tokens⟩ (ascii (Nat.digitChar d.val)) := by
  fin_cases d <;> rfl

/-- Digits are taken into the part of the number in which they stand. -/
theorem feed_digits {part : NumberPart} (hpart : part = .whole ∨ part = .fraction ∨ part = .power)
    (ds : List Digit) (draft : Literal) (tokens : List Token) :
    feed ⟨.number part draft, tokens⟩ ((Literal.digitChars ds).flatMap Text.charBytes)
      = some ⟨.number part (draft.extend part ds), tokens⟩ := by
  induction ds generalizing draft with
  | nil =>
    rw [Literal.extend_nil]
    rfl
  | cons d rest ih =>
    have hstep : step ⟨.number part draft, tokens⟩ (ascii (Nat.digitChar d.val))
        = some ⟨.number part (draft.extend part [d]), tokens⟩ := by
      rcases hpart with rfl | rfl | rfl <;> fin_cases d <;> rfl
    rw [Literal.digitChars, List.map_cons, List.flatMap_cons, (charBytes_digitChar d).1,
      List.singleton_append, feed_cons, hstep, Option.bind_some, ← Literal.digitChars, ih,
      ← Literal.extend_cons]

/-- After the sign, the digits before the point are read up to the last one. -/
theorem feed_whole {ds : List Digit} (hds : Literal.Leads ds) (negative : Bool)
    (tokens : List Token) :
    ∃ part, (part = .zero ∨ part = .whole)
      ∧ feed ⟨.number .minus (.start negative), tokens⟩
          ((Literal.digitChars ds).flatMap Text.charBytes)
        = some ⟨.number part ⟨negative, ds.reverse, [], none⟩, tokens⟩ := by
  rcases hds with rfl | ⟨d, rest, hd, rfl⟩
  · exact ⟨.zero, Or.inl rfl, rfl⟩
  · have hstep : step ⟨.number .minus (.start negative), tokens⟩ (ascii (Nat.digitChar d.val))
        = some ⟨.number .whole ⟨negative, [d], [], none⟩, tokens⟩ := by
      fin_cases d
      · exact absurd rfl hd
      all_goals rfl
    refine ⟨.whole, Or.inr rfl, ?_⟩
    rw [Literal.digitChars, List.map_cons, List.flatMap_cons, (charBytes_digitChar d).1,
      List.singleton_append, feed_cons, hstep, Option.bind_some, ← Literal.digitChars,
      feed_digits (Or.inl rfl), List.reverse_cons]
    rfl

/-- Without a sign, the first digit is taken as it would be after one. -/
theorem feed_unsigned {ds : List Digit} (hds : Literal.Leads ds) (tokens : List Token) :
    feed ⟨.between, tokens⟩ ((Literal.digitChars ds).flatMap Text.charBytes)
      = feed ⟨.number .minus (.start false), tokens⟩
          ((Literal.digitChars ds).flatMap Text.charBytes) := by
  obtain ⟨d, rest, rfl⟩ : ∃ d rest, ds = d :: rest := by
    rcases hds with rfl | ⟨d, rest, -, rfl⟩
    · exact ⟨0, [], rfl⟩
    · exact ⟨d, rest, rfl⟩
  rw [Literal.digitChars, List.map_cons, List.flatMap_cons, (charBytes_digitChar d).1,
    List.singleton_append, feed_cons, feed_cons, ← begin?_digitChar]
  rfl

/-- **A written integer** is one token. -/
theorem feed_intChars (i : Int) (tokens : List Token) :
    ∃ lexer, feed ⟨.between, tokens⟩ ((Decimal.intChars i).flatMap Text.charBytes) = some lexer
      ∧ lexer.Settled (.num (.ofInt i) :: tokens) := by
  have hfinish : ∀ (n : Nat) (negative : Bool),
      Literal.finish ⟨negative, (Literal.digits n).reverse, [], none⟩
        = ⟨negative, Literal.digits n, [], none⟩ := by
    intro n negative
    rw [Literal.finish, List.reverse_reverse]
    rfl
  rcases i with n | n
  · obtain ⟨part, hpart, hfeed⟩ := feed_whole (leads_digits n) false tokens
    have hsettled := settled_number hpart ⟨false, (Literal.digits n).reverse, [], none⟩ tokens
    rw [hfinish] at hsettled
    refine ⟨_, ?_, hsettled⟩
    rw [Decimal.intChars, natChars_eq_digitChars, feed_unsigned (leads_digits n)]
    exact hfeed
  · obtain ⟨part, hpart, hfeed⟩ := feed_whole (leads_digits (n + 1)) true tokens
    rw [← natChars_eq_digitChars] at hfeed
    have hsettled := settled_number hpart ⟨true, (Literal.digits (n + 1)).reverse, [], none⟩ tokens
    rw [hfinish] at hsettled
    have hsign : feed ⟨.between, tokens⟩ (Text.charBytes '-')
        = some ⟨.number .minus (.start true), tokens⟩ := rfl
    rw [Literal.ofInt, decide_eq_true (Int.negSucc_lt_zero n), Int.natAbs_negSucc]
    exact ⟨_, feed_trans hsign hfeed, hsettled⟩

/-! ## Reading values -/

/-- What may follow a value is taken as if the value was complete. -/
theorem Settled.feed_cons {lexer : Lexer} {tokens : List Token} (h : lexer.Settled tokens)
    {c : Char} (hc : c ∈ [',', ']', '\x7d']) (rest : List Char) :
    lexer.feed ((c :: rest).flatMap Text.charBytes)
      = feed ⟨.between, tokens⟩ ((c :: rest).flatMap Text.charBytes) := by
  have hbytes : Text.charBytes c = [ascii c] ∧ ascii c ∈ [',', ']', '\x7d'].map ascii := by
    simp only [List.mem_cons, List.not_mem_nil, or_false] at hc
    rcases hc with rfl | rfl | rfl <;> exact ⟨rfl, by decide⟩
  rw [List.flatMap_cons, hbytes.1, List.singleton_append, Lexer.feed_cons, h.step _ hbytes.2]
  rfl

/-- A name with the colon after it. -/
private theorem feed_name (name : String) (tokens : List Token) :
    feed ⟨.between, tokens⟩ ((stringChars name ++ [':']).flatMap Text.charBytes)
      = some ⟨.between, .colon :: .str (some name) :: tokens⟩ := by
  have hcolon : feed ⟨.between, .str (some name) :: tokens⟩ (Text.charBytes ':')
      = some ⟨.between, .colon :: .str (some name) :: tokens⟩ := rfl
  rw [List.flatMap_append, List.flatMap_singleton, feed_trans (feed_stringChars name tokens) hcolon]

mutual

/-- **A written value** has the tokens of its document. -/
theorem feed_chars (v : Value) {d : Document} (h : v.document? = some d) (tokens : List Token) :
    ∃ lexer, feed ⟨.between, tokens⟩ (v.chars.flatMap Text.charBytes) = some lexer
      ∧ lexer.Settled (d.tokens.reverse ++ tokens) := by
  match v with
  | .null =>
    obtain rfl := Option.some.inj h
    exact ⟨_, rfl, settled_between _⟩
  | .bool true =>
    obtain rfl := Option.some.inj h
    exact ⟨_, rfl, settled_between _⟩
  | .bool false =>
    obtain rfl := Option.some.inj h
    exact ⟨_, rfl, settled_between _⟩
  | .int n =>
    obtain rfl := Option.some.inj h
    exact feed_intChars n.val tokens
  | .float _ => exact absurd h (by simp [Value.document?])
  | .str s =>
    obtain rfl := Option.some.inj h
    exact ⟨_, feed_stringChars s tokens, settled_between _⟩
  | .arr [] =>
    obtain rfl := Option.some.inj h
    exact ⟨_, rfl, settled_between _⟩
  | .arr (item :: items) =>
    obtain ⟨ds, hds, rfl⟩ := Option.map_eq_some_iff.mp h
    obtain ⟨d, more, hitem, hitems, rfl⟩ := Value.itemDocuments?_cons hds
    have hopen : feed ⟨.between, tokens⟩ (Text.charBytes '[')
        = some ⟨.between, .openArray :: tokens⟩ := rfl
    obtain ⟨lexer, hfeed, hsettled⟩ := feed_chars item hitem (.openArray :: tokens)
    have hmore := feed_moreItems items hitems hsettled
    have hall := feed_trans hopen (feed_trans hfeed hmore)
    refine ⟨_, ?_, settled_between _⟩
    simpa [Value.chars, Document.tokens] using hall
  | .obj [] =>
    obtain rfl := Option.some.inj h
    exact ⟨_, rfl, settled_between _⟩
  | .obj ((name, value) :: members) =>
    obtain ⟨ds, hds, rfl⟩ := Option.map_eq_some_iff.mp h
    obtain ⟨d, more, hvalue, hmembers, rfl⟩ := Value.memberDocuments?_cons hds
    have hopen : feed ⟨.between, tokens⟩ (Text.charBytes '\x7b')
        = some ⟨.between, .openObject :: tokens⟩ := rfl
    obtain ⟨lexer, hfeed, hsettled⟩ := feed_chars value hvalue _
    have hmore := feed_moreMembers members hmembers hsettled
    have hall := feed_trans (feed_trans hopen (feed_name name _)) (feed_trans hfeed hmore)
    refine ⟨_, ?_, settled_between _⟩
    simpa [Value.chars, Document.tokens] using hall

theorem feed_moreItems (items : List Value) {ds : List Document}
    (h : Value.itemDocuments? items = some ds) {lexer : Lexer} {tokens : List Token}
    (hlexer : lexer.Settled tokens) :
    lexer.feed ((Value.moreItems items).flatMap Text.charBytes)
      = some ⟨.between, (Document.moreItems ds).reverse ++ tokens⟩ := by
  match items with
  | [] =>
    obtain rfl := Option.some.inj h
    exact hlexer.feed_cons (by decide) []
  | item :: items =>
    obtain ⟨d, more, hitem, hitems, rfl⟩ := Value.itemDocuments?_cons h
    have hcomma : feed ⟨.between, tokens⟩ (Text.charBytes ',')
        = some ⟨.between, .comma :: tokens⟩ := rfl
    obtain ⟨last, hfeed, hsettled⟩ := feed_chars item hitem (.comma :: tokens)
    have hmore := feed_moreItems items hitems hsettled
    have hall := feed_trans hcomma (feed_trans hfeed hmore)
    rw [Value.moreItems, List.cons_append, hlexer.feed_cons List.mem_cons_self]
    simpa [Document.moreItems] using hall

theorem feed_moreMembers (members : List (String × Value)) {ds : Document.Members}
    (h : Value.memberDocuments? members = some ds) {lexer : Lexer} {tokens : List Token}
    (hlexer : lexer.Settled tokens) :
    lexer.feed ((Value.moreMembers members).flatMap Text.charBytes)
      = some ⟨.between, (Document.moreMembers ds).reverse ++ tokens⟩ := by
  match members with
  | [] =>
    obtain rfl := Option.some.inj h
    exact hlexer.feed_cons (by decide) []
  | (name, value) :: members =>
    obtain ⟨d, more, hvalue, hmembers, rfl⟩ := Value.memberDocuments?_cons h
    have hcomma : feed ⟨.between, tokens⟩ (Text.charBytes ',')
        = some ⟨.between, .comma :: tokens⟩ := rfl
    obtain ⟨last, hfeed, hsettled⟩ := feed_chars value hvalue _
    have hmore := feed_moreMembers members hmembers hsettled
    have hall := feed_trans (feed_trans hcomma (feed_name name _)) (feed_trans hfeed hmore)
    rw [Value.moreMembers, List.cons_append, List.cons_append,
      hlexer.feed_cons List.mem_cons_self]
    simpa [Document.moreMembers] using hall

end

end Lexer

/-! ## The round trip -/

namespace Value

/-- **A written value** is read as its document. -/
theorem read?_chars {v : Value} {d : Document} (h : v.document? = some d) :
    Document.read? (v.chars.flatMap Text.charBytes) = some d := by
  obtain ⟨lexer, hfeed, hsettled⟩ := Lexer.feed_chars v h []
  have hscan : Token.scan? (v.chars.flatMap Text.charBytes) = some d.tokens := by
    rw [Lexer.feed] at hfeed
    rw [Token.scan?, Lexer.start, hfeed, Option.bind_some, hsettled.finish, List.append_nil,
      List.reverse_reverse]
  rw [Document.read?, hscan, Option.bind_some, Document.ofTokens?_tokens]

end Value

end GameBridge.Json
