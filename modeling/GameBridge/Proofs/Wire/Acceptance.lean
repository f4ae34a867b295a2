import GameBridge.Proofs.Json.Grammar
import GameBridge.Proofs.Json.Meaning
import GameBridge.Proofs.Wire.RoundTrip
import Mathlib.Data.List.Forall2
import Mathlib.Data.List.Perm.Basic

/-!
# Which documents are requests

`Request.Holds` says in which documents the four fields of a request are found: in an object whose
members are these fields in any order, and in an array of them in their order. The last two fields
can be missing. `Fields.Acceptable` says what may be written in them, and `Fields.Reads` what is
read from them.

The reader looks every field up by its name. An object in which no name comes twice and no other
name comes at all is determined by what is looked up, up to the order of its members
(`Request.holds_iff`), so the reader accepts just these documents, and it does not see their order.
-/

namespace GameBridge

open Json

namespace Json

/-! ## Looking members up -/

theorem Document.lookup_eq_some_iff {members : Members} (h : (members.map Prod.fst).Nodup)
    (name : Option String) (d : Document) :
    members.lookup name = some d ↔ (name, d) ∈ members := by
  induction members with
  | nil => simp
  | cons member rest ih =>
    obtain ⟨key, e⟩ := member
    obtain ⟨hkey, hrest⟩ := List.nodup_cons.mp h
    rw [List.lookup_cons, List.mem_cons, Prod.mk.injEq, ← ih hrest]
    by_cases hname : name = key
    · subst hname
      have hnone : rest.lookup name ≠ some d := fun hfound ↦
        hkey (List.mem_map.mpr ⟨_, (ih hrest).mp hfound, rfl⟩)
      simp [hnone, eq_comm]
    · rw [beq_eq_false_iff_ne.mpr hname]
      simp [hname]

theorem Document.lookup_perm {members others : Members} (h : members.Perm others)
    (hdistinct : (members.map Prod.fst).Nodup) (name : Option String) :
    members.lookup name = others.lookup name := by
  have hothers := (h.map Prod.fst).nodup_iff.mp hdistinct
  ext1 d
  rw [lookup_eq_some_iff hdistinct, lookup_eq_some_iff hothers, h.mem_iff]

theorem Layout.nodup_names {layout : Layout} (hclosed : layout.closed = true)
    {members : Document.Members} (hall : ∀ member ∈ members, layout.admits member.1 = true)
    (hcount : ∀ name ∈ layout.names, count name members ≤ 1) :
    (members.map Prod.fst).Nodup := by
  rw [List.nodup_iff_count_le_one]
  intro key
  by_cases hkey : key ∈ members.map Prod.fst
  · obtain ⟨member, hmember, rfl⟩ := List.mem_map.mp hkey
    have hadmitted := hall member hmember
    cases hname : member.1 with
    | none => simp [admits, hname] at hadmitted
    | some name =>
      have hlisted : name ∈ layout.names := by simpa [admits, hname, hclosed] using hadmitted
      rw [List.count, List.countP_map]
      exact hcount name hlisted
  · rw [List.count_eq_zero_of_not_mem hkey]
    exact Nat.zero_le 1

end Json

namespace Wire.Request

/-! ## The fields of a request -/

/-- What is written in the fields of a request. -/
structure Fields where
  /-- The version of the protocol. -/
  version : Document
  /-- The method. -/
  method : Document
  /-- The id, if there is one. -/
  id : Option Document
  /-- The parameters, if there are any. -/
  params : Option Document

/-- The members of the object in which fields are written in their order. -/
def Fields.members (fields : Fields) : Document.Members :=
  (some "protocol_version", fields.version) :: (some "method", fields.method)
    :: ((fields.id.map fun d ↦ (some "id", d)).toList
      ++ (fields.params.map fun d ↦ (some "params", d)).toList)

/-- The documents that hold the fields of a request. -/
inductive Holds : Document → Fields → Prop
  /-- An object with the fields as its members, in any order. -/
  | object {members : Document.Members} {fields : Fields} (h : members.Perm fields.members) :
      Holds (.obj members) fields
  /-- An array of the fields that have to be there. -/
  | two (version method : Document) : Holds (.arr [version, method]) ⟨version, method, none, none⟩
  /-- An array of these and an id. -/
  | three (version method id : Document) :
      Holds (.arr [version, method, id]) ⟨version, method, some id, none⟩
  /-- An array of all fields. -/
  | four (version method id params : Document) :
      Holds (.arr [version, method, id, params]) ⟨version, method, some id, some params⟩

namespace Fields

/-- A field in which there is nothing. -/
def Absent (field : Option Document) : Prop := field = none ∨ field = some .null

/-- A method is named by a text, or by the only member of an object with nothing in it. -/
def Names (d : Document) (method : Method) : Prop :=
  d = .str (some method.name) ∨ d = .obj [(some method.name, .null)]

/-- Fields from which a request can be read. -/
structure Acceptable (fields : Fields) : Prop where
  /-- The version is a natural number below `2 ^ 32`, written with its digits alone. -/
  version : ∃ digits, fields.version = .num ⟨false, digits, [], none⟩
    ∧ Literal.ofDigits digits < UInt32.size
  /-- The method is named. -/
  method : ∃ method ∈ Method.all, Names fields.method method
  /-- The id is a text, or there is none. -/
  id : Absent fields.id ∨ ∃ text, fields.id = some (.str (some text))

/-- The request that is read from fields. -/
structure Reads (fields : Fields) (request : Request) : Prop where
  /-- The version is the number that the digits denote. -/
  version : ∃ digits, fields.version = .num ⟨false, digits, [], none⟩
    ∧ request.version.toNat = Literal.ofDigits digits
  /-- The method is the one that is named. -/
  method : Names fields.method request.method
  /-- The id is the text. -/
  id : Absent fields.id ∧ request.id = none
    ∨ ∃ text, fields.id = some (.str (some text)) ∧ request.id = some text
  /-- The parameters are a value that is not `null`. -/
  params : Absent fields.params ∧ request.params = none
    ∨ ∃ d v, fields.params = some d ∧ d ≠ .null ∧ Value.ofDocument? (maxDepth - 1) d = some v
      ∧ request.params = some v

theorem nodup_members (fields : Fields) : (fields.members.map Prod.fst).Nodup := by
  obtain ⟨version, method, - | id, - | params⟩ := fields <;> simp [members]

theorem admits_members (fields : Fields) :
    ∀ member ∈ fields.members, layout.admits member.1 = true := by
  obtain ⟨version, method, - | id, - | params⟩ := fields <;>
    simp [members, layout, Layout.admits]

theorem lookup_members (fields : Fields) :
    fields.members.lookup (some "protocol_version") = some fields.version
      ∧ fields.members.lookup (some "method") = some fields.method
      ∧ fields.members.lookup (some "id") = fields.id
      ∧ fields.members.lookup (some "params") = fields.params := by
  obtain ⟨version, method, - | id, - | params⟩ := fields <;> exact ⟨rfl, rfl, rfl, rfl⟩

end Fields

/-! ## Finding the fields -/

/-- An object holds fields if it is closed, no name comes twice, and the fields are what is looked
up. -/
theorem perm_members_iff {members : Document.Members} {fields : Fields} :
    members.Perm fields.members
      ↔ (∀ member ∈ members, layout.admits member.1 = true)
        ∧ (∀ name ∈ layout.names, Layout.count name members ≤ 1)
        ∧ members.lookup (some "protocol_version") = some fields.version
        ∧ members.lookup (some "method") = some fields.method
        ∧ members.lookup (some "id") = fields.id
        ∧ members.lookup (some "params") = fields.params := by
  constructor
  · intro h
    have hdistinct := (h.map Prod.fst).nodup_iff.mpr fields.nodup_members
    refine ⟨fun member hmember ↦ fields.admits_members member (h.mem_iff.mp hmember),
      fun name _ ↦ ?_, ?_⟩
    · have hcount := List.nodup_iff_count_le_one.mp hdistinct (some name)
      rwa [List.count, List.countP_map] at hcount
    · simp only [Document.lookup_perm h hdistinct]
      exact fields.lookup_members
  · rintro ⟨hall, hcount, hversion, hmethod, hid, hparams⟩
    have hdistinct := Layout.nodup_names rfl hall hcount
    obtain ⟨hversion', hmethod', hid', hparams'⟩ := fields.lookup_members
    have hlookup : ∀ key, members.lookup key = fields.members.lookup key := by
      intro key
      by_cases hadmitted : layout.admits key = true
      · obtain - | name := key
        · exact absurd hadmitted (by decide)
        have hname : name ∈ layout.names := by simpa [Layout.admits, layout] using hadmitted
        simp only [layout, List.mem_cons, List.not_mem_nil, or_false] at hname
        rcases hname with rfl | rfl | rfl | rfl
        · exact hversion.trans hversion'.symm
        · exact hmethod.trans hmethod'.symm
        · exact hid.trans hid'.symm
        · exact hparams.trans hparams'.symm
      · -- another name is in neither of them
        ext1 d
        rw [Document.lookup_eq_some_iff hdistinct,
          Document.lookup_eq_some_iff fields.nodup_members]
        exact iff_of_false (fun hmem ↦ hadmitted (hall _ hmem))
          fun hmem ↦ hadmitted (fields.admits_members _ hmem)
    rw [List.perm_ext_iff_of_nodup (hdistinct.of_map _) (fields.nodup_members.of_map _)]
    rintro ⟨key, d⟩
    rw [← Document.lookup_eq_some_iff hdistinct, hlookup,
      Document.lookup_eq_some_iff fields.nodup_members]

/-- An array holds fields if they are its items, in their order. -/
theorem holds_arr_iff {items : List Document} {fields : Fields} :
    Holds (.arr items) fields ↔ (2 ≤ items.length ∧ items.length ≤ 4)
      ∧ (layout.names.zip items).lookup "protocol_version" = some fields.version
      ∧ (layout.names.zip items).lookup "method" = some fields.method
      ∧ (layout.names.zip items).lookup "id" = fields.id
      ∧ (layout.names.zip items).lookup "params" = fields.params := by
  obtain ⟨version, method, id, params⟩ := fields
  constructor
  · intro h
    cases h <;> exact ⟨by simp, rfl, rfl, rfl, rfl⟩
  · rintro ⟨hlength, hversion, hmethod, hid, hparams⟩
    obtain - | ⟨a, - | ⟨b, - | ⟨c, - | ⟨d, - | ⟨e, rest⟩⟩⟩⟩⟩ := items
    · exact absurd hlength.1 (by simp)
    · exact absurd hlength.1 (by simp)
    · cases hversion; cases hmethod; cases hid; cases hparams
      exact .two _ _
    · cases hversion; cases hmethod; cases hid; cases hparams
      exact .three _ _ _
    · cases hversion; cases hmethod; cases hid; cases hparams
      exact .four _ _ _ _
    · simp only [List.length_cons] at hlength
      omega

/-- **A document** holds fields just if these are what the reader looks up in it. -/
theorem holds_iff {d : Document} {fields : Fields} :
    Holds d fields ↔ ∃ field, layout.fields? d = some field
      ∧ field "protocol_version" = some fields.version ∧ field "method" = some fields.method
      ∧ field "id" = fields.id ∧ field "params" = fields.params := by
  cases d with
  | obj members =>
    have hholds : Holds (.obj members) fields ↔ members.Perm fields.members :=
      ⟨fun h ↦ by cases h; assumption, .object⟩
    rw [hholds, perm_members_iff]
    simp [Layout.fields?, and_assoc]
  | arr items =>
    rw [holds_arr_iff]
    simp [Layout.fields?, layout, and_assoc]
  | _ => exact iff_of_false (fun h ↦ by cases h) (by simp [Layout.fields?])

/-! ## Reading the fields -/

/-- **The version** is a natural number below `2 ^ 32` that is written with its digits alone. -/
theorem version?_eq_some_iff {d : Document} {version : UInt32} :
    version? d = some version ↔ ∃ digits, d = .num ⟨false, digits, [], none⟩
      ∧ version.toNat = Literal.ofDigits digits := by
  rw [version?, Option.bind_eq_some_iff]
  constructor
  · rintro ⟨n, hn, hversion⟩
    obtain ⟨l, rfl, hnumber⟩ := Document.integer?_eq_some_iff.mp hn
    obtain ⟨⟨hlower, hupper⟩, heq⟩ := Option.ite_none_right_eq_some.mp hversion
    obtain ⟨hplain, hzero, hval⟩ := Literal.number?_eq_int_iff.mp hnumber
    obtain ⟨negative, whole, fraction, power⟩ := l
    obtain ⟨rfl, rfl⟩ : fraction = [] ∧ power = none := by simpa [Literal.isPlain] using hplain
    -- with a sign the number would be zero, and `-0` is not an integer
    obtain rfl : negative = false := by
      cases negative with
      | false => rfl
      | true => exact absurd ⟨rfl, by simp only [if_true] at hval; omega⟩ hzero
    have hdigits : n.val = Literal.ofDigits whole := hval
    refine ⟨whole, rfl, ?_⟩
    rw [hdigits] at hupper
    rw [← Option.some.inj heq, hdigits, Int.toNat_natCast,
      UInt32.toNat_ofNat_of_lt' (Int.ofNat_lt.mp hupper)]
  · rintro ⟨digits, rfl, hversion⟩
    have hnumber : (Literal.mk false digits [] none).number?
        = some (.int (.ofUInt64 version.toUInt64)) := by
      refine Literal.number?_eq_int_iff.mpr ⟨rfl, by simp, ?_⟩
      rw [Integer.val_ofUInt64, UInt32.toNat_toUInt64, hversion]
      rfl
    refine ⟨.ofUInt64 version.toUInt64, Document.integer?_eq_some_iff.mpr ⟨_, rfl, hnumber⟩, ?_⟩
    rw [Integer.val_ofUInt64, UInt32.toNat_toUInt64, Int.toNat_natCast, UInt32.ofNat_toNat]
    exact if_pos ⟨Int.natCast_nonneg _, Int.ofNat_lt.mpr version.toNat_lt_size⟩

/-- **The method** is one that is named. -/
theorem ofDocument?_method_eq_some_iff {d : Document} {method : Method} :
    Method.ofDocument? d = some method ↔ Fields.Names d method := by
  have hname : ∀ {name : String}, Method.ofName? name = some method ↔ name = method.name := by
    intro name
    constructor
    · intro h
      rw [Method.ofName?] at h
      have hfound := List.find?_some h
      exact (beq_iff_eq.mp hfound).symm
    · rintro rfl
      exact method.ofName?_name
  rw [Fields.Names, Method.ofDocument?.eq_def]
  split
  · rename_i text
    cases text <;> simp [hname]
  · simp [hname]
  · rename_i hstr hobj
    refine iff_of_false (by simp) ?_
    rintro (rfl | rfl)
    · exact hstr _ rfl
    · exact hobj _ rfl

/-- A field that can be missing is absent, or something is read from it. -/
theorem optionalField?_eq_some_iff {α : Type} {read : Document → Option α}
    {field : Option Document} {content : Option α} :
    optionalField? read field = some content ↔ Fields.Absent field ∧ content = none
      ∨ ∃ d a, field = some d ∧ d ≠ .null ∧ read d = some a ∧ content = some a := by
  rcases field with - | d
  · simp [optionalField?, Fields.Absent, eq_comm]
  · cases d <;> simp [optionalField?, Fields.Absent, Document.optional?, eq_comm]

/-- **A request** is what is read from the fields that its document holds. -/
theorem ofDocument?_of_holds {d : Document} {fields : Fields} (h : Holds d fields)
    (request : Request) : ofDocument? d = some request ↔ fields.Reads request := by
  obtain ⟨field, hfield, hversion, hmethod, hid, hparams⟩ := holds_iff.mp h
  have hread : ofDocument? d = some request ↔ version? fields.version = some request.version
      ∧ Method.ofDocument? fields.method = some request.method
      ∧ optionalField? Document.text? fields.id = some request.id
      ∧ optionalField? (Value.ofDocument? (maxDepth - 1)) fields.params = some request.params := by
    rw [ofDocument?, hfield]
    simp only [Option.bind_eq_bind, Option.bind_some, hversion, hmethod, hid, hparams,
      Option.bind_eq_some_iff]
    constructor
    · rintro ⟨version, hv, method, hm, id, hi, params, hp, ⟨⟩⟩
      exact ⟨hv, hm, hi, hp⟩
    · rintro ⟨hv, hm, hi, hp⟩
      exact ⟨_, hv, _, hm, _, hi, _, hp, rfl⟩
  have htext : ∀ (d : Document) (s : String), d.text? = some s ↔ d = .str (some s) := by
    intro d s
    cases d <;> simp [Document.text?]
  rw [hread, version?_eq_some_iff, ofDocument?_method_eq_some_iff, optionalField?_eq_some_iff,
    optionalField?_eq_some_iff]
  have hidText : (∃ d s, fields.id = some d ∧ d ≠ .null ∧ d.text? = some s ∧ request.id = some s)
      ↔ ∃ s, fields.id = some (.str (some s)) ∧ request.id = some s := by
    simp only [htext]
    constructor
    · rintro ⟨_, s, hfound, -, rfl, hs⟩
      exact ⟨s, hfound, hs⟩
    · rintro ⟨s, hfound, hs⟩
      exact ⟨_, s, hfound, by simp, rfl, hs⟩
  rw [hidText]
  constructor
  · rintro ⟨hv, hm, hi, hp⟩
    exact ⟨hv, hm, hi, hp⟩
  · rintro ⟨hv, hm, hi, hp⟩
    exact ⟨hv, hm, hi, hp⟩

theorem exists_holds_of_ofDocument? {d : Document} {request : Request}
    (h : ofDocument? d = some request) : ∃ fields, Holds d fields := by
  rw [ofDocument?] at h
  simp only [Option.bind_eq_bind, Option.bind_eq_some_iff] at h
  obtain ⟨field, hfield, -, ⟨version, hversion, -⟩, -, ⟨method, hmethod, -⟩, -⟩ := h
  exact ⟨⟨version, method, field "id", field "params"⟩,
    holds_iff.mpr ⟨field, hfield, hversion, hmethod, rfl, rfl⟩⟩

/-! ## Acceptable fields -/

theorem Fields.Reads.acceptable {fields : Fields} {request : Request} (h : fields.Reads request) :
    fields.Acceptable where
  version := by
    obtain ⟨digits, hversion, hdigits⟩ := h.version
    exact ⟨digits, hversion, hdigits ▸ request.version.toNat_lt_size⟩
  method := ⟨request.method, request.method.mem_all, h.method⟩
  id := h.id.imp And.left fun ⟨text, htext, _⟩ ↦ ⟨text, htext⟩

theorem Fields.Acceptable.exists_reads {fields : Fields} (h : fields.Acceptable)
    (hparams : ∀ d ∈ fields.params, (Value.ofDocument? (maxDepth - 1) d).isSome = true) :
    ∃ request, fields.Reads request := by
  obtain ⟨digits, hversion, hdigits⟩ := h.version
  obtain ⟨method, -, hmethod⟩ := h.method
  obtain ⟨id, hid⟩ : ∃ id, Absent fields.id ∧ id = none
      ∨ ∃ text, fields.id = some (.str (some text)) ∧ id = some text := by
    rcases h.id with habsent | ⟨text, htext⟩
    · exact ⟨none, Or.inl ⟨habsent, rfl⟩⟩
    · exact ⟨some text, Or.inr ⟨text, htext, rfl⟩⟩
  obtain ⟨params, hvalue⟩ : ∃ params, Absent fields.params ∧ params = none
      ∨ ∃ d v, fields.params = some d ∧ d ≠ .null ∧ Value.ofDocument? (maxDepth - 1) d = some v
        ∧ params = some v := by
    rcases hfound : fields.params with - | d
    · exact ⟨none, Or.inl ⟨Or.inl rfl, rfl⟩⟩
    obtain ⟨v, hv⟩ := Option.isSome_iff_exists.mp (hparams d hfound)
    by_cases hnull : d = .null
    · exact ⟨none, Or.inl ⟨Or.inr (congrArg some hnull), rfl⟩⟩
    · exact ⟨some v, Or.inr ⟨d, v, rfl, hnull, hv, rfl⟩⟩
  exact ⟨⟨.ofNat (Literal.ofDigits digits), method, id, params⟩,
    ⟨digits, hversion, UInt32.toNat_ofNat_of_lt' hdigits⟩, hmethod, hid, hvalue⟩

theorem Holds.isSome_params {d : Document} {fields : Fields} (h : Holds d fields)
    (hvalue : (Value.ofDocument? maxDepth d).isSome = true) :
    ∀ params ∈ fields.params, (Value.ofDocument? (maxDepth - 1) params).isSome = true := by
  rintro params hparams
  cases h with
  | object hperm =>
    have hmember : (some "params", params) ∈ fields.members := by
      simp [Fields.members, Option.mem_def.mp hparams]
    rw [maxDepth, Value.ofDocument?, Option.isSome_map] at hvalue
    exact Value.isSome_of_mem_members hvalue (hperm.mem_iff.mpr hmember)
  | four version method id =>
    obtain rfl := Option.some.inj hparams
    rw [maxDepth, Value.ofDocument?, Option.isSome_map] at hvalue
    exact Value.isSome_of_mem_items hvalue (by simp)
  | _ => exact absurd hparams (by simp)

/-! ## The order of members -/

/-- Two fields are equal, or they differ by an exchange of members. -/
def Alike (field other : Option Document) : Prop :=
  field = other ∨ ∃ d e, field = some d ∧ other = some e ∧ d.Exchanged e

theorem alike_lookup {α : Type} [BEq α] {d e : Document} (h : d.Exchanged e)
    (before after : List (α × Document)) (name key : α) :
    Alike ((before ++ (name, d) :: after).lookup key)
      ((before ++ (name, e) :: after).lookup key) := by
  induction before with
  | nil =>
    rw [List.nil_append, List.nil_append, List.lookup_cons, List.lookup_cons]
    cases key == name with
    | false => exact Or.inl rfl
    | true => exact Or.inr ⟨d, e, rfl, rfl, h⟩
  | cons member rest ih =>
    rw [List.cons_append, List.cons_append, List.lookup_cons, List.lookup_cons]
    cases key == member.1 with
    | false => exact ih
    | true => exact Or.inl rfl

theorem alike_lookup_zip {d e : Document} (h : d.Exchanged e) (before after : List Document)
    (names : List String) (key : String) :
    Alike ((names.zip (before ++ d :: after)).lookup key)
      ((names.zip (before ++ e :: after)).lookup key) := by
  induction before generalizing names with
  | nil =>
    cases names with
    | nil => exact Or.inl rfl
    | cons name names => exact alike_lookup h [] (names.zip after) name key
  | cons item rest ih =>
    cases names with
    | nil => exact Or.inl rfl
    | cons name names =>
      rw [List.cons_append, List.cons_append, List.zip_cons_cons, List.zip_cons_cons,
        List.lookup_cons, List.lookup_cons]
      cases key == name with
      | false => exact ih names
      | true => exact Or.inl rfl

theorem lookup_exchange {a b : Option String × Document} (hne : a.1 ≠ b.1)
    (before after : Document.Members) (key : Option String) :
    (before ++ a :: b :: after).lookup key = (before ++ b :: a :: after).lookup key := by
  obtain ⟨name, d⟩ := a
  obtain ⟨other, e⟩ := b
  induction before with
  | nil =>
    simp only [List.nil_append, List.lookup_cons]
    by_cases hkey : key = name
    · rw [beq_iff_eq.mpr hkey, beq_eq_false_iff_ne.mpr (hkey ▸ hne)]
    · rw [beq_eq_false_iff_ne.mpr hkey]
  | cons member rest ih =>
    rw [List.cons_append, List.cons_append, List.lookup_cons, List.lookup_cons, ih]

/-- Neither of two documents has the shape of a request, or both have it with fields that are
alike. -/
def AlikeFields (d e : Document) : Prop :=
  layout.fields? d = none ∧ layout.fields? e = none
    ∨ ∃ field other, layout.fields? d = some field ∧ layout.fields? e = some other
      ∧ ∀ name, Alike (field name) (other name)

theorem alikeFields_obj {members others : Document.Members}
    (hadmits : members.all (layout.admits ·.1) = others.all (layout.admits ·.1))
    (hcount : ∀ name, Layout.count name members = Layout.count name others)
    (halike : ∀ key, Alike (members.lookup key) (others.lookup key)) :
    AlikeFields (.obj members) (.obj others) := by
  rw [AlikeFields, Layout.fields?, Layout.fields?, hadmits]
  simp only [hcount]
  split
  · exact Or.inr ⟨_, _, rfl, rfl, fun name ↦ halike (some name)⟩
  · exact Or.inl ⟨rfl, rfl⟩

theorem alikeFields_of_exchanged {d e : Document} (h : d.Exchanged e) : AlikeFields d e := by
  cases h with
  | @here before after a b hne =>
    have hperm : (before ++ a :: b :: after).Perm (before ++ b :: a :: after) :=
      (List.Perm.swap b a after).append_left before
    exact alikeFields_obj hperm.all_eq (fun _ ↦ hperm.countP_eq _)
      fun key ↦ Or.inl (lookup_exchange hne before after key)
  | @item before after d e h =>
    rw [AlikeFields, Layout.fields?, Layout.fields?]
    simp only [List.length_append, List.length_cons]
    split
    · exact Or.inr ⟨_, _, rfl, rfl, fun name ↦ alike_lookup_zip h before after _ name⟩
    · exact Or.inl ⟨rfl, rfl⟩
  | @member before after name d e h =>
    refine alikeFields_obj ?_ (fun _ ↦ ?_) (alike_lookup h before after name)
    · rw [List.all_append, List.all_append, List.all_cons, List.all_cons]
    · rw [Layout.count, Layout.count, List.countP_append, List.countP_append, List.countP_cons,
        List.countP_cons]

theorem Fields.Names.not_exchanged {d e : Document} {method : Method} (h : Names d method) :
    ¬d.Exchanged e := by
  rcases h with rfl | rfl
  · exact fun hexchanged ↦ by cases hexchanged
  · intro hexchanged
    generalize hd : Document.obj [(some method.name, .null)] = d at hexchanged
    cases hexchanged with
    | here hne =>
      have hlength := congrArg List.length (Document.obj.inj hd)
      simp only [List.length_append, List.length_cons, List.length_nil] at hlength
      omega
    | item _ => exact absurd hd (by simp)
    | @member before after name d e hinner =>
      obtain - | ⟨first, rest⟩ := before
      · obtain ⟨⟨-, rfl⟩, -⟩ := by simpa using hd
        cases hinner
      · have hlength := congrArg List.length (Document.obj.inj hd)
        simp at hlength

theorem Alike.bind_eq {α : Type} {read : Document → Option α}
    (hread : ∀ {d e : Document}, d.Exchanged e → read d = read e) {field other : Option Document}
    (h : Alike field other) : field.bind read = other.bind read := by
  rcases h with rfl | ⟨d, e, rfl, rfl, hexchanged⟩
  · rfl
  · exact hread hexchanged

theorem Alike.optionalField?_eq {α : Type} {read : Document → Option α}
    (hread : ∀ {d e : Document}, d.Exchanged e → read d = read e) {field other : Option Document}
    (h : Alike field other) : optionalField? read field = optionalField? read other := by
  rcases h with rfl | ⟨d, e, rfl, rfl, hexchanged⟩
  · rfl
  · have hsame := congrArg (Option.map some) (hread hexchanged)
    cases hexchanged <;> exact hsame

theorem ofDocument?_exchanged {d e : Document} (h : d.Exchanged e) :
    ofDocument? d = ofDocument? e := by
  have hversion : ∀ {d e : Document}, d.Exchanged e → version? d = version? e := by
    intro d e hexchanged
    cases hexchanged <;> rfl
  have hmethod : ∀ {d e : Document}, d.Exchanged e →
      Method.ofDocument? d = Method.ofDocument? e := by
    intro d e hexchanged
    ext1 method
    rw [ofDocument?_method_eq_some_iff, ofDocument?_method_eq_some_iff]
    exact iff_of_false (fun hnames ↦ hnames.not_exchanged hexchanged)
      fun hnames ↦ hnames.not_exchanged hexchanged.symm
  have hid : ∀ {d e : Document}, d.Exchanged e → d.text? = e.text? := by
    intro d e hexchanged
    cases hexchanged <;> rfl
  have hparams : ∀ {d e : Document}, d.Exchanged e →
      Value.ofDocument? (maxDepth - 1) d = Value.ofDocument? (maxDepth - 1) e :=
    fun hexchanged ↦ Value.ofDocument?_exchanged hexchanged _
  rw [ofDocument?, ofDocument?]
  rcases alikeFields_of_exchanged h with ⟨hd, he⟩ | ⟨field, other, hd, he, halike⟩
  · rw [hd, he]
  · simp only [hd, he, Option.bind_eq_bind, Option.bind_some,
      (halike "protocol_version").bind_eq hversion, (halike "method").bind_eq hmethod,
      (halike "id").optionalField?_eq hid, (halike "params").optionalField?_eq hparams]

/-- **The order** of members with different names makes no difference to the request. -/
theorem ofDocument?_reordered {d e : Document} (h : d.Reordered e) :
    ofDocument? d = ofDocument? e := by
  induction h with
  | refl => rfl
  | tail _ hlast ih => exact ih.trans (ofDocument?_exchanged hlast)

/-! ## Requests -/

/-- **Requests.** Let a text write a document that is not nested too deeply and in which no number
is too large, with any white space and any escapes. A request is read from the text just if the
document holds the fields of one, as an object with the members in any order or as an array, and the
fields are acceptable. The request is then determined by what is written in the fields. Any text
that writes the document with the members in another order, in the document itself or inside of its
members, is read in the same way. -/
theorem reads_of_writes {d : Document} {text : List Char} (hwrites : d.Writes text)
    (hnesting : d.nesting ≤ maxDepth)
    (hnumbers : ∀ l, .num l ∈ d.tokens → l.number?.isSome = true) :
    ((∃ request, read? (text.flatMap Text.charBytes) = some request)
        ↔ ∃ fields, Holds d fields ∧ fields.Acceptable)
      ∧ (∀ fields, Holds d fields → ∀ request,
        read? (text.flatMap Text.charBytes) = some request ↔ fields.Reads request)
      ∧ ∀ e other, d.Reordered e → e.Writes other →
        read? (other.flatMap Text.charBytes) = read? (text.flatMap Text.charBytes) := by
  have hread : ∀ {e other}, Document.Writes e other →
      read? (other.flatMap Text.charBytes) = ofDocument? e := by
    intro e other hother
    rw [read?, Document.read?_of_writes hother, Option.bind_some]
  have hvalue : (Value.ofDocument? maxDepth d).isSome = true := by
    refine (Value.isSome_ofDocument?_iff d maxDepth).mpr ⟨hnesting, fun token htoken ↦ ?_⟩
    cases token with
    | num l => exact hnumbers l htoken
    | str content =>
      cases content with
      | none => exact absurd htoken hwrites.str_none_notMem
      | some s => exact rfl
    | _ => exact trivial
  rw [hread hwrites]
  refine ⟨⟨?_, ?_⟩, fun fields hholds request ↦ ofDocument?_of_holds hholds request,
    fun e other hreordered hother ↦ ?_⟩
  · rintro ⟨request, hrequest⟩
    obtain ⟨fields, hholds⟩ := exists_holds_of_ofDocument? hrequest
    exact ⟨fields, hholds, ((ofDocument?_of_holds hholds request).mp hrequest).acceptable⟩
  · rintro ⟨fields, hholds, hacceptable⟩
    obtain ⟨request, hreads⟩ := hacceptable.exists_reads (hholds.isSome_params hvalue)
    exact ⟨request, (ofDocument?_of_holds hholds request).mpr hreads⟩
  · rw [hread hother, ofDocument?_reordered hreordered]

/-- A request with white space, an escape and an object for the method, and one with the members in
another order and nothing of these. -/
theorem reads_of_writes_tick :
    let one : Document := .num ⟨false, [1], [], none⟩
    let tick : Document := .obj [(some "tick", .null)]
    let d : Document := .obj [(some "method", tick), (some "id", .null),
      (some "protocol_version", one)]
    let e : Document := .obj [(some "protocol_version", one), (some "method", tick),
      (some "id", .null)]
    let text := (" \x7b\"method\":\x7b\"\\u0074ick\":null\x7d,\n"
      ++ "\"id\":null,\"protocol_version\":1\x7d").toList
    let other := ("\x7b\"protocol_version\":1,\"method\":\x7b\"tick\":null\x7d,"
      ++ "\"id\":null\x7d").toList
    d.Writes text ∧ e.Writes other
      ∧ read? (text.flatMap Text.charBytes) = some ⟨1, .tick, none, none⟩
      ∧ read? (other.flatMap Text.charBytes) = some ⟨1, .tick, none, none⟩ := by
  intro one tick d e text other
  have hone : Token.Spelling (.num ⟨false, [1], [], none⟩) ['1'] :=
    .num (.mk (Or.inr ⟨1, [], by decide, rfl⟩) .none)
  have htick : Token.Spelling (.str (some "tick")) ('"' :: "\\u0074ick".toList ++ ['"']) := by
    have hcode : CodeSpelling 't'.toNat ['0', '0', '7', '4'] := .small 0 0 7 4
    have hcontent : ContentSpelling ('t' :: ['i', 'c', 'k'])
        ('\\' :: 'u' :: ['0', '0', '7', '4'] ++ ['i', 'c', 'k']) :=
      .cons (.code hcode) (.of_isPlain (by decide))
    exact .str hcontent
  have hmethod := Token.Spelling.plain "method" (by decide)
  have hid := Token.Spelling.plain "id" (by decide)
  have hversion := Token.Spelling.plain "protocol_version" (by decide)
  have hwrites : d.Writes text :=
    .space (by decide) (.cons .openObject (.cons hmethod (.cons .colon (.cons .openObject
      (.cons htick (.cons .colon (.cons .null (.cons .closeObject (.cons .comma
        (.space (by decide) (.cons hid (.cons .colon (.cons .null (.cons .comma
          (.cons hversion (.cons .colon (.cons hone (.cons .closeObject .nil))))))))))))))))))
  have hothers : e.Writes other :=
    .cons .openObject (.cons hversion (.cons .colon (.cons hone (.cons .comma (.cons hmethod
      (.cons .colon (.cons .openObject (.cons (.plain "tick" (by decide)) (.cons .colon
        (.cons .null (.cons .closeObject (.cons .comma (.cons hid (.cons .colon (.cons .null
          (.cons .closeObject .nil))))))))))))))))
  have hnumbers : ∀ l, Token.num l ∈ d.tokens → l.number?.isSome = true := by
    intro l hl
    simp only [d, one, tick, Document.tokens, Document.moreMembers, List.mem_cons,
      List.mem_append, reduceCtorEq, false_or, or_false, List.not_mem_nil, Token.num.injEq] at hl
    subst hl
    decide
  let version : Document.Members := [(some "protocol_version", one)]
  let others : Document.Members := [(some "method", tick), (some "id", .null)]
  have hperm : (others ++ version).Perm (version ++ others) := List.perm_append_comm
  have hholds : Holds d ⟨one, tick, some .null, none⟩ := .object hperm
  have hreordered : d.Reordered e := Document.reordered_of_perm hperm (by decide)
  obtain ⟨-, hreads, hsame⟩ := reads_of_writes hwrites (by decide) hnumbers
  have hread := (hreads _ hholds ⟨1, .tick, none, none⟩).mpr
    ⟨⟨[1], rfl, rfl⟩, Or.inr rfl, Or.inl ⟨Or.inr rfl, rfl⟩, Or.inl ⟨Or.inl rfl, rfl⟩⟩
  exact ⟨hwrites, hothers, hread, (hsame e other hreordered hothers).trans hread⟩

end Wire.Request

end GameBridge
