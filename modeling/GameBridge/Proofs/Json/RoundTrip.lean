import GameBridge.Proofs.Json.Values

/-!
# Values that come back as they were

A value is read from a document by filing the members of every object in ascending order, and with
a limit on how deep arrays and objects are nested. `Within` says of a value that it is as such a
reading leaves it. What is read is always of this kind (`within_of_ofDocument?`), and a value of
this kind is what its own document is read as (`ofDocument?_document?`), so for values without
floating-point numbers writing and reading undo each other.

The members of an object are filed one after the other. As they come in ascending order, each one is
put behind those before it, and this is what the induction on the members carries along.
-/

namespace GameBridge

/-- An entry that comes after all others is filed at the end. -/
theorem insertEntry_of_precedes {α : Type} {key : String} {value : α}
    {entries : List (String × α)} (h : ∀ entry ∈ entries, Precedes entry (key, value)) :
    insertEntry key value entries = entries ++ [(key, value)] := by
  induction entries with
  | nil => rfl
  | cons head rest ih =>
    obtain ⟨k, v⟩ := head
    obtain ⟨hhead, hrest⟩ := List.forall_mem_cons.mp h
    have hlt : k < key := hhead
    have hnot : ¬key < k := fun hback ↦ String.lt_irrefl k (String.lt_trans hlt hback)
    have hne : key ≠ k := fun heq ↦ String.lt_irrefl k (heq ▸ hlt)
    rw [insertEntry, if_neg hnot, if_neg hne, ih hrest]
    rfl

namespace Json

/-! ## Lines -/

/-- A line break makes no difference at the end of a text, not even after a number. -/
theorem Lexer.finish?_step_newline {lexer : Lexer} {tokens : List Token}
    (h : lexer.finish? = some tokens) :
    ∃ next, lexer.step (ascii '\n') = some next ∧ next.finish? = some tokens := by
  obtain ⟨mode, before⟩ := lexer
  cases mode with
  | between => exact ⟨⟨.between, before⟩, rfl, h⟩
  | number part draft =>
    cases part with
    | zero | whole | fraction | power => exact ⟨⟨.between, _⟩, rfl, h⟩
    | minus | point | mark | sign => exact absurd h (by simp [finish?, NumberPart.isComplete])
  | _ => exact absurd h (by simp [finish?])

theorem Document.read?_line {bytes : List UInt8} {d : Document} (h : read? bytes = some d) :
    read? (bytes ++ [ascii '\n']) = some d := by
  obtain ⟨tokens, hscan, htokens⟩ := Option.bind_eq_some_iff.mp h
  obtain ⟨lexer, hlexer, hfinish⟩ := Option.bind_eq_some_iff.mp hscan
  obtain ⟨next, hnext, hlast⟩ := Lexer.finish?_step_newline hfinish
  have hline : Token.scan? (bytes ++ [ascii '\n']) = some tokens := by
    have hfeed : (bytes ++ [ascii '\n']).foldlM Lexer.step Lexer.start = some next := by
      rw [List.foldlM_append, hlexer]
      exact (bind_pure (lexer.step _)).trans hnext
    rw [Token.scan?, hfeed]
    exact hlast
  rw [read?, hline]
  exact htokens

/-! ## Integers -/

theorem Literal.ofDigits_digits (n : Nat) : ofDigits (digits n) = n := by
  induction n using digits.induct with
  | case1 n hsmall =>
    rw [digits, if_pos hsmall, ofDigits, List.foldl_cons, List.foldl_nil, Fin.val_ofNat]
    omega
  | case2 n hlarge ih =>
    rw [ofDigits] at ih
    rw [digits, if_neg hlarge, ofDigits, List.foldl_append, ih, List.foldl_cons, List.foldl_nil,
      Fin.val_ofNat]
    omega

theorem Literal.number?_ofInt (n : Integer) : (ofInt n.val).number? = some (.int n) := by
  have hvalue : (if (ofInt n.val).negative = true then -(ofDigits (ofInt n.val).whole : Int)
      else ofDigits (ofInt n.val).whole) = n.val := by
    show (if decide (n.val < 0) = true then -(ofDigits (digits n.val.natAbs) : Int)
      else ofDigits (digits n.val.natAbs)) = n.val
    rw [ofDigits_digits]
    simp only [decide_eq_true_eq]
    split <;> omega
  have hplain : isPlain (ofInt n.val) = true
      ∧ ¬((ofInt n.val).negative = true ∧ n.val = 0) := by
    refine ⟨rfl, fun hzero ↦ ?_⟩
    have hneg : n.val < 0 := of_decide_eq_true hzero.1
    omega
  have hfits : Integer.ofInt? n.val = some n := by
    rw [Integer.ofInt?, dif_pos ⟨n.lower, n.upper⟩]
  rw [number?, hvalue, if_pos hplain, hfits]

/-! ## Optional fields -/

/-- What is found in an optional field is not the word `null`. -/
theorem Document.of_optional?_eq_some {α : Type} {read : Document → Option α} {d : Document} {a : α}
    (h : d.optional? read = some (some a)) : d ≠ .null ∧ read d = some a := by
  cases d with
  | null => exact absurd h (by simp [optional?])
  | _ =>
    obtain ⟨found, hfound, heq⟩ := Option.map_eq_some_iff.mp h
    exact ⟨by simp, hfound.trans heq⟩

namespace Value

/-! ## Values as they are read -/

/-- A value with at most so many levels of nesting, in which the members of every object are in
ascending order. -/
inductive Within : Nat → Value → Prop where
  | null {depth : Nat} : Within depth null
  | bool {depth : Nat} (b : Bool) : Within depth (bool b)
  | int {depth : Nat} (n : Integer) : Within depth (int n)
  | float {depth : Nat} (x : Binary64) : Within depth (float x)
  | str {depth : Nat} (s : String) : Within depth (str s)
  | arr {depth : Nat} {items : List Value} (hitems : ∀ item ∈ items, Within depth item) :
      Within (depth + 1) (arr items)
  | obj {depth : Nat} {members : List (String × Value)} (hascending : members.Pairwise Precedes)
      (hmembers : ∀ member ∈ members, Within depth member.2) : Within (depth + 1) (obj members)

mutual

/-- **What is read** is within the limit of the reader. -/
theorem within_of_ofDocument? {depth : Nat} (d : Document) {v : Value}
    (h : ofDocument? depth d = some v) : v.Within depth := by
  match d, depth with
  | .null, _ =>
    obtain rfl := Option.some.inj h
    exact .null
  | .bool b, _ =>
    obtain rfl := Option.some.inj h
    exact .bool b
  | .num l, _ =>
    obtain ⟨number, -, rfl⟩ := Option.map_eq_some_iff.mp h
    cases number with
    | int n => exact .int n
    | float x => exact .float x
  | .str s, _ =>
    obtain ⟨text, -, rfl⟩ := Option.map_eq_some_iff.mp h
    exact .str text
  | .arr _, 0 => exact absurd h (by simp [ofDocument?])
  | .arr items, depth + 1 =>
    obtain ⟨values, hvalues, rfl⟩ := Option.map_eq_some_iff.mp h
    exact .arr (within_of_ofItems? items hvalues)
  | .obj _, 0 => exact absurd h (by simp [ofDocument?])
  | .obj members, depth + 1 =>
    obtain ⟨values, hvalues, rfl⟩ := Option.map_eq_some_iff.mp h
    obtain ⟨hascending, hall⟩ := within_of_ofMembers? members List.Pairwise.nil (by simp) hvalues
    exact .obj hascending hall

theorem within_of_ofItems? {depth : Nat} (items : List Document) {values : List Value}
    (h : ofItems? depth items = some values) : ∀ value ∈ values, value.Within depth := by
  match items with
  | [] =>
    obtain rfl := Option.some.inj h
    simp
  | item :: rest =>
    rw [ofItems?] at h
    split at h
    · rename_i value hvalue
      obtain ⟨more, hmore, rfl⟩ := Option.map_eq_some_iff.mp h
      exact List.forall_mem_cons.mpr
        ⟨within_of_ofDocument? item hvalue, within_of_ofItems? rest hmore⟩
    · exact absurd h (by simp)

theorem within_of_ofMembers? {depth : Nat} (members : Document.Members)
    {before values : List (String × Value)} (hascending : before.Pairwise Precedes)
    (hbefore : ∀ member ∈ before, member.2.Within depth)
    (h : ofMembers? depth before members = some values) :
    values.Pairwise Precedes ∧ ∀ member ∈ values, member.2.Within depth := by
  match members with
  | [] =>
    obtain rfl := Option.some.inj h
    exact ⟨hascending, hbefore⟩
  | (some name, document) :: rest =>
    rw [ofMembers?] at h
    split at h
    · rename_i value hvalue
      refine within_of_ofMembers? rest (pairwise_insertEntry name value hascending)
        (fun member hmember ↦ ?_) h
      rcases mem_insertEntry hmember with rfl | hmember
      · exact within_of_ofDocument? document hvalue
      · exact hbefore member hmember
    · exact absurd h (by simp)
  | (none, _) :: _ => exact absurd h (by simp [ofMembers?])

end

/-! ## Reading back -/

theorem ofItems?_itemDocuments? {depth : Nat} {items : List Value} {ds : List Document}
    (hread : ∀ item ∈ items, ∀ d, item.document? = some d → ofDocument? depth d = some item)
    (h : itemDocuments? items = some ds) : ofItems? depth ds = some items := by
  induction items generalizing ds with
  | nil =>
    obtain rfl := Option.some.inj h
    rfl
  | cons item rest ih =>
    obtain ⟨hitem, hrest⟩ := List.forall_mem_cons.mp hread
    obtain ⟨d, more, hd, hmore, rfl⟩ := itemDocuments?_cons h
    rw [ofItems?, hitem d hd]
    dsimp only
    rw [ih hrest hmore]
    rfl

theorem ofMembers?_memberDocuments? {depth : Nat} {before members : List (String × Value)}
    {ds : Document.Members} (hascending : (before ++ members).Pairwise Precedes)
    (hread : ∀ member ∈ members, ∀ d, member.2.document? = some d →
      ofDocument? depth d = some member.2)
    (h : memberDocuments? members = some ds) :
    ofMembers? depth before ds = some (before ++ members) := by
  induction members generalizing before ds with
  | nil =>
    obtain rfl := Option.some.inj h
    rw [ofMembers?, List.append_nil]
  | cons member rest ih =>
    obtain ⟨name, value⟩ := member
    obtain ⟨hvalue, hrest⟩ := List.forall_mem_cons.mp hread
    obtain ⟨d, more, hd, hmore, rfl⟩ := memberDocuments?_cons h
    have hlast : ∀ entry ∈ before, Precedes entry (name, value) := fun entry hentry ↦
      (List.pairwise_append.mp hascending).2.2 entry hentry _ List.mem_cons_self
    have hshift : before ++ (name, value) :: rest = before ++ [(name, value)] ++ rest := by
      rw [List.append_assoc, List.singleton_append]
    rw [ofMembers?, hvalue d hd]
    dsimp only
    rw [insertEntry_of_precedes hlast, hshift]
    exact ih (hshift ▸ hascending) hrest hmore

/-- **Reading back.** A value is what its document is read as. -/
theorem ofDocument?_document? {depth : Nat} {v : Value} (hwithin : v.Within depth) :
    ∀ d, v.document? = some d → ofDocument? depth d = some v := by
  induction hwithin with
  | null => rintro _ ⟨⟩; rfl
  | bool b => rintro _ ⟨⟩; rfl
  | int n =>
    rintro _ ⟨⟩
    rw [ofDocument?, Literal.number?_ofInt]
    rfl
  | float x => exact fun d hd ↦ absurd hd (by simp [document?])
  | str s => rintro _ ⟨⟩; rfl
  | arr hitems ih =>
    intro d hd
    obtain ⟨ds, hds, rfl⟩ := Option.map_eq_some_iff.mp hd
    rw [ofDocument?, ofItems?_itemDocuments? ih hds]
    rfl
  | obj hascending hmembers ih =>
    intro d hd
    obtain ⟨ds, hds, rfl⟩ := Option.map_eq_some_iff.mp hd
    have hread : ofMembers? _ [] ds = some ([] ++ _) :=
      ofMembers?_memberDocuments? hascending ih hds
    rw [ofDocument?, hread]
    rfl

theorem document?_ne_null {v : Value} (h : v ≠ null) : v.document? ≠ some .null := by
  cases v with
  | null => exact absurd rfl h
  | _ => simp [document?]

theorem eq_null_of_ofDocument? {depth : Nat} {d : Document}
    (h : ofDocument? depth d = some .null) : d = .null := by
  cases d with
  | null => rfl
  | bool b => exact absurd h (by simp [ofDocument?])
  | num l =>
    obtain ⟨number, -, heq⟩ := Option.map_eq_some_iff.mp h
    cases number <;> exact absurd heq (by simp [ofNumber])
  | str s =>
    obtain ⟨text, -, heq⟩ := Option.map_eq_some_iff.mp h
    exact absurd heq (by simp)
  | arr items =>
    cases depth with
    | zero => exact absurd h (by simp [ofDocument?])
    | succ depth =>
      obtain ⟨values, -, heq⟩ := Option.map_eq_some_iff.mp h
      exact absurd heq (by simp)
  | obj members =>
    cases depth with
    | zero => exact absurd h (by simp [ofDocument?])
    | succ depth =>
      obtain ⟨values, -, heq⟩ := Option.map_eq_some_iff.mp h
      exact absurd heq (by simp)

/-- Members are written one after the other. -/
theorem memberDocuments?_append {first second : List (String × Value)}
    {ds es : Document.Members} (hfirst : memberDocuments? first = some ds)
    (hsecond : memberDocuments? second = some es) :
    memberDocuments? (first ++ second) = some (ds ++ es) := by
  induction first generalizing ds with
  | nil =>
    obtain rfl := Option.some.inj hfirst
    exact hsecond
  | cons member rest ih =>
    obtain ⟨name, value⟩ := member
    obtain ⟨d, more, hd, hmore, rfl⟩ := memberDocuments?_cons hfirst
    rw [List.cons_append, memberDocuments?, hd, ih hmore]
    rfl

/-! ## Values that are made -/

attribute [simp] Within.null Within.bool Within.int Within.float Within.str

@[simp] theorem within_ofInt64 {depth : Nat} (n : Int64) : (ofInt64 n).Within depth := .int _

@[simp] theorem within_ofUInt64 {depth : Nat} (n : UInt64) : (ofUInt64 n).Within depth := .int _

@[simp] theorem within_ofOption {depth : Nat} {α : Type} {make : α → Value}
    (h : ∀ a, (make a).Within depth) (content : Option α) :
    (ofOption make content).Within depth := by
  rcases content with - | a
  · exact .null
  · exact h a

theorem within_arr_map {depth : Nat} {α : Type} {make : α → Value}
    (h : ∀ a, (make a).Within depth) (list : List α) : (arr (list.map make)).Within (depth + 1) :=
  .arr (List.forall_mem_map.mpr fun a _ ↦ h a)

/-- An object has its members in ascending order, in whatever order they were put into it. -/
theorem within_object {depth : Nat} {members : List (String × Value)}
    (h : ∀ member ∈ members, member.2.Within depth) : (object members).Within (depth + 1) := by
  have hfiled : ∀ before : List (String × Value), before.Pairwise Precedes →
      (∀ member ∈ before, member.2.Within depth) →
      (obj (members.foldl (fun entries member ↦ insertEntry member.1 member.2 entries)
        before)).Within (depth + 1) := by
    induction members with
    | nil => exact fun _ hascending hbefore ↦ .obj hascending hbefore
    | cons member rest ih =>
      obtain ⟨hmember, hrest⟩ := List.forall_mem_cons.mp h
      intro before hascending hbefore
      refine ih hrest _ (pairwise_insertEntry _ _ hascending) fun entry hentry ↦ ?_
      rcases mem_insertEntry hentry with rfl | hentry
      · exact hmember
      · exact hbefore entry hentry
  exact hfiled [] List.Pairwise.nil (by simp)

end Value

end Json

end GameBridge
