import GameBridge.Proofs.Json.RoundTrip
import Mathlib.Logic.Relation

/-!
# Documents and their values

A document has a value if it is not nested too deeply, none of its numbers is too large and all its
strings have texts (`Value.isSome_ofDocument?_iff`).

The value depends on the order in which the members of an object are written only where several of
them have one name. `Document.Exchanged` puts two neighbours with different names the other way
round, somewhere in a document. As members are filed one after the other in ascending order, it is
enough that two of them can be filed in either order, and the value stays as it is. All orders of
members with different names are reached in this way (`Document.reordered_of_perm`).
-/

namespace GameBridge

/-- Two entries with different keys are filed in either order. -/
theorem insertEntry_comm {α : Type} {key other : String} (hne : key ≠ other) (value value' : α)
    {entries : List (String × α)} (h : entries.Pairwise Precedes) :
    insertEntry key value (insertEntry other value' entries)
      = insertEntry other value' (insertEntry key value entries) :=
  congrArg Index.entries (Index.insert_comm ⟨entries, h⟩ hne.symm value' value)

namespace Json

/-! ## Integers -/

/-- A literal stands for an integer if it is written with its digits alone, and is not `-0`. -/
theorem Literal.number?_eq_int_iff {l : Literal} {n : Integer} :
    l.number? = some (.int n) ↔ l.isPlain = true ∧ ¬(l.negative = true ∧ n.val = 0)
      ∧ n.val = if l.negative = true then -(ofDigits l.whole : Int) else ofDigits l.whole := by
  have hfloat : ∀ x : Option Binary64, x.map Number.float ≠ some (.int n) := by
    rintro (- | x) <;> simp
  rw [number?]
  generalize (if l.negative = true then -(ofDigits l.whole : Int) else ofDigits l.whole) = i
  constructor
  · intro h
    split at h
    · rename_i hplain
      split at h
      · rename_i m hm
        obtain rfl := Number.int.inj (Option.some.inj h)
        obtain ⟨hrange, hn⟩ := Option.dite_none_right_eq_some.mp hm
        obtain rfl := Option.some.inj hn
        exact ⟨hplain.1, hplain.2, rfl⟩
      · exact absurd h (hfloat _)
    · exact absurd h (hfloat _)
  · rintro ⟨hplain, hzero, rfl⟩
    have hfits : Integer.ofInt? n.val = some n := by
      rw [Integer.ofInt?, dif_pos ⟨n.lower, n.upper⟩]
    rw [if_pos ⟨hplain, hzero⟩, hfits]

theorem Document.integer?_eq_some_iff {d : Document} {n : Integer} :
    d.integer? = some n ↔ ∃ l, d = .num l ∧ l.number? = some (.int n) := by
  cases d with
  | num l =>
    rw [integer?]
    split <;> simp_all
  | _ => simp [integer?]

/-! ## Documents that have a value -/

namespace Document

mutual

/-- How deeply arrays and objects are nested. -/
def nesting : Document → Nat
  | .arr items => itemsNesting items + 1
  | .obj members => membersNesting members + 1
  | _ => 0

/-- How deeply the items of an array are nested. -/
def itemsNesting : List Document → Nat
  | [] => 0
  | item :: rest => max (nesting item) (itemsNesting rest)

/-- How deeply the members of an object are nested. -/
def membersNesting : Members → Nat
  | [] => 0
  | (_, d) :: rest => max (nesting d) (membersNesting rest)

end

end Document

/-- A token that has a meaning: a number that is not too large, a string with a text, or any other
token. -/
def Token.Meaningful : Token → Prop
  | .num l => l.number?.isSome = true
  | .str s => s.isSome = true
  | _ => True

namespace Value

theorem isSome_ofItems?_cons {depth : Nat} {item : Document} {rest : List Document} :
    (ofItems? depth (item :: rest)).isSome = true
      ↔ (ofDocument? depth item).isSome = true ∧ (ofItems? depth rest).isSome = true := by
  rw [ofItems?]
  cases ofDocument? depth item <;> simp

mutual

/-- **Documents** have a value just if they are not nested too deeply and all that is written in
them has a meaning. -/
theorem isSome_ofDocument?_iff (d : Document) (depth : Nat) :
    (ofDocument? depth d).isSome = true
      ↔ d.nesting ≤ depth ∧ ∀ token ∈ d.tokens, token.Meaningful := by
  match d, depth with
  | .null, _ | .bool _, _ | .num _, _ | .str _, _ =>
    simp [ofDocument?, Document.nesting, Document.tokens, Token.Meaningful]
  | .arr _, 0 | .obj _, 0 => simp [ofDocument?, Document.nesting]
  | .arr items, depth + 1 =>
    rw [ofDocument?, Option.isSome_map, isSome_ofItems?_iff items depth, Document.nesting,
      Nat.add_le_add_iff_right]
    cases items <;> simp [Document.tokens, Document.moreItems, Token.Meaningful]
  | .obj members, depth + 1 =>
    rw [ofDocument?, Option.isSome_map, isSome_ofMembers?_iff members [] depth, Document.nesting,
      Nat.add_le_add_iff_right]
    cases members <;> simp [Document.tokens, Document.moreMembers, Token.Meaningful]

theorem isSome_ofItems?_iff (items : List Document) (depth : Nat) :
    (ofItems? depth items).isSome = true ↔ Document.itemsNesting items ≤ depth
      ∧ ∀ token ∈ Document.moreItems items, token.Meaningful := by
  match items with
  | [] => simp [ofItems?, Document.itemsNesting, Document.moreItems, Token.Meaningful]
  | item :: rest =>
    rw [isSome_ofItems?_cons, isSome_ofDocument?_iff item depth, isSome_ofItems?_iff rest depth,
      Document.itemsNesting, Nat.max_le, Document.moreItems, List.forall_mem_cons,
      List.forall_mem_append, and_and_and_comm]
    simp [Token.Meaningful]

theorem isSome_ofMembers?_iff (members : Document.Members) (before : List (String × Value))
    (depth : Nat) :
    (ofMembers? depth before members).isSome = true ↔ Document.membersNesting members ≤ depth
      ∧ ∀ token ∈ Document.moreMembers members, token.Meaningful := by
  match members with
  | [] => simp [ofMembers?, Document.membersNesting, Document.moreMembers, Token.Meaningful]
  | (none, _) :: _ => simp [ofMembers?, Document.moreMembers, Token.Meaningful]
  | (some name, d) :: rest =>
    have hboth : (ofMembers? depth before ((some name, d) :: rest)).isSome = true
        ↔ (ofDocument? depth d).isSome = true
          ∧ Document.membersNesting rest ≤ depth
          ∧ ∀ token ∈ Document.moreMembers rest, token.Meaningful := by
      rw [ofMembers?]
      cases ofDocument? depth d with
      | none => simp
      | some value => simp [isSome_ofMembers?_iff rest _ depth]
    rw [hboth, isSome_ofDocument?_iff d depth, Document.membersNesting, Nat.max_le,
      Document.moreMembers, List.forall_mem_cons, List.forall_mem_cons, List.forall_mem_cons,
      List.forall_mem_append, and_and_and_comm]
    simp [Token.Meaningful]

end

theorem isSome_of_mem_items {depth : Nat} {items : List Document}
    (h : (ofItems? depth items).isSome = true) {item : Document} (hitem : item ∈ items) :
    (ofDocument? depth item).isSome = true := by
  induction items with
  | nil => exact absurd hitem List.not_mem_nil
  | cons first rest ih =>
    obtain ⟨hfirst, hrest⟩ := isSome_ofItems?_cons.mp h
    rcases List.mem_cons.mp hitem with rfl | hitem
    · exact hfirst
    · exact ih hrest hitem

theorem isSome_of_mem_members {depth : Nat} {members : Document.Members}
    {before : List (String × Value)} (h : (ofMembers? depth before members).isSome = true)
    {member : Option String × Document} (hmember : member ∈ members) :
    (ofDocument? depth member.2).isSome = true := by
  induction members generalizing before with
  | nil => exact absurd hmember List.not_mem_nil
  | cons first rest ih =>
    obtain ⟨- | name, d⟩ := first
    · exact absurd h (by simp [ofMembers?])
    rw [ofMembers?] at h
    split at h
    · rename_i value hvalue
      rcases List.mem_cons.mp hmember with rfl | hmember
      · exact Option.isSome_iff_exists.mpr ⟨value, hvalue⟩
      · exact ih h hmember
    · exact absurd h (by simp)

end Value

/-! ## The order of members -/

namespace Document

/-- Somewhere in a document, two neighbouring members with different names are exchanged. -/
inductive Exchanged : Document → Document → Prop
  /-- Two members of the object itself. -/
  | here {before after : Members} {a b : Option String × Document} (hne : a.1 ≠ b.1) :
      Exchanged (.obj (before ++ a :: b :: after)) (.obj (before ++ b :: a :: after))
  /-- Two members inside of an item. -/
  | item {before after : List Document} {d e : Document} (h : Exchanged d e) :
      Exchanged (.arr (before ++ d :: after)) (.arr (before ++ e :: after))
  /-- Two members inside of the value of a member. -/
  | member {before after : Members} {name : Option String} {d e : Document} (h : Exchanged d e) :
      Exchanged (.obj (before ++ (name, d) :: after)) (.obj (before ++ (name, e) :: after))

theorem Exchanged.symm {d e : Document} (h : d.Exchanged e) : e.Exchanged d := by
  induction h with
  | here hne => exact .here hne.symm
  | item _ ih => exact .item ih
  | member _ ih => exact .member ih

/-- Documents that differ only in the order in which members with different names are written. -/
def Reordered : Document → Document → Prop := Relation.ReflTransGen Exchanged

theorem reordered_of_perm {members others : Members} (h : members.Perm others)
    (hdistinct : (members.map Prod.fst).Nodup) : Reordered (.obj members) (.obj others) := by
  -- the members before those that are put in another order stay where they are
  suffices hafter : ∀ before : Members,
      Reordered (.obj (before ++ members)) (.obj (before ++ others)) from hafter []
  induction h with
  | nil => exact fun _ ↦ .refl
  | @cons member members others hperm ih =>
    intro before
    have hrest := ih (List.nodup_cons.mp hdistinct).2 (before ++ [member])
    rwa [List.append_assoc, List.append_assoc] at hrest
  | swap a b members =>
    rw [List.map_cons, List.map_cons, List.nodup_cons] at hdistinct
    have hne : b.1 ≠ a.1 := fun heq ↦ hdistinct.1 (heq ▸ List.mem_cons_self)
    exact fun _ ↦ .single (.here hne)
  | trans hfirst hsecond ih ih' =>
    intro before
    have hnames := (hfirst.map Prod.fst).nodup_iff.mp hdistinct
    exact (ih hdistinct before).trans (ih' hnames before)

end Document

namespace Value

theorem ofMembers?_append (depth : Nat) (first second : Document.Members)
    (before : List (String × Value)) :
    ofMembers? depth before (first ++ second)
      = (ofMembers? depth before first).bind fun filed ↦ ofMembers? depth filed second := by
  induction first generalizing before with
  | nil => rfl
  | cons member rest ih =>
    obtain ⟨- | name, d⟩ := member
    · rfl
    · rw [List.cons_append, ofMembers?, ofMembers?]
      cases ofDocument? depth d with
      | none => rfl
      | some value => exact ih _

/-- Two members with different names are filed in either order. -/
theorem ofMembers?_exchange (depth : Nat) {a b : Option String × Document} (hne : a.1 ≠ b.1)
    (after : Document.Members) {before : List (String × Value)} (h : before.Pairwise Precedes) :
    ofMembers? depth before (a :: b :: after) = ofMembers? depth before (b :: a :: after) := by
  obtain ⟨- | name, d⟩ := a <;> obtain ⟨- | other, e⟩ := b
  · rfl
  · rw [ofMembers?, ofMembers?]
    cases ofDocument? depth e <;> rfl
  · rw [ofMembers?, ofMembers?]
    cases ofDocument? depth d <;> rfl
  · have hname : other ≠ name := fun heq ↦ hne (congrArg some heq.symm)
    rw [ofMembers?, ofMembers?]
    cases hd : ofDocument? depth d <;> cases he : ofDocument? depth e
    · rfl
    · simp [ofMembers?, hd]
    · simp [ofMembers?, he]
    · simp [ofMembers?, hd, he, insertEntry_comm hname _ _ h]

theorem ofDocument?_exchanged {d e : Document} (h : d.Exchanged e) (depth : Nat) :
    ofDocument? depth d = ofDocument? depth e := by
  induction h generalizing depth with
  | @here before after a b hne =>
    cases depth with
    | zero => rfl
    | succ depth =>
      rw [ofDocument?, ofDocument?, ofMembers?_append, ofMembers?_append]
      cases hfiled : ofMembers? depth [] before with
      | none => rfl
      | some filed =>
        have hsorted := (within_of_ofMembers? before List.Pairwise.nil (by simp) hfiled).1
        exact congrArg (Option.map obj) (ofMembers?_exchange depth hne after hsorted)
  | @item before after d e _ ih =>
    cases depth with
    | zero => rfl
    | succ depth =>
      have hitems : ofItems? depth (before ++ d :: after)
          = ofItems? depth (before ++ e :: after) := by
        induction before with
        | nil => rw [List.nil_append, List.nil_append, ofItems?, ofItems?, ih depth]
        | cons item rest ihRest =>
          rw [List.cons_append, List.cons_append, ofItems?, ofItems?, ihRest]
      rw [ofDocument?, ofDocument?, hitems]
  | @member before after name d e _ ih =>
    cases depth with
    | zero => rfl
    | succ depth =>
      rw [ofDocument?, ofDocument?, ofMembers?_append, ofMembers?_append]
      cases name with
      | none => rfl
      | some name =>
        simp only [ofMembers?, ih depth]

/-- **The order** of members with different names makes no difference to the value. -/
theorem ofDocument?_reordered {d e : Document} (h : d.Reordered e) (depth : Nat) :
    ofDocument? depth d = ofDocument? depth e := by
  induction h with
  | refl => rfl
  | tail _ hlast ih => exact ih.trans (ofDocument?_exchanged hlast depth)

end Value

end Json

end GameBridge
