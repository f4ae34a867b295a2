import GameBridge.Json.Record
import GameBridge.Proofs.Json.Grammar
import Mathlib.Data.List.Perm.Basic

/-!
# Members by their name

An object may have any number of members with one name. `Document.valuesOf` lists their values. A
record that other members may be added to has the shape it needs just if none of its names comes
twice, and a field is then the only value under its name (`Layout.fields?_obj_eq_some_iff`).

The lists of values do not depend on where members with other names stand, and in another order of
the members they are the same up to their own order (`MembersEdit.valuesOf_perm`). So a list with at
most one value, which is all that a record ever uses, stays the same.
-/

namespace GameBridge.Json

namespace Document

/-! ## Values under a name -/

/-- The values of the members with a name, in their order. -/
def valuesOf (name : String) (members : Members) : List Document :=
  (members.filter fun member ↦ member.1 == some name).map Prod.snd

@[simp] theorem valuesOf_append (name : String) (members others : Members) :
    valuesOf name (members ++ others) = valuesOf name members ++ valuesOf name others := by
  rw [valuesOf, List.filter_append, List.map_append, valuesOf, valuesOf]

@[simp] theorem valuesOf_cons_self (name : String) (value : Document) (members : Members) :
    valuesOf name ((some name, value) :: members) = value :: valuesOf name members := by
  simp [valuesOf]

theorem valuesOf_cons_of_ne {name other : String} (h : name ≠ other) (value : Document)
    (members : Members) :
    valuesOf name ((some other, value) :: members) = valuesOf name members := by
  simp [valuesOf, Ne.symm h]

theorem length_valuesOf (name : String) (members : Members) :
    (valuesOf name members).length = Layout.count name members := by
  rw [valuesOf, List.length_map, ← List.countP_eq_length_filter, Layout.count]

/-- Looking a name up finds the first value under it. -/
theorem head?_valuesOf (name : String) (members : Members) :
    (valuesOf name members).head? = members.lookup (some name) := by
  induction members with
  | nil => rfl
  | cons member rest ih =>
    obtain ⟨key, value⟩ := member
    rw [List.lookup_cons]
    by_cases hkey : key = some name
    · rw [hkey, valuesOf_cons_self, beq_self_eq_true, List.head?_cons]
    · rw [beq_eq_false_iff_ne.mpr (Ne.symm hkey), ← ih]
      simp [valuesOf, hkey]

/-- There is one value under a name just if the first one is the only one. -/
theorem valuesOf_eq_singleton_iff {name : String} {members : Members} {value : Document} :
    valuesOf name members = [value]
      ↔ Layout.count name members ≤ 1 ∧ members.lookup (some name) = some value := by
  rw [← length_valuesOf, ← head?_valuesOf]
  rcases valuesOf name members with - | ⟨first, - | ⟨second, rest⟩⟩ <;> simp

/-! ## Members that differ in what nobody looks up -/

/-- Members come in another order, or another one is among them that has none of the names. -/
inductive MembersEdit (names : List String) : Members → Members → Prop
  | reordered {members others : Members} (h : members.Perm others) :
      MembersEdit names members others
  | added (before after : Members) {name : String} (h : name ∉ names) (value : Document) :
      MembersEdit names (before ++ after) (before ++ (some name, value) :: after)

namespace MembersEdit

variable {names : List String} {members others : Members} {name : String}

theorem valuesOf_perm (h : MembersEdit names members others) (hname : name ∈ names) :
    (valuesOf name members).Perm (valuesOf name others) := by
  cases h with
  | reordered h => exact (h.filter _).map _
  | added before after hother value =>
    rw [valuesOf_append, valuesOf_append, valuesOf_cons_of_ne (ne_of_mem_of_not_mem hname hother)]

theorem eq_singleton_iff (h : MembersEdit names members others) (hname : name ∈ names)
    {value : Document} : valuesOf name members = [value] ↔ valuesOf name others = [value] := by
  have hperm := h.valuesOf_perm hname
  exact ⟨fun heq ↦ List.perm_singleton.mp (heq ▸ hperm.symm),
    fun heq ↦ List.perm_singleton.mp (heq ▸ hperm)⟩

theorem eq_nil_iff (h : MembersEdit names members others) (hname : name ∈ names) :
    valuesOf name members = [] ↔ valuesOf name others = [] := by
  have hperm := h.valuesOf_perm hname
  exact ⟨fun heq ↦ List.perm_nil.mp (heq ▸ hperm.symm), fun heq ↦ List.perm_nil.mp (heq ▸ hperm)⟩

end MembersEdit

/-! ## Documents in which every string has a text -/

theorem text?_eq_some_iff {d : Document} {s : String} : d.text? = some s ↔ d = .str (some s) := by
  cases d <;> simp [text?]

/-- Every string in a document has a text, the names of members among them. -/
def Textual (d : Document) : Prop := Token.str none ∉ d.tokens

theorem Writes.textual {d : Document} {text : List Char} (h : d.Writes text) : d.Textual :=
  h.str_none_notMem

private theorem notMem_moreItems {items : List Document} (h : Token.str none ∉ moreItems items) :
    ∀ item ∈ items, item.Textual := by
  induction items with
  | nil => simp
  | cons item rest ih =>
    rw [moreItems, List.mem_cons, List.mem_append, not_or, not_or] at h
    exact List.forall_mem_cons.mpr ⟨h.2.1, ih h.2.2⟩

private theorem notMem_moreMembers {members : Members}
    (h : Token.str none ∉ moreMembers members) :
    ∀ member ∈ members, member.1 ≠ none ∧ member.2.Textual := by
  induction members with
  | nil => simp
  | cons member rest ih =>
    obtain ⟨name, value⟩ := member
    simp only [moreMembers, List.mem_cons, List.mem_append, not_or, Token.str.injEq] at h
    exact List.forall_mem_cons.mpr ⟨⟨Ne.symm h.2.1, h.2.2.2.1⟩, ih h.2.2.2.2⟩

theorem Textual.items {items : List Document} (h : Textual (.arr items)) :
    ∀ item ∈ items, item.Textual := by
  cases items with
  | nil => simp
  | cons item rest =>
    -- the first item is followed by the same tokens as any other
    have hmore : Token.str none ∉ moreItems (item :: rest) := by
      simpa [Textual, tokens, moreItems] using h
    exact notMem_moreItems hmore

theorem Textual.members {members : Members} (h : Textual (.obj members)) :
    ∀ member ∈ members, member.1 ≠ none ∧ member.2.Textual := by
  cases members with
  | nil => simp
  | cons member rest =>
    have hmore : Token.str none ∉ moreMembers (member :: rest) := by
      simpa [Textual, tokens, moreMembers] using h
    exact notMem_moreMembers hmore

/-- Values under a name are among the members. -/
theorem Textual.of_mem_valuesOf {members : Members} (h : Textual (.obj members)) {name : String}
    {value : Document} (hvalue : value ∈ valuesOf name members) : value.Textual := by
  obtain ⟨member, hmember, rfl⟩ := List.mem_map.mp hvalue
  exact (h.members member (List.mem_of_mem_filter hmember)).2

end Document

/-! ## Records -/

/-- An object that may have other members has the shape of a record just if no name of the record
comes twice. Its fields are what is found under these names. -/
theorem Layout.fields?_obj_eq_some_iff {layout : Layout} (hopen : layout.closed = false)
    {members : Document.Members} (htext : Document.Textual (.obj members))
    {field : String → Option Document} :
    layout.fields? (.obj members) = some field
      ↔ (∀ name ∈ layout.names, count name members ≤ 1)
        ∧ field = fun name ↦ members.lookup (some name) := by
  have hadmits : members.all (fun member ↦ layout.admits member.1) = true := by
    rw [List.all_eq_true]
    intro member hmember
    obtain ⟨name, hname⟩ := Option.ne_none_iff_exists'.mp (htext.members member hmember).1
    simp [admits, hname, hopen]
  rw [fields?, hadmits, Bool.true_and, Option.ite_none_right_eq_some, List.all_eq_true]
  simp only [decide_eq_true_eq, Option.some.injEq]
  exact and_congr_right' eq_comm

end GameBridge.Json
