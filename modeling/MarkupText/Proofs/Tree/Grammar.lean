import MarkupText.Tree.Interchange

/-!
# The nodes of JSON values

`Item.IsNode` is the grammar of nodes. An object may have the keys of several forms; it is a text
leaf only if it is no element, and a comment only if it is neither. That it is no element may be due
to a value deep in its children, so the grammar also says which values are no node (`Item.NoNode`).
The two exclude each other and leave out no value: `Item.ofJson?_eq_some_iff` and
`Item.ofJson?_eq_none_iff` show that the reader finds the one node of a value that is a node, and
none of a value that is not.
-/

namespace MarkupText.Item
open Json

/-! ### The grammar -/

/-- An object does not have the key. -/
def Lacks (fields : List (Text × Value)) (key : String) : Prop :=
  fields.filter (·.1 == key.toList) = []

/-- An object has the key once, with the value `v`. -/
def Holds (fields : List (Text × Value)) (key : String) (v : Value) : Prop :=
  fields.filter (·.1 == key.toList) = [(key.toList, v)]

/-- The attributes that an object gives to an element. -/
inductive HasAttributes (fields : List (Text × Value)) : List (Text × Value) → Prop
  | absent : Lacks fields "attrs" → HasAttributes fields []
  | object {attributes : List (Text × Value)} : Holds fields "attrs" (.object attributes) →
      HasAttributes fields attributes

mutual

/-- A value is a node. -/
inductive IsNode : Value → Item → Prop
  | string (t : Text) : IsNode (.string t) (.text t)
  | element {fields name attributes children} : Holds fields "tag" (.string name) →
      HasAttributes fields attributes → HasChildren fields children →
      IsNode (.object fields) (.element name attributes children)
  | text {fields t} : NoElement fields → Holds fields "text" (.string t) →
      IsNode (.object fields) (.text t)
  | comment {fields t} : NoElement fields → (∀ s, ¬ Holds fields "text" (.string s)) →
      Holds fields "comment" (.string t) → IsNode (.object fields) (.comment t)

/-- Each value of a list is a node. -/
inductive AreNodes : List Value → List Item → Prop
  | nil : AreNodes [] []
  | cons {v vs i is} : IsNode v i → AreNodes vs is → AreNodes (v :: vs) (i :: is)

/-- The children that an object gives to an element. -/
inductive HasChildren : List (Text × Value) → List Item → Prop
  | absent {fields} : Lacks fields "children" → HasChildren fields []
  | array {fields vs is} : Holds fields "children" (.array vs) → AreNodes vs is →
      HasChildren fields is

/-- An object is no element. -/
inductive NoElement : List (Text × Value) → Prop
  | tag {fields} : (∀ name, ¬ Holds fields "tag" (.string name)) → NoElement fields
  | attributes {fields} : (∀ attributes, ¬ HasAttributes fields attributes) → NoElement fields
  | children {fields} : ¬ Lacks fields "children" → (∀ vs, ¬ Holds fields "children" (.array vs)) →
      NoElement fields
  | child {fields vs v} : Holds fields "children" (.array vs) → v ∈ vs → NoNode v →
      NoElement fields

/-- A value is no node. -/
inductive NoNode : Value → Prop
  | null : NoNode .null
  | bool (b) : NoNode (.bool b)
  | number (n) : NoNode (.number n)
  | array (vs) : NoNode (.array vs)
  | object {fields} : NoElement fields → (∀ s, ¬ Holds fields "text" (.string s)) →
      (∀ s, ¬ Holds fields "comment" (.string s)) → NoNode (.object fields)

end

/-- A value is a node or an array of nodes. -/
inductive AreRoots : Value → List Item → Prop
  | one {v : Value} {i : Item} : IsNode v i → AreRoots v [i]
  | many {vs : List Value} {is : List Item} : AreNodes vs is → AreRoots (.array vs) is

/-! ### Keys -/

variable {fields : List (Text × Value)} {key : String} {v : Value} {t : Text} {i : Item}

theorem lookup_eq_head? (fields : List (Text × Value)) (key : String) :
    fields.lookup key.toList = (fields.filter (·.1 == key.toList)).head?.map (·.2) := by
  induction fields with
  | nil => rfl
  | cons f fields ih =>
    rw [List.lookup_cons, List.filter_cons, BEq.comm]
    cases f.1 == key.toList <;> simp [ih]

theorem Lacks.lookup (h : Lacks fields key) : fields.lookup key.toList = none := by
  rw [lookup_eq_head?, h]
  rfl

theorem Holds.lookup (h : Holds fields key v) : fields.lookup key.toList = some v := by
  rw [lookup_eq_head?, h]
  rfl

theorem Lacks.atMostOnce (h : Lacks fields key) : Item.atMostOnce fields key = true := by
  simp [Item.atMostOnce, show fields.filter (·.1 == key.toList) = [] from h]

theorem Holds.atMostOnce (h : Holds fields key v) : Item.atMostOnce fields key = true := by
  simp [Item.atMostOnce, show fields.filter (·.1 == key.toList) = _ from h]

theorem Holds.mem (h : Holds fields key v) : (key.toList, v) ∈ fields := by
  have hmem : (key.toList, v) ∈ fields.filter (·.1 == key.toList) := by
    rw [h]
    exact List.mem_singleton_self _
  exact (List.mem_filter.1 hmem).1

/-- A key that occurs at most once is absent or has a value. -/
theorem lacks_or_holds (h : Item.atMostOnce fields key = true) :
    Lacks fields key ∨ ∃ v, Holds fields key v := by
  have hlength : (fields.filter (·.1 == key.toList)).length ≤ 1 := of_decide_eq_true h
  rcases Nat.le_one_iff_eq_zero_or_eq_one.1 hlength with hzero | hone
  · exact .inl (List.length_eq_zero_iff.1 hzero)
  · obtain ⟨⟨k, v⟩, hf⟩ := List.length_eq_one_iff.1 hone
    have hmem : (k, v) ∈ fields.filter (·.1 == key.toList) := by simp [hf]
    obtain rfl : k = key.toList := eq_of_beq (List.mem_filter.1 hmem).2
    exact .inr ⟨v, hf⟩

/-! ### The fields of a form -/

theorem stringField?_eq_some_iff :
    stringField? fields key = some t ↔ Holds fields key (.string t) := by
  constructor
  · intro h
    unfold stringField? at h
    split at h
    · rename_i honce
      rcases lacks_or_holds honce with hlacks | ⟨v, hv⟩
      · rw [hlacks.lookup] at h
        cases h
      · rw [hv.lookup] at h
        cases v with
        | string s =>
          obtain rfl := Option.some.inj h
          exact hv
        | _ => cases h
    · cases h
  · intro h
    simp [stringField?, h.atMostOnce, h.lookup]

theorem stringField?_eq_none_iff :
    stringField? fields key = none ↔ ∀ t, ¬ Holds fields key (.string t) := by
  simp only [Option.eq_none_iff_forall_ne_some, ne_eq, stringField?_eq_some_iff]

theorem attributesField?_eq_some_iff {attributes : List (Text × Value)} :
    attributesField? fields = some attributes ↔ HasAttributes fields attributes := by
  constructor
  · intro h
    unfold attributesField? at h
    split at h
    · rename_i honce
      rcases lacks_or_holds honce with hlacks | ⟨v, hv⟩
      · rw [hlacks.lookup] at h
        obtain rfl := Option.some.inj h
        exact .absent hlacks
      · rw [hv.lookup] at h
        cases v with
        | object attributes =>
          obtain rfl := Option.some.inj h
          exact .object hv
        | _ => cases h
    · cases h
  · rintro (hlacks | hv)
    · rw [attributesField?, if_pos hlacks.atMostOnce, hlacks.lookup]
    · rw [attributesField?, if_pos hv.atMostOnce, hv.lookup]

/-- The children in the fields of an object. -/
def childrenField? (fields : List (Text × Value)) : Option (List Item) :=
  if atMostOnce fields "children" then
    ((fieldNodes fields).lookup "children".toList).getD (some [])
  else none

theorem lookup_fieldNodes (fields : List (Text × Value)) (key : Text) :
    (fieldNodes fields).lookup key = (fields.lookup key).map fun
      | .array vs => listOfJson? vs
      | _ => none := by
  induction fields with
  | nil => simp [fieldNodes]
  | cons f fields ih =>
    obtain ⟨k, v⟩ := f
    cases v <;> simp only [fieldNodes, List.lookup_cons, ih] <;> cases key == k <;> rfl

/-- The node of an object by its fields. -/
theorem ofJson?_object (fields : List (Text × Value)) : ofJson? (.object fields) =
    match stringField? fields "tag", attributesField? fields, childrenField? fields with
    | some name, some attributes, some children => some (.element name attributes children)
    | _, _, _ => (stringField? fields "text").map text <|>
        (stringField? fields "comment").map comment := by
  rw [ofJson?, ofFields?]
  unfold childrenField?
  cases stringField? fields "tag" with
  | none => rfl
  | some name =>
    cases attributesField? fields with
    | none => rfl
    | some attributes =>
      cases atMostOnce fields "children" with
      | false => rfl
      | true => cases ((fieldNodes fields).lookup "children".toList).getD (some []) <;> rfl

theorem noNode_object_iff : NoNode (.object fields) ↔
    NoElement fields ∧ stringField? fields "text" = none ∧
      stringField? fields "comment" = none := by
  simp only [stringField?_eq_none_iff]
  constructor
  · intro hno
    cases hno with
    | object hno htext hcomment => exact ⟨hno, htext, hcomment⟩
  · intro ⟨hno, htext, hcomment⟩
    exact .object hno htext hcomment

/-! ### Values -/

/-- What the reader says of a list of values is so, and nothing else. -/
structure AllDecided (vs : List Value) : Prop where
  areNodes_iff : ∀ is, AreNodes vs is ↔ listOfJson? vs = some is
  noNode_iff : (∃ v ∈ vs, NoNode v) ↔ listOfJson? vs = none

/-- What the reader says of a value is so, and nothing else. -/
structure Decided (v : Value) : Prop where
  isNode_iff : ∀ i, IsNode v i ↔ ofJson? v = some i
  noNode_iff : NoNode v ↔ ofJson? v = none
  items : ∀ vs, v = .array vs → AllDecided vs

theorem allDecided_nil : AllDecided [] where
  areNodes_iff := fun is => by
    constructor
    · rintro ⟨⟩
      rfl
    · intro h
      obtain rfl := Option.some.inj h
      exact .nil
  noNode_iff := by simp [listOfJson?]

theorem AllDecided.cons {vs : List Value} (hv : Decided v) (hvs : AllDecided vs) :
    AllDecided (v :: vs) where
  areNodes_iff := fun is => by
    constructor
    · rintro (_ | ⟨hi, his⟩)
      simp [listOfJson?, (hv.isNode_iff _).1 hi, (hvs.areNodes_iff _).1 his]
    · intro h
      unfold listOfJson? at h
      split at h
      · rename_i hi his
        obtain rfl := Option.some.inj h
        exact .cons ((hv.isNode_iff _).2 hi) ((hvs.areNodes_iff _).2 his)
      · cases h
  noNode_iff := by
    simp only [List.mem_cons, exists_eq_or_imp, hv.noNode_iff, hvs.noNode_iff, listOfJson?]
    cases ofJson? v <;> cases listOfJson? vs <;> simp

/-- The lists of values in an object are decided. -/
def ListsDecided (fields : List (Text × Value)) : Prop :=
  ∀ k vs, (k, .array vs) ∈ fields → AllDecided vs

theorem childrenField?_of_lacks (h : Lacks fields "children") :
    childrenField? fields = some [] := by
  rw [childrenField?, if_pos h.atMostOnce, lookup_fieldNodes, h.lookup]
  rfl

theorem childrenField?_of_array {vs : List Value} (h : Holds fields "children" (.array vs)) :
    childrenField? fields = listOfJson? vs := by
  rw [childrenField?, if_pos h.atMostOnce, lookup_fieldNodes, h.lookup]
  rfl

theorem childrenField?_of_other (habsent : ¬ Lacks fields "children")
    (harray : ∀ vs, ¬ Holds fields "children" (.array vs)) : childrenField? fields = none := by
  unfold childrenField?
  split
  · rename_i honce
    obtain ⟨v, hv⟩ := (lacks_or_holds honce).resolve_left habsent
    rw [lookup_fieldNodes, hv.lookup]
    cases v with
    | array vs => exact absurd hv (harray vs)
    | _ => rfl
  · rfl

namespace ListsDecided

theorem hasChildren_iff (h : ListsDecided fields) (is : List Item) :
    HasChildren fields is ↔ childrenField? fields = some is := by
  constructor
  · rintro (habsent | ⟨harray, his⟩)
    · exact childrenField?_of_lacks habsent
    · rw [childrenField?_of_array harray]
      exact ((h _ _ harray.mem).areNodes_iff is).1 his
  · intro hsome
    by_cases habsent : Lacks fields "children"
    · rw [childrenField?_of_lacks habsent] at hsome
      obtain rfl := Option.some.inj hsome
      exact .absent habsent
    by_cases harray : ∃ vs, Holds fields "children" (.array vs)
    · obtain ⟨vs, harray⟩ := harray
      rw [childrenField?_of_array harray] at hsome
      exact .array harray (((h _ _ harray.mem).areNodes_iff is).2 hsome)
    · rw [childrenField?_of_other habsent (not_exists.1 harray)] at hsome
      cases hsome

theorem noElement_iff (h : ListsDecided fields) : NoElement fields ↔
    stringField? fields "tag" = none ∨ attributesField? fields = none ∨
      childrenField? fields = none := by
  constructor
  · rintro (htag | hattributes | ⟨habsent, harray⟩ | ⟨harray, hmem, hv⟩)
    · exact .inl (stringField?_eq_none_iff.2 htag)
    · exact .inr (.inl (Option.eq_none_iff_forall_ne_some.2 fun as has =>
        hattributes as (attributesField?_eq_some_iff.1 has)))
    · exact .inr (.inr (childrenField?_of_other habsent harray))
    · rw [childrenField?_of_array harray]
      exact .inr (.inr ((h _ _ harray.mem).noNode_iff.1 ⟨_, hmem, hv⟩))
  · rintro (htag | hattributes | hchildren)
    · exact .tag (stringField?_eq_none_iff.1 htag)
    · exact .attributes fun as has => by
        rw [attributesField?_eq_some_iff.2 has] at hattributes
        cases hattributes
    · by_cases habsent : Lacks fields "children"
      · rw [childrenField?_of_lacks habsent] at hchildren
        cases hchildren
      by_cases harray : ∃ vs, Holds fields "children" (.array vs)
      · obtain ⟨vs, harray⟩ := harray
        rw [childrenField?_of_array harray] at hchildren
        obtain ⟨v, hmem, hv⟩ := (h _ _ harray.mem).noNode_iff.2 hchildren
        exact .child harray hmem hv
      · exact .children habsent (not_exists.1 harray)

/-- The forms of an object in the order in which they are tried. -/
theorem isNode_iff (h : ListsDecided fields) (i : Item) : IsNode (.object fields) i ↔
    (∃ name attributes children, stringField? fields "tag" = some name ∧
      attributesField? fields = some attributes ∧ childrenField? fields = some children ∧
      i = element name attributes children) ∨
    NoElement fields ∧ ((∃ t, stringField? fields "text" = some t ∧ i = .text t) ∨
      stringField? fields "text" = none ∧ ∃ t, stringField? fields "comment" = some t ∧
        i = .comment t) := by
  constructor
  · rintro (_ | ⟨hname, hattributes, hchildren⟩ | ⟨hno, ht⟩ | ⟨hno, hnotext, ht⟩)
    · exact .inl ⟨_, _, _, stringField?_eq_some_iff.2 hname,
        attributesField?_eq_some_iff.2 hattributes, (h.hasChildren_iff _).1 hchildren, rfl⟩
    · exact .inr ⟨hno, .inl ⟨_, stringField?_eq_some_iff.2 ht, rfl⟩⟩
    · exact .inr ⟨hno, .inr ⟨stringField?_eq_none_iff.2 hnotext, _,
        stringField?_eq_some_iff.2 ht, rfl⟩⟩
  · rintro (⟨_, _, _, hname, hattributes, hchildren, rfl⟩ |
      ⟨hno, ⟨t, ht, rfl⟩ | ⟨hnotext, t, ht, rfl⟩⟩)
    · exact .element (stringField?_eq_some_iff.1 hname)
        (attributesField?_eq_some_iff.1 hattributes) ((h.hasChildren_iff _).2 hchildren)
    · exact .text hno (stringField?_eq_some_iff.1 ht)
    · exact .comment hno (stringField?_eq_none_iff.1 hnotext) (stringField?_eq_some_iff.1 ht)

theorem cons {k : Text} (hv : Decided v) (h : ListsDecided fields) :
    ListsDecided ((k, v) :: fields) := by
  intro k' vs hmem
  rcases List.mem_cons.1 hmem with heq | hmem
  · exact hv.items vs (congrArg Prod.snd heq).symm
  · exact h k' vs hmem

theorem decided (h : ListsDecided fields) : Decided (.object fields) := by
  have hno := h.noElement_iff
  refine ⟨fun i => ?_, ?_, nofun⟩
  · rw [h.isNode_iff, hno, ofJson?_object]
    cases stringField? fields "tag" <;> cases attributesField? fields <;>
      cases childrenField? fields <;> cases stringField? fields "text" <;>
      cases stringField? fields "comment" <;> simp [eq_comm]
  · rw [noNode_object_iff, hno, ofJson?_object]
    cases stringField? fields "tag" <;> cases attributesField? fields <;>
      cases childrenField? fields <;> cases stringField? fields "text" <;>
      cases stringField? fields "comment" <;> simp

end ListsDecided

mutual

theorem decided : ∀ v : Value, Decided v
  | .null => ⟨fun _ => ⟨nofun, nofun⟩, ⟨fun _ => rfl, fun _ => .null⟩, nofun⟩
  | .bool b => ⟨fun _ => ⟨nofun, nofun⟩, ⟨fun _ => rfl, fun _ => .bool b⟩, nofun⟩
  | .number n => ⟨fun _ => ⟨nofun, nofun⟩, ⟨fun _ => rfl, fun _ => .number n⟩, nofun⟩
  | .string t => ⟨fun _ => ⟨fun | .string t => rfl, fun h => Option.some.inj h ▸ .string t⟩,
      ⟨nofun, nofun⟩, nofun⟩
  | .array vs => ⟨fun _ => ⟨nofun, nofun⟩, ⟨fun _ => rfl, fun _ => .array vs⟩,
      fun _ h => Value.array.inj h ▸ allDecided vs⟩
  | .object fields => (listsDecided fields).decided

theorem allDecided : ∀ vs : List Value, AllDecided vs
  | [] => allDecided_nil
  | v :: vs => .cons (decided v) (allDecided vs)

theorem listsDecided : ∀ fields : List (Text × Value), ListsDecided fields
  | [] => nofun
  | (_, v) :: fields => .cons (decided v) (listsDecided fields)

end

theorem ofJson?_eq_some_iff (v : Value) (i : Item) : ofJson? v = some i ↔ IsNode v i :=
  ((decided v).isNode_iff i).symm

theorem ofJson?_eq_none_iff (v : Value) : ofJson? v = none ↔ NoNode v :=
  (decided v).noNode_iff.symm

theorem rootsOfJson?_eq_some_iff (v : Value) (is : List Item) :
    rootsOfJson? v = some is ↔ AreRoots v is := by
  constructor
  · intro h
    unfold rootsOfJson? at h
    split at h
    · exact .many (((allDecided _).areNodes_iff is).2 h)
    · obtain ⟨i, hi, rfl⟩ := Option.map_eq_some_iff.1 h
      exact .one ((ofJson?_eq_some_iff v i).1 hi)
  · intro h
    cases h with
    | one hi =>
      have hone := (ofJson?_eq_some_iff _ _).2 hi
      cases v with
      | array vs => cases hi
      | _ =>
        rw [rootsOfJson?, hone, Option.map_some]
        nofun
    | many his => exact ((allDecided _).areNodes_iff is).1 his

end MarkupText.Item
