import MarkupText.Tree.Interchange
import Mathlib.Data.Char
import Mathlib.Data.List.Induction
import Mathlib.Data.List.Lex

/-!
# Attributes that are read

An object gives a name several values where it repeats a key or spells the name in more than one
case. Of a repeated key the last value counts, and of the spellings whose value is a scalar the last
in the order of texts; a spelling whose value is an array or an object does not count.
`Attributes.Reads` says so, and `Item.reads_readAttributes` that attributes are read so.
-/

namespace MarkupText
open Json

theorem Text.lt_iff (s t : Text) : Text.lt s t = true ↔ s < t := by
  fun_induction Text.lt s t with
  | case1 => simp
  | case2 => simp
  | case3 => simp
  | case4 c s d t ih =>
    simp only [Bool.or_eq_true, decide_eq_true_eq, Bool.and_eq_true, beq_iff_eq, ih,
      List.cons_lt_cons_iff]
    rfl

/-- What an object gives as the text of an attribute in one spelling: its last value under that key,
if that is a scalar. -/
def Item.scalar? (fields : List (Text × Value)) (key : Text) : Option Text :=
  (fields.reverse.lookup key).bind attributeText?

/-- The attributes hold what an object gives them. -/
structure Attributes.Reads (as : Attributes) (fields : List (Text × Value)) : Prop where
  /-- Each name stands once, in the order of names. -/
  ordered : as.Pairwise (·.1 < ·.1)
  /-- A name has the value of its last spelling with a scalar. -/
  get?_eq_some_iff : ∀ name value, as.get? name = some value ↔
    ∃ key, key.toLower = name ∧ Item.scalar? fields key = some value ∧
      ∀ other, other.toLower = name → (Item.scalar? fields other).isSome → other ≤ key

namespace Attributes
variable {as : Attributes}

/-! ### Setting attributes -/

theorem fst_of_mem_insert {name value : Text} {a : Text × Text}
    (h : a ∈ insert name value as) : a.1 = name ∨ a ∈ as := by
  induction as with
  | nil => exact .inl (congrArg Prod.fst (List.mem_singleton.1 h))
  | cons b as ih =>
    unfold insert at h
    split at h
    · rcases List.mem_cons.1 h with rfl | h
      · exact .inl rfl
      · exact .inr (List.mem_cons_of_mem _ h)
    · split at h
      · rcases List.mem_cons.1 h with rfl | h
        · exact .inl rfl
        · exact .inr h
      · rcases List.mem_cons.1 h with rfl | h
        · exact .inr List.mem_cons_self
        · exact (ih h).imp_right (List.mem_cons_of_mem _)

theorem ordered_insert (h : as.Pairwise (·.1 < ·.1)) (name value : Text) :
    (insert name value as).Pairwise (·.1 < ·.1) := by
  induction as with
  | nil => exact List.pairwise_singleton ..
  | cons a as ih =>
    obtain ⟨hfirst, hrest⟩ := List.pairwise_cons.1 h
    unfold insert
    split
    · rename_i heq
      exact List.pairwise_cons.2 ⟨fun b hb => heq ▸ hfirst b hb, hrest⟩
    · rename_i hne
      split
      · rename_i hlt
        have hlt : name < a.1 := (Text.lt_iff ..).1 hlt
        refine List.pairwise_cons.2 ⟨fun b hb => ?_, h⟩
        rcases List.mem_cons.1 hb with rfl | hb
        · exact hlt
        · exact hlt.trans (hfirst b hb)
      · rename_i hle
        have hlt : a.1 < name :=
          lt_of_le_of_ne (not_lt.1 (mt (Text.lt_iff ..).2 hle)) (Ne.symm hne)
        refine List.pairwise_cons.2 ⟨fun b hb => ?_, ih hrest⟩
        rcases fst_of_mem_insert hb with hb | hb
        · exact hb ▸ hlt
        · exact hfirst b hb

theorem ofList_append_singleton (l : List (Text × Text)) (a : Text × Text) :
    ofList (l ++ [a]) = insert a.1 a.2 (ofList l) := by
  simp [ofList]

theorem ordered_ofList (l : List (Text × Text)) : (ofList l).Pairwise (·.1 < ·.1) := by
  induction l using List.reverseRecOn with
  | nil => exact List.Pairwise.nil
  | append_singleton l a ih =>
    rw [ofList_append_singleton]
    exact ordered_insert ih a.1 a.2

theorem get?_ofList_append_singleton (l : List (Text × Text)) (a : Text × Text) (name : Text) :
    (ofList (l ++ [a])).get? name = if a.1 = name then some a.2 else (ofList l).get? name := by
  rw [ofList_append_singleton]
  split
  · rename_i h
    rw [← h, get?_insert_self]
  · rename_i h
    exact get?_insert_of_ne _ (Ne.symm h) _

end Attributes

namespace Item
variable {fields : List (Text × Value)}

/-! ### The fields in order -/

theorem sortedAttributes_append_singleton (fields : List (Text × Value)) (f : Text × Value) :
    sortedAttributes (fields ++ [f]) =
      ((sortedAttributes fields).filter (·.1 != f.1)).filter (fun e => Text.lt e.1 f.1) ++
        f :: ((sortedAttributes fields).filter (·.1 != f.1)).filter
          fun e => ! Text.lt e.1 f.1 := by
  simp [sortedAttributes, List.partition_eq_filter_filter, Function.comp_def]

/-- Sorting keeps the last value of each key. -/
theorem mem_sortedAttributes (fields : List (Text × Value)) (key : Text) (v : Value) :
    (key, v) ∈ sortedAttributes fields ↔ fields.reverse.lookup key = some v := by
  induction fields using List.reverseRecOn with
  | nil => simp [sortedAttributes]
  | append_singleton fields f ih =>
    obtain ⟨last, w⟩ := f
    rw [sortedAttributes_append_singleton, List.reverse_append, List.reverse_singleton,
      List.singleton_append, List.lookup_cons]
    simp only [List.mem_append, List.mem_cons, List.mem_filter, ih, Prod.mk.injEq]
    by_cases hkey : key = last
    · subst hkey
      simpa using eq_comm
    · rw [beq_false_of_ne hkey]
      cases Text.lt key last <;> simp [hkey]

theorem ordered_sortedAttributes (fields : List (Text × Value)) :
    (sortedAttributes fields).Pairwise (·.1 < ·.1) := by
  induction fields using List.reverseRecOn with
  | nil => exact List.Pairwise.nil
  | append_singleton fields f ih =>
    have hothers := ih.filter (·.1 != f.1)
    rw [sortedAttributes_append_singleton]
    refine List.pairwise_append.2
      ⟨hothers.filter _, List.pairwise_cons.2 ⟨?_, hothers.filter _⟩, ?_⟩
    · intro e he
      obtain ⟨he, hle⟩ := List.mem_filter.1 he
      have hne : e.1 ≠ f.1 := by simpa using (List.mem_filter.1 he).2
      have hle : ¬ e.1 < f.1 := mt (Text.lt_iff ..).2 (by simpa using hle)
      exact lt_of_le_of_ne (not_lt.1 hle) hne.symm
    · intro e he e' he'
      have hlt : e.1 < f.1 := (Text.lt_iff ..).1 (List.mem_filter.1 he).2
      rcases List.mem_cons.1 he' with rfl | he'
      · exact hlt
      · have hle : ¬ e'.1 < f.1 := mt (Text.lt_iff ..).2 (by simpa using (List.mem_filter.1 he').2)
        exact hlt.trans_le (not_lt.1 hle)

/-! ### Their texts -/

/-- The fields with a text, under the names in lower case. -/
def scalars (fields : List (Text × Value)) : List (Text × Text) :=
  fields.filterMap fun f => (attributeText? f.2).map fun t => (Text.toLower f.1, t)

theorem get?_ofList_scalars_append (fields : List (Text × Value)) (key : Text) (v : Value)
    (name : Text) : (Attributes.ofList (scalars (fields ++ [(key, v)]))).get? name =
      if key.toLower = name ∧ (attributeText? v).isSome then attributeText? v
      else (Attributes.ofList (scalars fields)).get? name := by
  unfold scalars
  rw [List.filterMap_append]
  cases hv : attributeText? v with
  | none => simp [hv]
  | some t => simp [hv, Attributes.get?_ofList_append_singleton]

/-- Of fields in order the last one of a name counts. -/
theorem get?_ofList_scalars (h : fields.Pairwise (·.1 < ·.1)) (name value : Text) :
    (Attributes.ofList (scalars fields)).get? name = some value ↔
      ∃ key v, (key, v) ∈ fields ∧ key.toLower = name ∧ attributeText? v = some value ∧
        ∀ other w, (other, w) ∈ fields → other.toLower = name → (attributeText? w).isSome →
          other ≤ key := by
  induction fields using List.reverseRecOn with
  | nil => simp [scalars, Attributes.ofList, Attributes.get?]
  | append_singleton fields f ih =>
    obtain ⟨hfields, -, hlast⟩ := List.pairwise_append.1 h
    obtain ⟨last, u⟩ := f
    have hlast : ∀ {key v}, (key, v) ∈ fields → key < last := fun hmem =>
      hlast _ hmem _ (List.mem_singleton_self _)
    rw [get?_ofList_scalars_append]
    by_cases hcounts : last.toLower = name ∧ (attributeText? u).isSome
    · rw [if_pos hcounts]
      constructor
      · intro hu
        refine ⟨last, u, by simp, hcounts.1, hu, fun other w hmem _ _ => ?_⟩
        rcases List.mem_append.1 hmem with hmem | hmem
        · exact (hlast hmem).le
        · exact (congrArg Prod.fst (List.mem_singleton.1 hmem)).le
      · rintro ⟨key, v, hmem, -, hv, hmax⟩
        rcases List.mem_append.1 hmem with hmem | hmem
        · exact absurd (hlast hmem) (not_lt.2 (hmax last u (by simp) hcounts.1 hcounts.2))
        · obtain ⟨-, rfl⟩ := Prod.ext_iff.1 (List.mem_singleton.1 hmem)
          exact hv
    · rw [if_neg hcounts, ih hfields]
      -- the last field has another name or no text, so the same fields count without it
      have hmem_iff {key v} (hkey : key.toLower = name) (hv : (attributeText? v).isSome) :
          (key, v) ∈ fields ++ [(last, u)] ↔ (key, v) ∈ fields := by
        rw [List.mem_append, List.mem_singleton, Prod.ext_iff]
        refine or_iff_left ?_
        rintro ⟨rfl, rfl⟩
        exact hcounts ⟨hkey, hv⟩
      refine exists_congr fun key => exists_congr fun v => ?_
      constructor
      · rintro ⟨hmem, hkey, hv, hmax⟩
        exact ⟨List.mem_append_left _ hmem, hkey, hv, fun other w hother hname hw =>
          hmax other w ((hmem_iff hname hw).1 hother) hname hw⟩
      · rintro ⟨hmem, hkey, hv, hmax⟩
        exact ⟨(hmem_iff hkey (by simp [hv])).1 hmem, hkey, hv, fun other w hother =>
          hmax other w (List.mem_append_left _ hother)⟩

theorem scalar?_eq_some_iff (fields : List (Text × Value)) (key value : Text) :
    scalar? fields key = some value ↔
      ∃ v, (key, v) ∈ sortedAttributes fields ∧ attributeText? v = some value := by
  simp [scalar?, Option.bind_eq_some_iff, mem_sortedAttributes]

theorem reads_readAttributes (tag : Text) (fields : List (Text × Value)) :
    (readAttributes tag fields).1.Reads fields where
  ordered := Attributes.ordered_ofList _
  get?_eq_some_iff := fun name value => by
    change (Attributes.ofList (scalars (sortedAttributes fields))).get? name = some value ↔ _
    rw [get?_ofList_scalars (ordered_sortedAttributes fields)]
    simp only [Option.isSome_iff_exists, scalar?_eq_some_iff]
    constructor
    · rintro ⟨key, v, hmem, hkey, hv, hmax⟩
      exact ⟨key, hkey, ⟨v, hmem, hv⟩, fun other hname ⟨t, w, hother, hw⟩ =>
        hmax other w hother hname ⟨t, hw⟩⟩
    · rintro ⟨key, hkey, ⟨v, hmem, hv⟩, hmax⟩
      exact ⟨key, v, hmem, hkey, hv, fun other w hother hname ⟨t, hw⟩ =>
        hmax other hname ⟨t, w, hother, hw⟩⟩

end Item
end MarkupText
