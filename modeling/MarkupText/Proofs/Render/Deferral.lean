import MarkupText.Proofs.Render.Requests
import MarkupText.Proofs.Tree.Built
import MarkupText.Proofs.Tree.Descendants

/-!
# Images that tables hold back

A table shows its caption and has its cells drawn aside, without images; behind the outermost table
the images below its cells are entered. In a tree the nodes entered on the page are therefore those
that are shown there and the images below the cells of the tables there (`visited_node`), and each
of these images gets one request (`requested_renderWith`). The cells are searched without regard to
the rules, so images get requests there that are skipped elsewhere (`requested_hiddenImage`).
-/

namespace MarkupText

namespace Grid
variable {t : Tree} {table row c x : NodeId} {p : Tag → Bool}

theorem mem_childrenWith : c ∈ childrenWith t x p ↔
    t.IsParent x c ∧ ∃ tag, t.tag? c = some tag ∧ p tag = true := by
  unfold childrenWith Tree.IsParent
  rw [List.mem_filter]
  refine and_congr_right fun _ => ?_
  cases t.tag? c with
  | none => simp
  | some tag => simp

theorem exists_of_mem_rowsOf (h : row ∈ rowsOf t table p) : ∃ d, t.IsParent table d ∧
    (∃ tag, t.tag? d = some tag ∧ p tag = true) ∧ t.Below d row := by
  obtain ⟨d, hd, hrow⟩ := List.mem_flatMap.1 h
  obtain ⟨hparent, htag⟩ := mem_childrenWith.1 hd
  refine ⟨d, hparent, htag, ?_⟩
  split at hrow
  · rw [List.mem_singleton.1 hrow]
    exact .refl
  · exact .single (mem_childrenWith.1 hrow).1

/-- A cell is below a child of the table that is not a caption. -/
theorem exists_of_mem_cellNodes (h : c ∈ (collect t table).1.cellNodes) :
    (∃ d, t.IsParent table d ∧ t.tag? d ≠ some .caption ∧ t.Below d c) ∧
      ∃ tag, t.tag? c = some tag ∧ tag.isCell = true := by
  obtain ⟨row, hrow, hc⟩ : ∃ row ∈ rowNodes t table, c ∈ cellsOf t row := by
    rw [collect_eq] at h
    obtain ⟨cells, hcells, hc⟩ := List.mem_flatMap.1 h
    have hmem {columns : Nat} {row : Option NodeId} {cs : List NodeId}
        (h : c ∈ (filledRow columns row cs).cells.filterMap id) : c ∈ cs := by
      simpa [filledRow, List.mem_filterMap] using h
    dsimp only at hcells
    split at hcells
    · rw [List.mem_singleton.1 hcells] at hc
      cases hmem hc
    · rw [List.zipWith_map_right, List.zipWith_self] at hcells
      obtain ⟨row, hrow, rfl⟩ := List.mem_map.1 hcells
      exact ⟨row, hrow, hmem hc⟩
  obtain ⟨hparent, htag⟩ := mem_childrenWith.1 hc
  refine ⟨?_, htag⟩
  have hrows {p : Tag → Bool} (hp : p .caption = false) (h : row ∈ rowsOf t table p) :
      ∃ d, t.IsParent table d ∧ t.tag? d ≠ some .caption ∧ t.Below d c := by
    obtain ⟨d, hd, ⟨tag, htag, hptag⟩, hbelow⟩ := exists_of_mem_rowsOf h
    refine ⟨d, hd, fun hcaption => ?_, hbelow.tail hparent⟩
    rw [htag] at hcaption
    rw [Option.some.inj hcaption, hp] at hptag
    cases hptag
  rcases List.mem_append.1 hrow with hrow | hrow
  · rcases List.mem_append.1 hrow with hrow | hrow
    · exact hrows (by decide) hrow
    · exact hrows (by decide) hrow
  · exact hrows (by decide) hrow

end Grid

namespace Renderer
variable {s : Scene} {p a b c x : NodeId} {e : Element} {r : Renderer} {levels n : Nat}
  {content : Content}

/-! ### Nodes that are reached -/

/-- The node `p` shows `x` on its page. -/
def Shows (s : Scene) (p x : NodeId) : Prop :=
  ∃ content, (s.tree.get? p).map Node.content = some content ∧ x ∈ shown s p content

/-- The node `p` is a table, and `c` one of its cells. -/
def HasCell (s : Scene) (p c : NodeId) : Prop :=
  s.tree.tag? p = some .table ∧ c ∈ (Grid.collect s.tree p).1.cellNodes

/-- The rules of the elements lead from `p` to `x`, on the page or in a cell. -/
def LeadsTo (s : Scene) (p x : NodeId) : Prop := Shows s p x ∨ HasCell s p x

/-- The table `p` holds the image `x` back. -/
def HoldsBack (s : Scene) (p x : NodeId) : Prop :=
  (fetched? s x).isSome = true ∧ ∃ c, HasCell s p c ∧ x ∈ s.tree.descendants c

/-- The node `x` is entered in the course of a visit of `a`. -/
def Reached (s : Scene) (a x : NodeId) : Prop :=
  (s.tree.get? x).isSome = true ∧
    ∃ p, Relation.ReflTransGen (Shows s) a p ∧ (x = p ∨ HoldsBack s p x)

/-- A table shows its caption. -/
theorem shownBy_table (h : e.tag.role = .table) (p : NodeId) : shownBy s p e = [] ∨
    ∃ k, s.tree.IsParent p k ∧ s.tree.tag? k = some .caption ∧
      shownBy s p e = s.tree.children k := by
  unfold shownBy
  simp only [h]
  cases hcaption : (Grid.collect s.tree p).1.caption with
  | none => exact .inl rfl
  | some k =>
    have hk := List.mem_of_mem_head? (Option.mem_def.2 hcaption)
    obtain ⟨hparent, tag, htag, hcap⟩ := Grid.mem_childrenWith.1 hk
    exact .inr ⟨k, hparent, by rw [htag, of_decide_eq_true hcap], rfl⟩

/-- Any other element shows children of its own, all of those that it shows at all. -/
theorem exists_shownBy_eq_filter (h : e.tag.role ≠ .table) (p : NodeId) :
    ∃ keep : NodeId → Bool, shownBy s p e = (s.tree.children p).filter keep := by
  have hnone : ∃ keep : NodeId → Bool, [] = (s.tree.children p).filter keep :=
    ⟨fun _ => false, by simp⟩
  have hall : ∃ keep : NodeId → Bool, s.tree.children p = (s.tree.children p).filter keep :=
    ⟨fun _ => true, by simp⟩
  unfold shownBy
  cases hrole : e.tag.role with
  | hidden | lineBreak | ruler | image => exact hnone
  | head => exact ⟨_, rfl⟩
  | media label =>
    dsimp only
    split
    · exact hnone
    · exact hall
  | table => exact absurd hrole h
  | _ => exact hall

theorem shownBy_sublist (h : e.tag.role ≠ .table) (p : NodeId) :
    (shownBy s p e).Sublist (s.tree.children p) := by
  obtain ⟨keep, hkeep⟩ := exists_shownBy_eq_filter h p
  rw [hkeep]
  exact List.filter_sublist

theorem shown_sublist (s : Scene) (p : NodeId) (content : Content) :
    (shown s p content).Sublist (s.tree.children p) ∨
      ∃ k, s.tree.IsParent p k ∧ shown s p content = s.tree.children k := by
  cases content with
  | document => exact .inl (List.Sublist.refl _)
  | text t => exact .inl (List.nil_sublist _)
  | comment t => exact .inl (List.nil_sublist _)
  | element e =>
    change (shownBy s p e).Sublist _ ∨ ∃ k, _ ∧ shownBy s p e = _
    by_cases htable : e.tag.role = .table
    · rcases shownBy_table htable p with hnil | ⟨k, hk, -, heq⟩
      · exact .inl (hnil ▸ List.nil_sublist _)
      · exact .inr ⟨k, hk, heq⟩
    · exact .inl (shownBy_sublist htable p)

theorem exists_child_of_shows (h : Shows s p x) : ∃ k, s.tree.IsParent p k ∧ s.tree.Below k x := by
  obtain ⟨content, -, hx⟩ := h
  rcases shown_sublist s p content with hsub | ⟨k, hk, heq⟩
  · exact ⟨x, hsub.subset hx, .refl⟩
  · rw [heq] at hx
    exact ⟨k, hk, .single hx⟩

theorem below_of_shows (h : Shows s p x) : s.tree.Below p x := by
  obtain ⟨k, hk, hkx⟩ := exists_child_of_shows h
  exact .head hk hkx

theorem exists_child_of_hasCell (h : HasCell s p c) : ∃ k, s.tree.IsParent p k ∧
    s.tree.tag? k ≠ some .caption ∧ s.tree.Below k c :=
  (Grid.exists_of_mem_cellNodes h.2).1

theorem exists_child_of_holdsBack (h : HoldsBack s p x) : ∃ k, s.tree.IsParent p k ∧
    s.tree.tag? k ≠ some .caption ∧ s.tree.Below k x := by
  obtain ⟨-, c, hc, hx⟩ := h
  obtain ⟨k, hk, htag, hkc⟩ := exists_child_of_hasCell hc
  exact ⟨k, hk, htag, hkc.trans (Tree.below_of_mem_descendants hx)⟩

theorem below_of_reached (h : Reached s a x) : s.tree.Below a x := by
  obtain ⟨-, p, hp, hx⟩ := h
  have hap : s.tree.Below a p := Relation.reflTransGen_closed (fun _ _ => below_of_shows) a p hp
  rcases hx with rfl | hx
  · exact hap
  · obtain ⟨k, hk, -, hkx⟩ := exists_child_of_holdsBack hx
    exact hap.trans (.head hk hkx)

theorem tag_of_fetched (h : (fetched? s x).isSome = true) : s.tree.tag? x = some .img := by
  unfold fetched? at h
  unfold Tree.tag?
  cases he : s.tree.element? x with
  | none => simp [he] at h
  | some e =>
    rw [he] at h
    by_cases himg : e.tag = .img
    · exact congrArg some himg
    · simp [himg] at h

theorem isSome_get?_of_tag? {tag : Tag} (h : s.tree.tag? x = some tag) :
    (s.tree.get? x).isSome = true := by
  unfold Tree.tag? Tree.element? at h
  cases hget : s.tree.get? x with
  | none => simp [hget] at h
  | some node => rfl

theorem isSome_get?_of_fetched (h : (fetched? s x).isSome = true) :
    (s.tree.get? x).isSome = true :=
  isSome_get?_of_tag? (tag_of_fetched h)

/-- What a visit enters is its node, the images held back there, and what is entered from the nodes
shown. -/
theorem reached_iff : Reached s a x ↔ (s.tree.get? x).isSome = true ∧ x = a ∨ HoldsBack s a x ∨
    ∃ b, Shows s a b ∧ Reached s b x := by
  constructor
  · rintro ⟨hget, p, hp, hx⟩
    rcases Relation.ReflTransGen.cases_head hp with rfl | ⟨b, hb, hbp⟩
    · exact hx.imp (fun h => ⟨hget, h⟩) .inl
    · exact .inr (.inr ⟨b, hb, hget, p, hbp, hx⟩)
  · rintro (⟨hget, rfl⟩ | hx | ⟨b, hb, hget, p, hbp, hx⟩)
    · exact ⟨hget, x, .refl, .inl rfl⟩
    · exact ⟨isSome_get?_of_fetched hx.1, a, .refl, .inr hx⟩
    · exact ⟨hget, p, .head hb hbp, hx⟩

/-- An image leads no further. -/
theorem reached_image (h : (fetched? s a).isSome = true) : Reached s a x ↔ x = a := by
  have htag := tag_of_fetched h
  rw [reached_iff]
  constructor
  · rintro (⟨-, rfl⟩ | ⟨-, c, hc, -⟩ | ⟨b, ⟨content, hcontent, hb⟩, -⟩)
    · rfl
    · rw [hc.1] at htag
      cases htag
    · unfold Tree.tag? Tree.element? at htag
      rw [hcontent] at htag
      cases content with
      | element e =>
        have himg : e.tag = .img := Option.some.inj htag
        change b ∈ shownBy s a e at hb
        unfold shownBy at hb
        simp only [role_eq_image.2 himg] at hb
        cases hb
      | _ => cases htag
  · rintro rfl
    exact .inl ⟨isSome_get?_of_fetched h, rfl⟩

theorem mem_deferredImages {g : Grid} : x ∈ deferredImages s g ↔
    (fetched? s x).isSome = true ∧ ∃ c ∈ g.cellNodes, x ∈ s.tree.descendants c := by
  unfold deferredImages fetched?
  rw [List.mem_filter, List.mem_eraseDups, List.mem_flatMap, and_comm]
  refine and_congr_left fun _ => ?_
  cases s.tree.element? x with
  | none => simp
  | some e => by_cases himg : e.tag = .img <;> simp [himg]

theorem mem_deferred (hcontent : (s.tree.get? a).map Node.content = some content)
    (hdepth : r.layout.tableDepth = 0) : x ∈ deferred s a content r ↔ HoldsBack s a x := by
  unfold HoldsBack HasCell Tree.tag? Tree.element?
  rw [hcontent]
  cases content with
  | element e =>
    change x ∈ deferredBy s a e r ↔ _
    unfold deferredBy
    by_cases htable : e.tag = .table
    · rw [if_pos ⟨role_eq_table.2 htable, hdepth⟩, mem_deferredImages]
      simp [htable]
    · rw [if_neg fun h => htable (role_eq_table.1 h.1)]
      simp [htable]
  | _ => simp [deferred]

/-- Nothing is held back where there is no image. -/
theorem deferred_eq_nil (h : ∀ y < s.tree.size, s.tree.tag? y ≠ some .img) (a : NodeId)
    (content : Content) (r : Renderer) : deferred s a content r = [] := by
  cases content with
  | element e =>
    change deferredBy s a e r = []
    unfold deferredBy
    split
    · refine List.eq_nil_iff_forall_not_mem.2 fun y hy => ?_
      have htag := tag_of_fetched (mem_deferredImages.1 hy).1
      obtain ⟨node, hnode⟩ := Option.isSome_iff_exists.1 (isSome_get?_of_tag? htag)
      exact h y (Tree.lt_size_of_get? hnode) htag
    · rfl
  | _ => rfl

theorem nodup_deferred (s : Scene) (a : NodeId) (content : Content) (r : Renderer) :
    (deferred s a content r).Nodup := by
  have herase : ∀ n (ids : List NodeId), ids.length ≤ n → ids.eraseDups.Nodup := by
    intro n
    induction n with
    | zero =>
      intro ids hids
      rw [List.length_eq_zero_iff.1 (Nat.le_zero.1 hids)]
      exact .nil
    | succ n ih =>
      intro ids hids
      cases ids with
      | nil => exact .nil
      | cons id ids =>
        rw [List.eraseDups_cons]
        have hrest := ih (ids.filter fun x => !x == id)
          (Nat.le_trans (List.length_filter_le ..) (Nat.le_of_succ_le_succ hids))
        refine List.nodup_cons.2 ⟨fun hmem => ?_, hrest⟩
        simp [List.mem_eraseDups] at hmem
  cases content with
  | element e =>
    change (deferredBy s a e r).Nodup
    unfold deferredBy
    split
    · exact (herase _ _ (Nat.le_refl _)).filter _
    · exact .nil
  | _ => exact .nil

theorem below_of_leadsTo (h : LeadsTo s p x) : s.tree.Below p x := by
  rcases h with h | h
  · exact below_of_shows h
  · obtain ⟨k, hk, -, hkx⟩ := exists_child_of_hasCell h
    exact .head hk hkx

/-- The rules lead to nodes on the page and to nodes in the cells of tables there. -/
theorem cases_of_leadsTo (h : Relation.ReflTransGen (LeadsTo s) a x) :
    Relation.ReflTransGen (Shows s) a x ∨
      ∃ p c, Relation.ReflTransGen (Shows s) a p ∧ HasCell s p c ∧ s.tree.Below c x := by
  induction h with
  | refl => exact .inl .refl
  | @tail y x _ hyx ih =>
    rcases ih with hy | ⟨p, c, hp, hc, hy⟩
    · rcases hyx with hyx | hyx
      · exact .inl (hy.tail hyx)
      · exact .inr ⟨y, x, hy, hyx, .refl⟩
    · exact .inr ⟨p, c, hp, hc, hy.trans (below_of_leadsTo hyx)⟩

theorem holdsBack_iff (hlevels : s.tree.fitsIn n p = true) (hx : (fetched? s x).isSome = true) :
    HoldsBack s p x ↔ ∃ c, HasCell s p c ∧ s.tree.Below c x := by
  constructor
  · rintro ⟨-, c, hc, hcx⟩
    exact ⟨c, hc, Tree.below_of_mem_descendants hcx⟩
  · rintro ⟨c, hc, hcx⟩
    have hsize : x < s.tree.size := by
      obtain ⟨node, hnode⟩ := Option.isSome_iff_exists.1 (isSome_get?_of_fetched hx)
      exact Tree.lt_size_of_get? hnode
    have hfits : s.tree.fitsIn n c = true :=
      Tree.fitsIn_below hlevels (below_of_leadsTo (.inr hc))
    rcases hcx.head_cases with rfl | hbelow
    · obtain ⟨tag, htag, hcell⟩ := (Grid.exists_of_mem_cellNodes hc.2).2
      rw [tag_of_fetched hx] at htag
      rw [← Option.some.inj htag] at hcell
      cases hcell
    · exact ⟨hx, c, hc, (Tree.mem_descendants_iff hfits hsize).2 hbelow⟩

theorem reached_iff_of_fetched (hlevels : s.tree.fitsIn n a = true)
    (hx : (fetched? s x).isSome = true) : Reached s a x ↔
      Relation.ReflTransGen (LeadsTo s) a x ∨
        ∃ p c, Relation.ReflTransGen (Shows s) a p ∧ HasCell s p c ∧ s.tree.Below c x := by
  have hfits {p : NodeId} (hp : Relation.ReflTransGen (Shows s) a p) : s.tree.fitsIn n p = true :=
    Tree.fitsIn_below hlevels (Relation.reflTransGen_closed (fun _ _ => below_of_shows) a p hp)
  constructor
  · rintro ⟨-, p, hp, rfl | hpx⟩
    · exact .inl (Relation.ReflTransGen.mono (fun _ _ => .inl) _ _ hp)
    · obtain ⟨c, hc, hcx⟩ := (holdsBack_iff (hfits hp) hx).1 hpx
      exact .inr ⟨p, c, hp, hc, hcx⟩
  · intro h
    have hget := isSome_get?_of_fetched hx
    rcases h.elim cases_of_leadsTo Or.inr with h | ⟨p, c, hp, hc, hcx⟩
    · exact ⟨hget, x, h, .inl rfl⟩
    · exact ⟨hget, p, hp, .inr ((holdsBack_iff (hfits hp) hx).2 ⟨c, hc, hcx⟩)⟩

/-! ### Nodes that are entered -/

/-- Visits of nodes from which nothing is entered twice enter what each of them enters. -/
theorem visited_visits {ids : List NodeId} (hvisit : ∀ a ∈ ids, ∀ r : Renderer,
      r.layout.tableDepth = 0 → (∀ x, Reached s a x → x ∉ r.visited) →
      ∀ x, x ∈ (node s levels a r).visited ↔ x ∈ r.visited ∨ Reached s a x)
    (hpair : ids.Pairwise fun a b => ∀ x, Reached s a x → ¬ Reached s b x)
    (hdepth : r.layout.tableDepth = 0) (hfresh : ∀ a ∈ ids, ∀ x, Reached s a x → x ∉ r.visited) :
    x ∈ (visits (node s levels) ids r).visited ↔ x ∈ r.visited ∨ ∃ a ∈ ids, Reached s a x := by
  induction ids generalizing r with
  | nil => simp [visits]
  | cons a ids ih =>
    obtain ⟨hhead, htail⟩ := List.pairwise_cons.1 hpair
    have hfirst := hvisit a List.mem_cons_self r hdepth (hfresh a List.mem_cons_self)
    have hlayout : (node s levels a r).layout.tableDepth = 0 :=
      (congrArg Prod.snd (Layout.holding_of_base (base_node s levels a r))).trans hdepth
    have hrest := ih (fun b hb => hvisit b (List.mem_cons_of_mem a hb)) htail hlayout
      fun b hb y hy hmem => by
        rcases (hfirst y).1 hmem with hmem | ha
        · exact hfresh b (List.mem_cons_of_mem a hb) y hy hmem
        · exact hhead b hb y ha hy
    refine hrest.trans ?_
    rw [hfirst x, or_assoc, List.exists_mem_cons_iff]

theorem not_reached (h : (s.tree.get? a).map Node.content = none) : ¬ Reached s a x := by
  rw [reached_iff]
  rintro (⟨hget, rfl⟩ | ⟨-, c, hc, -⟩ | ⟨b, ⟨content, hshows, -⟩, -⟩)
  · rw [Option.map_eq_none_iff.1 h] at hget
    cases hget
  · have ha := hc.1
    unfold Tree.tag? Tree.element? at ha
    rw [h] at ha
    cases ha
  · rw [h] at hshows
    cases hshows

theorem shows_iff (h : (s.tree.get? a).map Node.content = some content) :
    Shows s a b ↔ b ∈ shown s a content := by
  constructor
  · rintro ⟨content', hcontent', hb⟩
    obtain rfl := Option.some.inj (h.symm.trans hcontent')
    exact hb
  · exact fun hb => ⟨content, h, hb⟩

/-- Visits of the nodes of one level less enter what is reached from them. -/
def EntersReached (s : Scene) (levels : Nat) : Prop :=
  ∀ a, s.tree.fitsIn levels a = true → ∀ r : Renderer, r.layout.tableDepth = 0 →
    (∀ x, Reached s a x → x ∉ r.visited) →
    ∀ x, x ∈ (node s levels a r).visited ↔ x ∈ r.visited ∨ Reached s a x

variable (ht : s.tree.SingleParent)
include ht

/-- Nothing is entered twice from the nodes that are shown. -/
theorem pairwise_shown (hlevels : s.tree.fitsIn n a = true) (content : Content) :
    (shown s a content).Pairwise fun b c => ∀ x, Reached s b x → ¬ Reached s c x := by
  obtain ⟨p, hp, hsub⟩ : ∃ p, s.tree.Below a p ∧
      (shown s a content).Sublist (s.tree.children p) := by
    rcases shown_sublist s a content with hsub | ⟨k, hk, heq⟩
    · exact ⟨a, .refl, hsub⟩
    · exact ⟨k, .single hk, heq ▸ List.Sublist.refl _⟩
  refine ((ht.once p).sublist hsub).imp_of_mem fun hb hc hne x hbx hcx => hne ?_
  exact ht.oneParent.sibling_eq (Tree.fitsIn_below hlevels hp) (hsub.subset hb) (hsub.subset hc)
    (below_of_reached hbx) (below_of_reached hcx)

/-- What a table holds back is not shown below it. -/
theorem not_reached_of_holdsBack (hlevels : s.tree.fitsIn n a = true) (hx : HoldsBack s a x)
    (hb : Shows s a b) : ¬ Reached s b x := by
  intro hbx
  obtain ⟨d, hd, htag, hdx⟩ := exists_child_of_holdsBack hx
  obtain ⟨content, hcontent, hb⟩ := hb
  obtain ⟨-, c, hc, -⟩ := hx
  have ha := hc.1
  unfold Tree.tag? Tree.element? at ha
  rw [hcontent] at ha
  cases content with
  | element e =>
    have he : e.tag = .table := Option.some.inj ha
    change b ∈ shownBy s a e at hb
    rcases shownBy_table (role_eq_table.2 he) a with hnil | ⟨k, hk, hcaption, heq⟩
    · rw [hnil] at hb
      cases hb
    · rw [heq] at hb
      obtain rfl := ht.oneParent.sibling_eq hlevels hd hk hdx (.head hb (below_of_reached hbx))
      exact htag hcaption
  | _ => cases ha

variable {v : Visit} (h : v.Enters s content) (hlevels : s.tree.fitsIn v.levels v.id = true)
  (hdepth : v.start.layout.tableDepth = 0) (hfresh : ∀ x, Reached s v.id x → x ∉ v.start.visited)
  (hbelow : EntersReached s (v.levels - 1))
include h hlevels hdepth hfresh hbelow

omit ht hdepth hfresh hbelow in
theorem fitsIn_of_child {k y : NodeId} (hk : s.tree.IsParent v.id k) (hy : s.tree.Below k y) :
    s.tree.fitsIn (v.levels - 1) y = true := by
  obtain ⟨n, hn⟩ : ∃ n, v.levels = n + 1 := ⟨v.levels - 1, by have := h.levels; omega⟩
  rw [hn] at hlevels ⊢
  exact Tree.fitsIn_below (Tree.fitsIn_succ.1 hlevels k hk) hy

theorem visited_filled (x : NodeId) : x ∈ (v.filled s content).visited ↔
    (x = v.id ∨ x ∈ v.start.visited) ∨ ∃ b ∈ shown s v.id content, Reached s b x := by
  have hshows {b : NodeId} (hb : b ∈ shown s v.id content) : Shows s v.id b :=
    (shows_iff h.content).2 hb
  have hopened := Visit.visited_opened s v content
  rw [← List.mem_cons, ← hopened]
  refine visited_visits (fun b hb => ?_) (pairwise_shown ht hlevels content)
    ((congrArg Prod.snd (Visit.holding_opened s v content)).trans hdepth) fun b hb y hy hmem => ?_
  · obtain ⟨k, hk, hkb⟩ := exists_child_of_shows (hshows hb)
    exact hbelow b (fitsIn_of_child h hlevels hk hkb)
  · rw [hopened] at hmem
    rcases List.mem_cons.1 hmem with rfl | hmem
    · obtain ⟨k, hk, hkb⟩ := exists_child_of_shows (hshows hb)
      exact Tree.not_below_child hlevels hk (hkb.trans (below_of_reached hy))
    · exact hfresh y (reached_iff.2 (.inr (.inr ⟨b, hshows hb, hy⟩))) hmem

/-- The images that a table holds back are entered behind it. -/
theorem visited_deferred (x : NodeId) :
    x ∈ (v.result s).visited ↔ x ∈ (v.filled s content).visited ∨ HoldsBack s v.id x := by
  have hclosed : (v.closed s content).visited = (v.filled s content).visited :=
    congrArg Prod.snd (Visit.asked_closed s v content)
  have hdepth' : (v.closed s content).layout.tableDepth = 0 :=
    (congrArg Prod.snd (Layout.holding_of_base (Visit.base_closed s v content))).trans hdepth
  have hheld {y : NodeId} : y ∈ deferred s v.id content (v.closed s content) ↔
      HoldsBack s v.id y := mem_deferred h.content hdepth'
  have hvisits : x ∈ (v.result s).visited ↔ x ∈ (v.closed s content).visited ∨
      ∃ y ∈ deferred s v.id content (v.closed s content), Reached s y x := by
    rw [show (v.result s).visited = _ from congrArg Prod.snd (Visit.asked_result h)]
    refine visited_visits (fun y hy => ?_) ?_ hdepth' fun y hy z hz hmem => ?_
    · obtain ⟨k, hk, -, hky⟩ := exists_child_of_holdsBack (hheld.1 hy)
      exact hbelow y (fitsIn_of_child h hlevels hk hky)
    · refine (nodup_deferred s v.id content _).imp_of_mem fun hy hz hne x hyx hzx => hne ?_
      rw [← (reached_image (hheld.1 hy).1).1 hyx, (reached_image (hheld.1 hz).1).1 hzx]
    · obtain rfl := (reached_image (hheld.1 hy).1).1 hz
      rw [hclosed, visited_filled ht h hlevels hdepth hfresh hbelow] at hmem
      rcases hmem with (rfl | hmem) | ⟨b, hb, hbz⟩
      · obtain ⟨k, hk, -, hkz⟩ := exists_child_of_holdsBack (hheld.1 hy)
        exact Tree.not_below_child hlevels hk hkz
      · exact hfresh z (reached_iff.2 (.inr (.inl (hheld.1 hy)))) hmem
      · exact not_reached_of_holdsBack ht hlevels (hheld.1 hy) ((shows_iff h.content).2 hb) hbz
  rw [hvisits, hclosed]
  refine or_congr_right ⟨?_, fun hx => ⟨x, hheld.2 hx, (reached_image hx.1).2 rfl⟩⟩
  rintro ⟨y, hy, hyx⟩
  rw [(reached_image (hheld.1 hy).1).1 hyx]
  exact hheld.1 hy

omit h hlevels hdepth hfresh hbelow in
/-- The nodes entered by a visit are those that are reached from its node. -/
theorem visited_node (levels : Nat) : EntersReached s levels := by
  induction levels with
  | zero =>
    intro a hlevels
    cases hlevels
  | succ levels ih =>
    intro a hlevels r hdepth hfresh x
    cases hcontent : (s.tree.get? a).map Node.content with
    | none =>
      have hresult : node s (levels + 1) a r = r := by
        unfold node
        rw [Option.map_eq_none_iff.1 hcontent]
      rw [hresult]
      exact ⟨.inl, fun h => h.resolve_right (not_reached hcontent)⟩
    | some content =>
      have hget : (s.tree.get? a).isSome = true := by
        rw [← Option.isSome_map, hcontent]
        rfl
      let v : Visit := ⟨levels + 1, a, r⟩
      have h : v.Enters s content :=
        ⟨Nat.succ_pos _, hcontent, hfresh a (reached_iff.2 (.inl ⟨hget, rfl⟩))⟩
      have hself : (s.tree.get? x).isSome = true ∧ x = a ↔ x = a :=
        ⟨And.right, fun hx => ⟨hx ▸ hget, hx⟩⟩
      have hshown : (∃ b ∈ shown s a content, Reached s b x) ↔ ∃ b, Shows s a b ∧ Reached s b x :=
        exists_congr fun b => and_congr_left fun _ => (shows_iff hcontent).symm
      change x ∈ (v.result s).visited ↔ _
      rw [visited_deferred ht h hlevels hdepth hfresh ih,
        visited_filled ht h hlevels hdepth hfresh ih, hshown, reached_iff, hself]
      constructor
      · rintro (((hx | hx) | hx) | hx)
        · exact .inr (.inl hx)
        · exact .inl hx
        · exact .inr (.inr (.inr hx))
        · exact .inr (.inr (.inl hx))
      · rintro (hx | hx | hx | hx)
        · exact .inl (.inl (.inr hx))
        · exact .inl (.inl (.inl hx))
        · exact .inr hx
        · exact .inl (.inr hx)

end Renderer

open Renderer

theorem images_renderWith (s : Scene) (id : NodeId) (cache : CellCache) :
    (renderWith s id cache).rendered.images =
      (node s Tree.maxDepth id (start s cache.clear)).images := rfl

/-- In a tree the images that get a request, each of them one, are those to which the rules lead, in
cells as elsewhere, and all others below the cells of the tables on the page. -/
theorem requested_renderWith (s : Scene) (ht : s.tree.SingleParent) (id : NodeId)
    (hlevels : s.tree.fitsIn Tree.maxDepth id = true) (cache : CellCache) :
    ∃ ids : List NodeId, ids.Nodup ∧
      (renderWith s id cache).rendered.images = requests s ids ∧
      ∀ x, x ∈ ids ↔ (fetched? s x).isSome = true ∧
        (Relation.ReflTransGen (LeadsTo s) id x ∨
          ∃ p c, Relation.ReflTransGen (Shows s) id p ∧ HasCell s p c ∧ s.tree.Below c x) := by
  let r := node s Tree.maxDepth id (start s cache.clear)
  have hasks : Asks s r := asks_start s id cache
  have hvisited := visited_node ht Tree.maxDepth id hlevels (start s cache.clear) rfl
    fun _ _ hx => by cases hx
  refine ⟨r.visited.reverse.filter fun x => (fetched? s x).isSome, ?_, ?_, fun x => ?_⟩
  · exact ((List.reverse_perm _).nodup_iff.2 hasks.nodup).filter _
  · rw [images_renderWith, hasks.images, requests, requests, List.filterMap_filter]
    congr 3
    funext x
    cases fetched? s x <;> rfl
  · rw [List.mem_filter, List.mem_reverse, and_comm]
    refine and_congr_right fun hx => ?_
    rw [hvisited x, reached_iff_of_fetched hlevels hx]
    exact or_iff_right fun h => by cases h

/-- An image in a cell, inside an element or next to a text. -/
def imageInCell (name : String) : Tree :=
  let image : Item := .element "img".toList
    [("src".toList, .string "x".toList), ("alt".toList, .string "A".toList)] []
  let cell : Item := .element "td".toList []
    [.text "cell".toList, .element name.toList [] [image]]
  (Loaded.ofItems [.element "table".toList [] [.element "tr".toList [] [cell]]]).tree

theorem requested_renderWith_boldImage :
    let s : Scene := { tree := imageInCell "b" }
    s.tree.SingleParent ∧ s.tree.fitsIn Tree.maxDepth Tree.root = true ∧
      ∃ ids : List NodeId, ids.Nodup ∧
        (renderWith s Tree.root {}).rendered.images = requests s ids ∧ 6 ∈ ids := by
  intro s
  have ht : s.tree.SingleParent := Loaded.singleParent_ofItems _
  have hsix : s.tree.fitsIn 6 Tree.root = true := by decide
  have hlevels : s.tree.fitsIn Tree.maxDepth Tree.root = true := Tree.fitsIn_mono hsix (by decide)
  obtain ⟨ids, hnodup, himages, hids⟩ := requested_renderWith s ht Tree.root hlevels {}
  have htable : LeadsTo s 0 1 := .inl ⟨_, rfl, .head _⟩
  have hcell : LeadsTo s 1 3 := .inr ⟨rfl, by decide +kernel⟩
  have hbold : LeadsTo s 3 5 := .inl ⟨_, rfl, .tail _ (.head _)⟩
  have himage : LeadsTo s 5 6 := .inl ⟨_, rfl, .head _⟩
  exact ⟨ht, hlevels, ids, hnodup, himages, (hids 6).2 ⟨by decide, .inl
    ((((Relation.ReflTransGen.single htable).tail hcell).tail hbold).tail himage)⟩⟩

/-- No rule leads to an image in a template, yet in a cell it gets a request. -/
theorem requested_hiddenImage :
    let s : Scene := { tree := imageInCell "template" }
    (s.tree.SingleParent ∧ s.tree.fitsIn Tree.maxDepth Tree.root = true) ∧
      (renderWith s Tree.root {}).rendered.images ≠ [] ∧
      ∀ x, (fetched? s x).isSome = true → ¬ Relation.ReflTransGen (LeadsTo s) Tree.root x := by
  intro s
  have ht : s.tree.SingleParent := Loaded.singleParent_ofItems _
  have hsix : s.tree.fitsIn 6 Tree.root = true := by decide
  have hlevels : s.tree.fitsIn Tree.maxDepth Tree.root = true := Tree.fitsIn_mono hsix (by decide)
  have hsize {x : NodeId} (hx : (s.tree.get? x).isSome = true) : x < 7 := by
    obtain ⟨node, hnode⟩ := Option.isSome_iff_exists.1 hx
    exact Tree.lt_size_of_get? hnode
  refine ⟨⟨ht, hlevels⟩, fun hnil => ?_, fun x hx hway => ?_⟩
  · let r := node s Tree.maxDepth Tree.root (start s (Cache.clear {}))
    have hasks : Asks s r := asks_start s Tree.root {}
    rw [images_renderWith, hasks.images, requests, List.map_eq_nil_iff, List.zipIdx_eq_nil_iff,
      List.filterMap_eq_nil_iff] at hnil
    have htable : Shows s 0 1 := ⟨_, rfl, .head _⟩
    have hbelow : s.tree.Below 3 6 := .tail (.single (b := 5) (.tail _ (.head _))) (.head _)
    have hmem : 6 ∈ r.visited := by
      refine (visited_node ht Tree.maxDepth Tree.root hlevels (start s (Cache.clear {})) rfl
        (fun _ _ hx => by cases hx) 6).2 (.inr ?_)
      exact (reached_iff_of_fetched hlevels (by decide)).2
        (.inr ⟨1, 3, .single htable, ⟨rfl, by decide +kernel⟩, hbelow⟩)
    exact absurd (hnil 6 (List.mem_reverse.2 hmem)) (by decide)
  · have hall : ∀ x < 7, (fetched? s x).isSome = true → x = 6 := by decide
    obtain rfl := hall x (hsize (isSome_get?_of_fetched hx)) hx
    rcases Relation.ReflTransGen.cases_tail hway with heq | ⟨p, -, ⟨content, hcontent, hp⟩ | hp⟩
    · cases heq
    · have hshown : ∀ p < 7, ((s.tree.get? p).map Node.content).map
          (fun content => decide (6 ∈ shown s p content)) ≠ some true := by decide
      have hsize : p < 7 := hsize (by rw [← Option.isSome_map, hcontent]; rfl)
      exact hshown p hsize (by rw [hcontent, Option.map_some, decide_eq_true hp])
    · have hcells : ∀ p < 7, ¬ (s.tree.tag? p = some .table ∧
          6 ∈ (Grid.collect s.tree p).1.cellNodes) := by decide +kernel
      exact hcells p (hsize (isSome_get?_of_tag? hp.1)) hp

end MarkupText
