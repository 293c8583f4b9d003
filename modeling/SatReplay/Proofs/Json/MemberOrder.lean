/-
  SatReplay/Proofs/Json/MemberOrder.lean
  ======================================
  **The order of members does not matter to the canonical text.**  Two values are
  the same up to that order if one becomes the other by reordering the members of
  objects anywhere inside it (`Value.Reorders`).

  Such a step is undone by the sorting of the object where it is made: two sorted
  rows of the same members are equal when no name is there twice, because two
  members of one name would be the same.  Steps deeper inside change one item or
  one member, and there the sorted values are equal already.  So the whole
  argument is one induction over the steps (`Value.Reorders.sorted_eq`); that
  sorting is itself such a reordering is one over the value.
-/
import Mathlib.Data.List.Nodup
import SatReplay.Json.Value
import SatReplay.Proofs.Bytes.Text

namespace SatReplay.Json.Value

/-! ### Parts of a value -/

/-- Induction over a value: in the cases of arrays and objects, over what is in them. -/
@[elab_as_elim, induction_eliminator]
theorem induct {motive : Value → Prop} (null : motive .null)
    (boolean : ∀ value, motive (.boolean value)) (number : ∀ n, motive (.number n))
    (string : ∀ text, motive (.string text))
    (array : ∀ items, (∀ v ∈ items, motive v) → motive (.array items))
    (object : ∀ members, (∀ m ∈ members, motive m.2) → motive (.object members)) (v : Value) :
    motive v := by
  refine @Value.rec motive (fun items => ∀ v ∈ items, motive v)
    (fun members => ∀ m ∈ members, motive m.2) (fun m => motive m.2)
    null boolean number string array object ?_ ?_ ?_ ?_ ?_ v
  · simp
  · exact fun v items hv hitems => List.forall_mem_cons.2 ⟨hv, hitems⟩
  · simp
  · exact fun m members hm hmembers => List.forall_mem_cons.2 ⟨hm, hmembers⟩
  · exact fun name v hv => hv

/-- A value itself, or one inside it at any depth. -/
inductive PartOf : Value → Value → Prop
  | self (v : Value) : PartOf v v
  | item {u v : Value} {items : List Value} (hv : v ∈ items) (h : PartOf u v) :
      PartOf u (.array items)
  | member {u : Value} {m : String × Value} {members : List (String × Value)} (hm : m ∈ members)
      (h : PartOf u m.2) : PartOf u (.object members)

def Every (P : Value → Prop) (v : Value) : Prop := ∀ u, PartOf u v → P u

/-- The names of the members of an object, in their order. -/
def names : Value → List String
  | .object members => members.map Prod.fst
  | _ => []

/-- No object has two members of one name. -/
def DistinctNames (v : Value) : Prop := v.Every fun u => u.names.Nodup

/-- In every object the names ascend by their bytes. -/
def Ascending (v : Value) : Prop :=
  v.Every fun u => (u.names.map Bytes.ofText).Pairwise (· < ·)

section

variable {P : Value → Prop}

theorem every_array {items : List Value} :
    (array items).Every P ↔ P (.array items) ∧ ∀ v ∈ items, v.Every P := by
  constructor
  · intro h
    exact ⟨h _ (.self _), fun v hv u hu => h u (.item hv hu)⟩
  · rintro ⟨hself, hitems⟩ u hu
    cases hu with
    | self => exact hself
    | item hv hu => exact hitems _ hv u hu

theorem every_object {members : List (String × Value)} :
    (object members).Every P ↔ P (.object members) ∧ ∀ m ∈ members, m.2.Every P := by
  constructor
  · intro h
    exact ⟨h _ (.self _), fun m hm u hu => h u (.member hm hu)⟩
  · rintro ⟨hself, hmembers⟩ u hu
    cases hu with
    | self => exact hself
    | member hm hu => exact hmembers _ hm u hu

end

/-! ### Reordering -/

/-- One value becomes the other by reordering members, step by step, in objects
    anywhere inside it. -/
inductive Reorders : Value → Value → Prop
  | refl (v : Value) : Reorders v v
  | permute {members others : List (String × Value)} (h : members.Perm others) :
      Reorders (.object members) (.object others)
  | item {v w : Value} (before after : List Value) (h : Reorders v w) :
      Reorders (.array (before ++ v :: after)) (.array (before ++ w :: after))
  | member {v w : Value} (name : String) (before after : List (String × Value))
      (h : Reorders v w) :
      Reorders (.object (before ++ (name, v) :: after)) (.object (before ++ (name, w) :: after))
  | trans {u v w : Value} (hfirst : Reorders u v) (hrest : Reorders v w) : Reorders u w

namespace Reorders

variable {v w : Value}

theorem symm (h : Reorders v w) : Reorders w v := by
  induction h with
  | refl v => exact .refl v
  | permute h => exact .permute h.symm
  | item before after _ ih => exact .item before after ih
  | member name before after _ ih => exact .member name before after ih
  | trans _ _ ihFirst ihRest => exact .trans ihRest ihFirst

theorem names_perm (h : Reorders v w) : v.names.Perm w.names := by
  induction h with
  | refl v => exact .refl _
  | permute h => exact h.map Prod.fst
  | item => exact .refl _
  | member name before after => simp [names]
  | trans _ _ ihFirst ihRest => exact ihFirst.trans ihRest

/-- What a reordering does not change, it changes in no part. -/
theorem every {P : Value → Prop} (hP : ∀ {u u' : Value}, Reorders u u' → P u → P u')
    (h : Reorders v w) : v.Every P → w.Every P := by
  induction h with
  | refl v => exact id
  | permute h =>
    intro hv
    obtain ⟨hself, hmembers⟩ := every_object.1 hv
    exact every_object.2 ⟨hP (.permute h) hself, fun m hm => hmembers m (h.mem_iff.2 hm)⟩
  | item before after h ih =>
    intro hv
    obtain ⟨hself, hitems⟩ := every_array.1 hv
    refine every_array.2 ⟨hP (.item before after h) hself, ?_⟩
    simp only [List.forall_mem_append, List.forall_mem_cons] at hitems ⊢
    exact ⟨hitems.1, ih hitems.2.1, hitems.2.2⟩
  | member name before after h ih =>
    intro hv
    obtain ⟨hself, hmembers⟩ := every_object.1 hv
    refine every_object.2 ⟨hP (.member name before after h) hself, ?_⟩
    simp only [List.forall_mem_append, List.forall_mem_cons] at hmembers ⊢
    exact ⟨hmembers.1, ih hmembers.2.1, hmembers.2.2⟩
  | trans _ _ ihFirst ihRest => exact fun hv => ihRest (ihFirst hv)

theorem distinctNames (h : Reorders v w) (hv : v.DistinctNames) : w.DistinctNames :=
  h.every (fun hu hnames => hu.names_perm.nodup_iff.1 hnames) hv

/-- Items may be reordered all at once. -/
theorem items {items : List Value} {f : Value → Value} (h : ∀ v ∈ items, Reorders v (f v)) :
    ∀ before, Reorders (.array (before ++ items)) (.array (before ++ items.map f)) := by
  induction items with
  | nil => exact fun before => .refl _
  | cons v items ih =>
    intro before
    rw [List.forall_mem_cons] at h
    have hrest := ih h.2 (before ++ [f v])
    rw [List.append_assoc, List.append_assoc] at hrest
    exact .trans (.item before items h.1) hrest

/-- The values of members may be reordered all at once. -/
theorem members {members : List (String × Value)} {f : Value → Value}
    (h : ∀ m ∈ members, Reorders m.2 (f m.2)) :
    ∀ before, Reorders (.object (before ++ members))
      (.object (before ++ members.map fun m => (m.1, f m.2))) := by
  induction members with
  | nil => exact fun before => .refl _
  | cons m members ih =>
    intro before
    rw [List.forall_mem_cons] at h
    have hrest := ih h.2 (before ++ [(m.1, f m.2)])
    rw [List.append_assoc, List.append_assoc] at hrest
    exact .trans (.member m.1 before members h.1) hrest

end Reorders

/-! ### Sorting -/

theorem sortedItems_eq_map (items : List Value) : sortedItems items = items.map sorted := by
  induction items with
  | nil => rfl
  | cons v items ih => rw [sortedItems, ih, List.map_cons]

theorem sortedMembers_eq_map (members : List (String × Value)) :
    sortedMembers members = members.map fun m => (m.1, m.2.sorted) := by
  induction members with
  | nil => rfl
  | cons m members ih => rw [sortedMembers, ih, List.map_cons]

theorem sorted_array (items : List Value) : (array items).sorted = array (items.map sorted) := by
  rw [sorted, sortedItems_eq_map]

theorem sorted_object (members : List (String × Value)) :
    (object members).sorted =
      object ((members.map fun m => (m.1, m.2.sorted)).mergeSort nameLe) := by
  rw [sorted, sortedMembers_eq_map]

theorem pairwise_mergeSort_nameLe (members : List (String × Value)) :
    (members.mergeSort nameLe).Pairwise fun m n => nameLe m n = true := by
  apply List.pairwise_mergeSort
  · simp only [nameLe, decide_eq_true_eq]
    exact fun _ _ _ => String.le_trans
  · simp only [nameLe, Bool.or_eq_true, decide_eq_true_eq]
    exact fun _ _ => String.le_total _ _

/-- Of members with different names there is only one sorted row. -/
theorem mergeSort_eq_of_perm {members others : List (String × Value)} (hperm : members.Perm others)
    (hnames : (members.map Prod.fst).Nodup) :
    members.mergeSort nameLe = others.mergeSort nameLe := by
  apply List.Perm.eq_of_pairwise _ (pairwise_mergeSort_nameLe members)
    (pairwise_mergeSort_nameLe others)
  · exact (List.mergeSort_perm _ _).trans (hperm.trans (List.mergeSort_perm _ _).symm)
  · intro m n hm hn hmn hnm
    rw [List.mem_mergeSort] at hm hn
    have hname : m.1 = n.1 :=
      String.le_antisymm (of_decide_eq_true hmn) (of_decide_eq_true hnm)
    exact List.inj_on_of_nodup_map hnames hm (hperm.mem_iff.2 hn) hname

/-- An object of sorted values becomes the sorted row of its members. -/
theorem sorted_object_eq {members row : List (String × Value)}
    (hvalues : ∀ m ∈ members, m.2.sorted = m.2) (hnames : (members.map Prod.fst).Nodup)
    (hperm : members.Perm row) (hrow : row.Pairwise fun m n => nameLe m n = true) :
    (object members).sorted = object row := by
  have hmap : members.map (fun m => (m.1, m.2.sorted)) = members := by
    refine (List.map_congr_left fun m hm => ?_).trans (List.map_id members)
    rw [hvalues m hm, id_eq]
  rw [sorted_object, hmap, mergeSort_eq_of_perm hperm hnames, List.mergeSort_of_pairwise hrow]

theorem Reorders.sorted_eq {v w : Value} (h : Reorders v w) :
    v.DistinctNames → v.sorted = w.sorted := by
  induction h with
  | refl v => exact fun _ => rfl
  | @permute members others h =>
    intro hv
    have hnames : ((members.map fun m => (m.1, m.2.sorted)).map Prod.fst).Nodup := by
      rw [List.map_map]
      exact (every_object.1 hv).1
    rw [sorted_object, sorted_object, mergeSort_eq_of_perm (h.map _) hnames]
  | item before after _ ih =>
    intro hv
    have hitem := ih ((every_array.1 hv).2 _ (by simp))
    simp only [sorted_array, List.map_append, List.map_cons, hitem]
  | member name before after _ ih =>
    intro hv
    have hmember := ih ((every_object.1 hv).2 (name, _) (by simp))
    simp only [sorted_object, List.map_append, List.map_cons, hmember]
  | trans hfirst _ ihFirst ihRest =>
    exact fun hv => (ihFirst hv).trans (ihRest (hfirst.distinctNames hv))

theorem reorders_sorted (v : Value) : v.Reorders v.sorted := by
  induction v with
  | array items ih =>
    rw [sorted_array]
    exact .items ih []
  | object members ih =>
    rw [sorted_object]
    exact .trans (.members ih []) (.permute (List.mergeSort_perm _ _).symm)
  | _ => exact .refl _

theorem pairwise_names_sorted {members : List (String × Value)}
    (hnames : (members.map Prod.fst).Nodup) :
    ((object members).sorted.names.map Bytes.ofText).Pairwise (· < ·) := by
  have hdistinct := (reorders_sorted (object members)).names_perm.nodup_iff.1 hnames
  rw [sorted_object] at hdistinct ⊢
  have hsorted := pairwise_mergeSort_nameLe (members.map fun m => (m.1, m.2.sorted))
  rw [names, List.Nodup, List.pairwise_map] at hdistinct
  rw [names, List.map_map, List.pairwise_map]
  refine (hsorted.and hdistinct).imp ?_
  rintro m n ⟨hle, hne⟩
  rw [Function.comp_apply, Function.comp_apply, Bytes.ofText_lt_iff]
  rcases Decidable.em (m.1 < n.1) with hlt | hge
  · exact hlt
  · exact absurd (String.le_antisymm (of_decide_eq_true hle) hge) hne

theorem ascending_sorted (v : Value) : v.DistinctNames → v.sorted.Ascending := by
  induction v with
  | array items ih =>
    intro hv
    rw [sorted_array]
    refine every_array.2 ⟨.nil, ?_⟩
    intro w hw
    obtain ⟨v, hmem, rfl⟩ := List.mem_map.1 hw
    exact ih v hmem ((every_array.1 hv).2 v hmem)
  | object members ih =>
    intro hv
    obtain ⟨hnames, hmembers⟩ := every_object.1 hv
    have hself := pairwise_names_sorted hnames
    rw [sorted_object] at hself ⊢
    refine every_object.2 ⟨hself, ?_⟩
    intro n hn
    obtain ⟨m, hmem, rfl⟩ := List.mem_map.1 (List.mem_mergeSort.1 hn)
    exact ih m hmem (hmembers m hmem)
  | _ =>
    intro _ u hu
    cases hu
    exact .nil

end SatReplay.Json.Value
