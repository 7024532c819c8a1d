import RaceSkeletons.Path.Map

/-!
# Path order and path maps

The order of paths is the lexicographic order of their components, so it is
total, and two paths are equal in it exactly if they have the same
components (`Path.order_eq_iff`). Everything a map promises follows: its keys
ascend, a lookup sees the last value stored under a key, and a map built
from distinct keys is the same list in whatever order they arrived
(`PathMap.ofList_eq_of_perm`).
-/

namespace RaceSkeletons

namespace Path

/-! ## The order of paths -/

/-- The name of a component; only normal components have one. -/
def Component.nameText : Component → String
  | .normal name => name
  | _ => ""

theorem Component.eq_of_rank_of_nameText {a b : Component} (hr : a.rank = b.rank)
    (hn : a.nameText = b.nameText) : a = b := by
  cases a <;> cases b <;> simp_all [rank, nameText]

theorem Component.order_eq_compareLex :
    Component.order = compareLex (compareOn rank) (compareOn nameText) := by
  funext a b
  cases a with
  | normal name =>
      cases b with
      | normal other => rfl
      | _ => rfl
  | _ => cases b <;> rfl

instance : Std.TransCmp Component.order :=
  Component.order_eq_compareLex ▸ inferInstance

instance : Std.LawfulEqCmp Component.order where
  eq_of_compare {a b} h := by
    rw [Component.order_eq_compareLex, compareLex_eq_eq] at h
    exact Component.eq_of_rank_of_nameText (Nat.compare_eq_eq.mp h.1)
      (Std.LawfulEqOrd.eq_of_compare h.2)

theorem orderComponents_eq_compareLex : orderComponents = List.compareLex Component.order := by
  funext as bs
  induction as generalizing bs with
  | nil => cases bs <;> rfl
  | cons a as ih =>
      cases bs with
      | nil => rfl
      | cons b bs => rw [orderComponents, List.compareLex_cons_cons, ih]

instance : Std.TransCmp orderComponents :=
  orderComponents_eq_compareLex ▸ inferInstance

instance : Std.LawfulEqCmp orderComponents :=
  orderComponents_eq_compareLex ▸ inferInstance

instance : Std.TransCmp Path.order where
  eq_swap {p q} := by
    rw [order, order]
    exact Std.OrientedCmp.eq_swap
  isLE_trans {p q r} hpq hqr := by
    rw [order] at hpq hqr ⊢
    exact Std.TransCmp.isLE_trans hpq hqr

/-- Paths are equal in the order exactly if they have the same components. -/
theorem order_eq_iff {p q : Path} : p.order q = .eq ↔ p.components = q.components := by
  rw [order]
  exact Std.LawfulEqCmp.compare_eq_iff_eq

theorem same_iff {p q : Path} : p.same q = true ↔ p.components = q.components :=
  beq_iff_eq

end Path

namespace PathMap

variable {α : Type}

/-! ## Keys -/

/-- The keys of a map, in its order. -/
def keys (m : PathMap α) : List Path :=
  m.toList.map (·.1)

/-- Every key comes before all later keys; in particular no two are equal. -/
def IsAscending (entries : List (Path × α)) : Prop :=
  entries.Pairwise fun a b => a.1.order b.1 = .lt

/-- No two paths of the list are equal as keys. -/
def DistinctKeys (paths : List Path) : Prop :=
  (paths.map Path.components).Nodup

instance (paths : List Path) : Decidable (DistinctKeys paths) :=
  inferInstanceAs (Decidable (paths.map Path.components).Nodup)

theorem DistinctKeys.perm {paths others : List Path} (hperm : paths.Perm others)
    (h : DistinctKeys paths) : DistinctKeys others :=
  (hperm.map Path.components).nodup h

theorem mem_insertInto {key : Path} {value : α} {entries : List (Path × α)}
    {entry : Path × α} (h : entry ∈ insertInto key value entries) :
    entry.1.order key = .eq ∨ entry ∈ entries := by
  induction entries with
  | nil =>
      rw [insertInto, List.mem_singleton] at h
      subst h
      exact Or.inl (Path.order_eq_iff.mpr rfl)
  | cons first rest ih =>
      rw [insertInto] at h
      cases ho : key.order first.1 with
      | lt =>
          rw [ho] at h
          rcases List.mem_cons.mp h with rfl | hmem
          · exact Or.inl (Path.order_eq_iff.mpr rfl)
          · exact Or.inr hmem
      | eq =>
          rw [ho] at h
          rcases List.mem_cons.mp h with rfl | hmem
          · exact Or.inl (Std.OrientedCmp.eq_comm.mp ho)
          · exact Or.inr (List.mem_cons_of_mem first hmem)
      | gt =>
          rw [ho] at h
          rcases List.mem_cons.mp h with rfl | hmem
          · exact Or.inr List.mem_cons_self
          · exact (ih hmem).imp_right (List.mem_cons_of_mem first)

theorem IsAscending.insertInto {entries : List (Path × α)} (h : IsAscending entries)
    (key : Path) (value : α) : IsAscending (insertInto key value entries) := by
  induction entries with
  | nil => exact List.pairwise_singleton _ _
  | cons first rest ih =>
      obtain ⟨hfirst, hrest⟩ := List.pairwise_cons.mp h
      rw [PathMap.insertInto]
      cases ho : key.order first.1 with
      | lt =>
          refine List.pairwise_cons.mpr ⟨fun entry hmem => ?_, h⟩
          rcases List.mem_cons.mp hmem with rfl | hmem
          · exact ho
          · exact Std.TransCmp.lt_trans ho (hfirst entry hmem)
      | eq => exact List.pairwise_cons.mpr ⟨hfirst, hrest⟩
      | gt =>
          refine List.pairwise_cons.mpr ⟨fun entry hmem => ?_, ih hrest⟩
          have hlt : first.1.order key = .lt := Std.OrientedCmp.lt_of_gt ho
          rcases mem_insertInto hmem with heq | hmem
          · exact Std.TransCmp.lt_of_lt_of_eq hlt (Std.OrientedCmp.eq_comm.mp heq)
          · exact hfirst entry hmem

/-- A key that is not in the map yet only adds its association. -/
theorem insertInto_perm {key : Path} {entries : List (Path × α)}
    (fresh : ∀ entry ∈ entries, key.components ≠ entry.1.components) (value : α) :
    (insertInto key value entries).Perm ((key, value) :: entries) := by
  induction entries with
  | nil => exact .refl _
  | cons first rest ih =>
      rw [insertInto]
      cases ho : key.order first.1 with
      | lt => exact .refl _
      | eq => exact absurd (Path.order_eq_iff.mp ho) (fresh first List.mem_cons_self)
      | gt =>
          have hrest := ih fun entry hmem => fresh entry (List.mem_cons_of_mem first hmem)
          exact (hrest.cons first).trans (.swap _ _ _)

/-! ## Maps from lists -/

theorem ofList_append_singleton (entries : List (Path × α)) (entry : Path × α) :
    ofList (entries ++ [entry]) = (ofList entries).insert entry.1 entry.2 := by
  rw [ofList, List.foldl_append]
  rfl

theorem isAscending_ofList (entries : List (Path × α)) :
    IsAscending (ofList entries).toList := by
  suffices h : ∀ m : PathMap α, IsAscending m.toList →
      IsAscending (entries.foldl (fun m entry => m.insert entry.1 entry.2) m).toList from
    h empty List.Pairwise.nil
  induction entries with
  | nil => exact fun m hm => hm
  | cons entry rest ih => exact fun m hm => ih _ (hm.insertInto entry.1 entry.2)

/-- A map built from distinct keys has exactly the given associations. -/
theorem ofList_perm {entries : List (Path × α)} (h : DistinctKeys (entries.map (·.1))) :
    (ofList entries).toList.Perm entries := by
  suffices hfold : ∀ m : PathMap α, DistinctKeys ((m.toList ++ entries).map (·.1)) →
      (entries.foldl (fun m entry => m.insert entry.1 entry.2) m).toList.Perm
        (m.toList ++ entries) from hfold empty h
  clear h
  induction entries with
  | nil => exact fun m _ => by rw [List.append_nil]; exact .refl _
  | cons entry rest ih =>
      intro m hm
      have hcons : (m.toList ++ entry :: rest).Perm (entry :: (m.toList ++ rest)) :=
        List.perm_middle
      have hdistinct : DistinctKeys ((entry :: (m.toList ++ rest)).map (·.1)) :=
        hm.perm (hcons.map (·.1))
      have hins : (m.insert entry.1 entry.2).toList.Perm (entry :: m.toList) := by
        refine insertInto_perm (fun other hmem heq => ?_) entry.2
        refine (List.nodup_cons.mp hdistinct).1 ?_
        rw [heq, List.map_map]
        exact List.mem_map.mpr ⟨other, List.mem_append_left rest hmem, rfl⟩
      have hperm := hins.append_right rest
      refine (ih _ ?_).trans (hperm.trans hcons.symm)
      exact hdistinct.perm (hperm.map (·.1)).symm

/-- A map built from distinct keys does not depend on their order. -/
theorem ofList_eq_of_perm {entries others : List (Path × α)} (hperm : entries.Perm others)
    (h : DistinctKeys (entries.map (·.1))) : ofList entries = ofList others := by
  have hothers : DistinctKeys (others.map (·.1)) := h.perm (hperm.map (·.1))
  have hlists := ((ofList_perm h).trans hperm).trans (ofList_perm hothers).symm
  refine congrArg PathMap.mk (hlists.eq_of_pairwise ?_ (isAscending_ofList entries)
    (isAscending_ofList others))
  intro a b _ _ hab hba
  exact absurd hab (Std.OrientedCmp.not_lt_of_lt hba)

theorem size_ofList {entries : List (Path × α)} (h : DistinctKeys (entries.map (·.1))) :
    (ofList entries).size = entries.length :=
  (ofList_perm h).length_eq

/-! ## Lookups -/

theorem find?_insertInto (key : Path) (value : α) (entries : List (Path × α)) (q : Path) :
    ((insertInto key value entries).find? fun entry => entry.1.same q).map (·.2) =
      if key.same q then some value
      else (entries.find? fun entry => entry.1.same q).map (·.2) := by
  induction entries with
  | nil => cases hq : key.same q <;> simp [insertInto, hq]
  | cons first rest ih =>
      rw [insertInto]
      cases ho : key.order first.1 with
      | lt => cases hq : key.same q <;> simp [hq]
      | eq =>
          have hsame : first.1.same q = key.same q := by
            rw [Path.same, Path.same, Path.order_eq_iff.mp ho]
          cases hq : key.same q <;> simp [hsame, hq]
      | gt =>
          cases hq : key.same q with
          | true =>
              have hfirst : first.1.same q = false := by
                refine Bool.eq_false_iff.mpr fun hf => ?_
                have heq := Path.order_eq_iff.mpr
                  ((Path.same_iff.mp hq).trans (Path.same_iff.mp hf).symm)
                rw [ho] at heq
                cases heq
              simpa [hfirst, hq] using ih
          | false =>
              cases hf : first.1.same q with
              | true => simp [hf]
              | false => simpa [hf, hq] using ih

/-- A lookup sees the value that was stored last. -/
theorem get?_insert (m : PathMap α) (key : Path) (value : α) (q : Path) :
    (m.insert key value).get? q = if key.same q then some value else m.get? q :=
  find?_insertInto key value m.toList q

/-- A lookup in a map built from a list sees the last association of the key. -/
theorem get?_ofList (entries : List (Path × α)) (q : Path) :
    (ofList entries).get? q =
      (entries.reverse.find? fun entry => entry.1.same q).map (·.2) := by
  suffices h : ∀ m : PathMap α,
      (entries.foldl (fun m entry => m.insert entry.1 entry.2) m).get? q =
        ((entries.reverse.find? fun entry => entry.1.same q).map (·.2)).or (m.get? q) by
    rw [ofList, h]
    exact Option.or_none
  induction entries with
  | nil => exact fun m => rfl
  | cons entry rest ih =>
      intro m
      rw [List.foldl_cons, ih, get?_insert, List.reverse_cons, List.find?_append, Option.map_or,
        Option.or_assoc]
      cases hq : entry.1.same q <;> simp [hq]

theorem find?_same_of_mem {entries : List (Path × α)} {entry : Path × α}
    (h : DistinctKeys (entries.map (·.1))) (hmem : entry ∈ entries) :
    (entries.find? fun other => other.1.same entry.1) = some entry := by
  induction entries with
  | nil => cases hmem
  | cons first rest ih =>
      obtain ⟨hfirst, hrest⟩ := List.nodup_cons.mp h
      rcases List.mem_cons.mp hmem with rfl | hmem
      · exact List.find?_cons_of_pos (Path.same_iff.mpr rfl)
      · have hne : first.1.same entry.1 = false := by
          refine Bool.eq_false_iff.mpr fun hsame => hfirst ?_
          rw [Path.same_iff.mp hsame]
          exact List.mem_map_of_mem (List.mem_map_of_mem hmem)
        rw [List.find?_cons, hne]
        exact ih hrest hmem

/-- A map built from distinct keys sends each key to its own value. -/
theorem get?_ofList_of_mem {entries : List (Path × α)} {entry : Path × α}
    (h : DistinctKeys (entries.map (·.1))) (hmem : entry ∈ entries) :
    (ofList entries).get? entry.1 = some entry.2 := by
  have hreverse : DistinctKeys (entries.reverse.map (·.1)) :=
    h.perm (entries.reverse_perm.symm.map (·.1))
  rw [get?_ofList, find?_same_of_mem hreverse (List.mem_reverse.mpr hmem)]
  rfl

end PathMap

end RaceSkeletons
