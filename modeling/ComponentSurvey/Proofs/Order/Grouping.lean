import ComponentSurvey.Order.Grouping
import ComponentSurvey.Order.Total
import ComponentSurvey.Proofs.Order.Distinct
import Mathlib.Data.Finset.Card
import Mathlib.Data.List.Induction

/-!
# Grouping by a key

`membersBy` puts the values with the same key together in one stroke.  Adding them to groups one by
one comes to the same, whatever a group keeps of its members.
-/

namespace ComponentSurvey.Order

variable {α γ κ : Type} [DecidableEq κ]

def membersBy (key : α → κ) (values : List α) : List (κ × List α) :=
  (values.map key).eraseDups.map fun shared =>
    (shared, values.filter fun value => key value = shared)

theorem eraseDups_concat (keys : List κ) (next : κ) :
    (keys ++ [next]).eraseDups =
      if next ∈ keys then keys.eraseDups else keys.eraseDups ++ [next] := by
  have concat := distinctBy_concat (· == ·) keys next
  rw [distinctBy_eq_eraseDupsBy, distinctBy_eq_eraseDupsBy] at concat
  refine concat.trans (if_congr ?_ rfl rfl)
  rw [List.any_beq, List.contains_iff_mem]
  exact List.mem_eraseDups

theorem nodup_eraseDups (keys : List κ) : keys.eraseDups.Nodup := by
  have keyed : ∀ first second : κ, (first == second) = true ↔ id first = id second :=
    fun _ _ => beq_iff_eq
  rw [← distinct_eq_eraseDups]
  exact pairwise_distinctBy keyed keys

theorem addToGroup_of_not_mem {isIts : γ → Bool} {fresh : γ} {add : γ → γ} {groups : List γ}
    (others : ∀ group ∈ groups, isIts group = false) :
    addToGroup isIts fresh add groups = groups ++ [add fresh] := by
  induction groups with
  | nil => rfl
  | cons group rest ih =>
      obtain ⟨isOther, restOthers⟩ := List.forall_mem_cons.mp others
      rw [addToGroup, if_neg (by simp [isOther]), ih restOthers, List.cons_append]

theorem addToGroup_map {isIts : γ → Bool} {build : κ → γ} {keys : List κ} {wanted : κ}
    (fresh : γ) (add : γ → γ) (distinct : keys.Nodup) (listed : wanted ∈ keys)
    (found : ∀ key, isIts (build key) = decide (key = wanted)) :
    addToGroup isIts fresh add (keys.map build) =
      keys.map fun key => if key = wanted then add (build key) else build key := by
  induction keys with
  | nil => cases listed
  | cons key rest ih =>
      obtain ⟨notLater, restDistinct⟩ := List.nodup_cons.mp distinct
      simp only [List.map_cons, addToGroup, found, decide_eq_true_eq]
      by_cases here : key = wanted
      · rw [if_pos here, if_pos here]
        refine congrArg _ (List.map_congr_left fun other member => ?_)
        rw [if_neg]
        rintro rfl
        exact notLater (here ▸ member)
      · rw [if_neg here, if_neg here]
        have later := (List.mem_cons.mp listed).resolve_left (Ne.symm here)
        rw [ih restDistinct later]

/-- What a group is built from is what has been added to it. -/
structure Builds (key : α → κ) (isIts : α → γ → Bool) (fresh : α → γ) (add : α → γ → γ)
    (build : κ → List α → γ) : Prop where
  isIts : ∀ value shared members, isIts value (build shared members) = decide (shared = key value)
  fresh : ∀ value, fresh value = build (key value) []
  add : ∀ value shared members, add value (build shared members) = build shared (members ++ [value])

variable {key : α → κ} {isIts : α → γ → Bool} {fresh : α → γ} {add : α → γ → γ}
  {build : κ → List α → γ}

theorem foldl_addToGroup (builds : Builds key isIts fresh add build) (values : List α) :
    values.foldl (fun groups value => addToGroup (isIts value) (fresh value) (add value) groups)
        [] =
      (membersBy key values).map fun group => build group.1 group.2 := by
  -- the groups are right for every prefix of the values
  induction values using List.reverseRecOn with
  | nil => rfl
  | append_singleton values next ih =>
      rw [List.foldl_append, ih, List.foldl_cons, List.foldl_nil]
      simp only [membersBy, List.map_map, Function.comp_def, List.map_append, List.map_singleton,
        eraseDups_concat, List.filter_append]
      by_cases known : key next ∈ values.map key
      · rw [if_pos known, addToGroup_map _ _ (nodup_eraseDups _) (List.mem_eraseDups.mpr known)
          fun shared => builds.isIts next shared _]
        refine List.map_congr_left fun shared _ => ?_
        by_cases here : shared = key next
        · rw [if_pos here, builds.add, here]
          simp
        · rw [if_neg here]
          simp [Ne.symm here]
      · rw [if_neg known, addToGroup_of_not_mem, List.map_append, List.map_singleton]
        · have none : values.filter (fun value => key value = key next) = [] := by
            rw [List.filter_eq_nil_iff]
            intro value member same
            exact known (of_decide_eq_true same ▸ List.mem_map_of_mem member)
          rw [builds.fresh, builds.add, none]
          refine congrArg₂ _ (List.map_congr_left fun shared listed => ?_) (by simp)
          have other : key next ≠ shared := fun same =>
            known (same ▸ List.mem_eraseDups.mp listed)
          simp [other]
        · intro group member
          obtain ⟨shared, listed, rfl⟩ := List.mem_map.mp member
          rw [builds.isIts, decide_eq_false_iff_not]
          rintro rfl
          exact known (List.mem_eraseDups.mp listed)

theorem any_membersBy (key : α → κ) (test : κ → Bool) (values : List α) :
    ((membersBy key values).any fun group => test group.1) =
      values.any fun value => test (key value) := by
  rw [membersBy, List.any_map, Bool.eq_iff_iff]
  simp [List.any_eq_true, List.mem_eraseDups]

theorem total_perm {first second : List α} (measure : α → Nat) (permuted : first.Perm second) :
    total measure first = total measure second := by
  induction permuted with
  | nil => rfl
  | cons value _ ih => rw [total_cons, total_cons, ih]
  | swap => simp only [total_cons, Nat.add_left_comm]
  | trans _ _ firstIh secondIh => rw [firstIh, secondIh]

theorem total_countP {β : Type} (parts : α → List β) (test : β → Bool) (values : List α) :
    total (fun value => (parts value).countP test) values =
      (values.flatMap parts).countP test := by
  induction values with
  | nil => rfl
  | cons value rest ih => rw [total_cons, ih, List.flatMap_cons, List.countP_append]

theorem total_map {β δ : Type} (measure : δ → Nat) (f : β → δ) (values : List β) :
    total measure (values.map f) = total (fun value => measure (f value)) values := by
  induction values with
  | nil => rfl
  | cons value rest ih => rw [List.map_cons, total_cons, total_cons, ih]

theorem total_filter {β : Type} (measure : β → Nat) (test : β → Bool) (values : List β) :
    total measure (values.filter test) =
      total (fun value => if test value then measure value else 0) values := by
  induction values with
  | nil => rfl
  | cons value rest ih => cases passed : test value <;> simp [passed, ih]

theorem total_addToGroup {isIts : γ → Bool} {fresh : γ} {add : γ → γ} (measure : γ → Nat)
    {weight : Nat} (empty : measure (add fresh) = weight)
    (grows : ∀ group, isIts group = true → measure (add group) = measure group + weight)
    (groups : List γ) :
    total measure (addToGroup isIts fresh add groups) = total measure groups + weight := by
  induction groups with
  | nil => rw [addToGroup, total_cons, empty, Nat.add_comm]
  | cons group rest ih =>
      rw [addToGroup]
      split
      · rename_i isOne
        rw [total_cons, total_cons, grows group isOne]
        omega
      · rw [total_cons, total_cons, ih]
        omega

theorem total_membersBy (key : α → κ) (test : κ → Bool) (values : List α) :
    total (fun group => if test group.1 then group.2.length else 0) (membersBy key values) =
      values.countP fun value => test (key value) := by
  have builds : Builds key (fun value group => decide (group.1 = key value))
      (fun value => (key value, [])) (fun value group => (group.1, group.2 ++ [value]))
      Prod.mk :=
    ⟨fun _ _ _ => rfl, fun _ => rfl, fun _ _ _ => rfl⟩
  have gathered := foldl_addToGroup builds
  simp only [List.map_id'] at gathered
  induction values using List.reverseRecOn with
  | nil => rfl
  | append_singleton values next ih =>
      rw [← gathered, List.foldl_append, gathered, List.foldl_cons, List.foldl_nil,
        List.countP_append, List.countP_singleton, ← ih]
      refine total_addToGroup
        (fun group : κ × List α => if test group.1 then group.2.length else 0) rfl
        (fun group isIts => ?_) _
      rw [of_decide_eq_true isIts]
      split
      · exact List.length_append
      · rfl

def frequentKeys (minimum : Nat) (keys : List κ) : Nat :=
  (keys.toFinset.filter fun key => minimum ≤ keys.count key).card

theorem frequentKeys_perm {first second : List κ} (minimum : Nat)
    (permuted : first.Perm second) :
    frequentKeys minimum first = frequentKeys minimum second := by
  rw [frequentKeys, List.toFinset_eq_of_perm _ _ permuted]
  simp only [permuted.count_eq, frequentKeys]

/-- The keys that come at least so many times, each with how often it does, in the order in which
they first come. -/
def frequent (minimum : Nat) (keys : List κ) : List (κ × Nat) :=
  (keys.eraseDups.filter fun key => minimum ≤ keys.count key).map fun key => (key, keys.count key)

theorem nodup_frequent (minimum : Nat) (keys : List κ) :
    ((frequent minimum keys).map Prod.fst).Nodup := by
  rw [frequent, List.map_map]
  simpa [Function.comp_def] using (nodup_eraseDups keys).filter _

theorem length_frequent (minimum : Nat) (keys : List κ) :
    (frequent minimum keys).length = frequentKeys minimum keys := by
  have large : keys.toFinset.filter (fun key => minimum ≤ keys.count key) =
      (keys.eraseDups.filter fun key => minimum ≤ keys.count key).toFinset := by
    ext key
    simp [List.mem_eraseDups]
  rw [frequent, frequentKeys, List.length_map, large,
    List.toFinset_card_of_nodup ((nodup_eraseDups _).filter _)]

theorem length_filter_key (key : α → κ) (values : List α) (shared : κ) :
    (values.filter fun value => key value = shared).length = (values.map key).count shared := by
  rw [List.count_eq_countP, List.countP_map, List.countP_eq_length_filter]
  rfl

theorem filter_membersBy (key : α → κ) (minimum : Nat) (values : List α) :
    ((membersBy key values).filter fun group => minimum ≤ group.2.length).map
        (fun group => (group.1, group.2.length)) =
      frequent minimum (values.map key) := by
  simp only [membersBy, frequent, List.filter_map, List.map_map, Function.comp_def,
    length_filter_key]

theorem countP_membersBy (key : α → κ) (minimum : Nat) (values : List α) :
    ((membersBy key values).countP fun group => minimum ≤ group.2.length) =
      frequentKeys minimum (values.map key) := by
  rw [List.countP_eq_length_filter, ← length_frequent, ← filter_membersBy, List.length_map]

end ComponentSurvey.Order
